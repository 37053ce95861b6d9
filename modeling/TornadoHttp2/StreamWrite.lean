import TornadoHttp2.State

/-! The sending half of a stream. A coroutine is cut at its `yield`s: `resume`
runs the owner of the write lock from the point where it stands to the next
one; only the first slice after an uncontended `acquire` belongs to the call
itself. tornado goes on at once with a future that is already resolved. Here
other coroutines may run there, too: the schedules of tornado, in which such a
`yield` is resumed before anything else, are among those of the model. -/

namespace TornadoHttp2

namespace Stream

open Prog Ctx

def reset : OnStream Unit := do
  let c ← get
  writeFrame ⟨.rstStream, 0, c.self.streamId, [0, 0, 0, 0]⟩

/-- `_reset_on_error`. -/
def resetOnError (m : OnStream Unit) : OnStream Unit :=
  catching m fun e => do
    reset
    raise e

def setOwner (owner : Owner) : OnStream Unit :=
  setSelf fun s => { s with writeLock := { s.writeLock with owner } }

def release : OnStream Unit := setSelf fun s => { s with writeLock := s.writeLock.release }

/-- `self.parent.consume(amount)` from the test of its loop to its next `yield`. -/
def consumeParent (amount : Int) : OnStream YieldPoint := do
  let c ← get
  if c.conn.window.blocked then pure (.parentCond amount c.conn.window.notified)
  else do
    check (c.conn.window.closed = true) .streamClosedError
    let taken := if c.conn.window.size < amount then c.conn.window.size else amount
    onConn (modify fun conn =>
      { conn with window := { conn.window with size := conn.window.size - taken } })
    emit (.consumed none c.self.streamId amount taken)
    pure (.parent taken)

/-- `self.window.consume(amount)` from the test of its loop to its next `yield`. -/
def consume (amount : Int) : OnStream YieldPoint := do
  let c ← get
  if c.self.window.blocked then pure (.cond c.self.window.notified)
  else do
    check (c.self.window.closed = true) .streamClosedError
    consumeParent (if c.self.window.size < amount then c.self.window.size else amount)

def runCallback (callback : Option Nat) : OnStream Unit := do
  let c ← get
  match callback with
  | none => pure ()
  | some token => emit (.callback c.self.streamId token)

/-- `_write_chunk` from the test of its loop to its next `yield`. -/
def writeChunkLoop (chunk : Bytes) (callback : Option Nat) : OnStream Unit :=
  if chunk = [] then do
    release
    runCallback callback
  else do
    let point ← consume chunk.length
    setOwner (.writer (.chunk chunk callback) point)

/-- One slice of `_write_chunk`. A wait that was not notified goes on. The future
of a write holds an exception if the socket closed before it was `flushed`. -/
def resumeChunk (flushed : Bool) (chunk : Bytes) (callback : Option Nat) :
    YieldPoint → OnStream Unit
  | .lock => writeChunkLoop chunk callback
  | .flush => do
    let c ← get
    check (c.conn.closed = true ∧ flushed = false) .streamClosedError
    writeChunkLoop chunk callback
  | .cond since => do
    let c ← get
    when (since < c.self.window.notified) (writeChunkLoop chunk callback)
  | .parentCond amount since => do
    let c ← get
    when (since < c.conn.window.notified) do
      let point ← consumeParent amount
      setOwner (.writer (.chunk chunk callback) point)
  | .parent amount => do
    let c ← get
    setSelf fun s => { s with window := { s.window with size := s.window.size - amount } }
    emit (.consumed (some c.self.streamId) c.self.streamId chunk.length amount)
    setOwner (.writer (.chunk chunk callback) (.consume amount))
  | .consume amount => do
    let c ← get
    writeFrame ⟨.data, 0, c.self.streamId, chunk.take amount.toNat⟩
    setOwner (.writer (.chunk (chunk.drop amount.toNat) callback) .flush)

/-- The slice of `_write_end_stream` after the lock has been acquired. -/
def resumeEndStream : OnStream Unit := do
  let c ← get
  catching (writeFrame ⟨.data, FrameFlag.endStream.value, c.self.streamId, []⟩) fun _ =>
    catching reset fun _ => pure ()
  release

/-- An exception ends up in the future of the coroutine. In `_write_chunk` it
leaves the lock taken. -/
def resume (flushed : Bool) : OnStream Unit := do
  let c ← get
  match c.self.writeLock.owner with
  | .writer .endStream _ => resumeEndStream
  | .writer (.chunk chunk callback) point =>
    catching (resumeChunk flushed chunk callback point) fun _ => do
      setOwner .lost
      catching reset fun _ => pure ()
  | _ => pure ()

/-- `yield self.write_lock.acquire()` and, if the lock is free, what follows. -/
def acquire (job : Job) : OnStream Unit := do
  let c ← get
  if c.self.writeLock.owner = .free then do
    setOwner (.writer job .lock)
    resume true
  else
    setSelf fun s => { s with
      writeLock := { s.writeLock with waiters := s.writeLock.waiters ++ [job] } }

def writeChunk (chunk : Bytes) (callback : Option Nat) : OnStream Unit :=
  if chunk = [] then runCallback callback else acquire (.chunk chunk callback)

/-- The length counter of `write`. -/
def countOutgoing (chunk : Bytes) : OnStream Unit := do
  let c ← get
  match c.self.outgoingContentRemaining with
  | none => pure ()
  | some remaining => do
    let remaining := remaining - chunk.length
    setSelf fun s => { s with outgoingContentRemaining := some remaining }
    check (remaining < 0) .httpOutputError

/-- Past the length check the call returns. -/
def write (chunk : Bytes) (callback : Option Nat) : OnStream Unit :=
  resetOnError do
    let c ← get
    when (chunk ≠ []) (countOutgoing chunk)
    emit (.accepted c.self.streamId chunk)
    writeChunk chunk callback

/-- Whether a server's response can have no body. -/
def isBodiless (startLine : StartLine Bytes) : OnStream Bool := do
  let c ← get
  if c.conn.isClient then pure false
  else
    match c.self.requestStartLine with
    | none => raise .attributeError
    | some (method, _) =>
      if method = some (ascii "HEAD") then pure true
      else
        match startLine with
        | .response code => pure (code = 304)
        | .request _ _ => raise .attributeError

def declare (length : Int) : OnStream Unit := do
  let c ← get
  setSelf fun s => { s with outgoingContentRemaining := some length }
  emit (.declared c.self.streamId length)

def setOutgoingContent (startLine : StartLine Bytes) (headers : HTTPHeaders Bytes) :
    OnStream Unit := do
  if ← isBodiless startLine then declare 0
  else if headers.contains (ascii "Content-Length") then do
    let n ← ofExcept (headers.optional.getInt (ascii "Content-Length"))
    declare n
  else pure ()

/-- A client keeps the start line before it looks for its method. -/
def pseudoHeaderList (startLine : StartLine Bytes) :
    OnStream (List (Bytes × Bytes × HeaderIndexMode)) := do
  let c ← get
  match c.conn.isClient, startLine with
  | true, .request method path => do
    setSelf fun s => { s with requestStartLine := some (some method, some path) }
    pure [(ascii ":method", method, .yes), (ascii ":scheme", ascii "https", .yes),
      (ascii ":path", path, .no)]
  | true, .response _ => do
    setSelf fun s => { s with requestStartLine := none }
    raise .attributeError
  | false, .response code => pure [(ascii ":status", ascii (toString code), .yes)]
  | false, .request _ _ => raise .attributeError

/-- The `connection` header that tornado adds is not allowed in HTTP/2. -/
def regularHeaders (u : Unicode) : List (Bytes × Bytes) → List (Bytes × Bytes × HeaderIndexMode)
  | [] => []
  | (k, v) :: rest =>
    if u.lower k = ascii "connection" then regularHeaders u rest
    else (u.lower k, v, .yes) :: regularHeaders u rest

def regularHeaderList (headers : List (Bytes × Bytes)) :
    OnStream (List (Bytes × Bytes × HeaderIndexMode)) := do
  let c ← get
  pure (regularHeaders c.conn.params.unicode headers)

def encodeHeaders (headerList : List (Bytes × Bytes × HeaderIndexMode)) : OnStream Bytes :=
  onConn (zoom Conn.hpackEncoder (fun conn hpackEncoder => { conn with hpackEncoder })
    (HpackEncoder.encode headerList))

def writeHeaders (startLine : StartLine Bytes) (headers : HTTPHeaders Bytes) (chunk : Bytes)
    (callback : Option Nat) : OnStream Unit :=
  resetOnError do
    let c ← get
    emit (.issued c.self.streamId .writeHeaders)
    setOutgoingContent startLine headers
    let pseudoHeaders ← pseudoHeaderList startLine
    let regularHeaders ← regularHeaderList headers.getAll
    let data ← encodeHeaders (pseudoHeaders ++ regularHeaders)
    writeFrame ⟨.headers, FrameFlag.endHeaders.value, c.self.streamId, data⟩
    write chunk callback

def writeEndStream : OnStream Unit := acquire .endStream

def finish : OnStream Unit :=
  resetOnError do
    let c ← get
    emit (.issued c.self.streamId .finish)
    check (c.self.outgoingContentRemaining.any (· ≠ 0) = true) .httpOutputError
    writeEndStream

end Stream

end TornadoHttp2
