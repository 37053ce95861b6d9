import TornadoHttp2.StreamWrite

/-! The receiving half of a stream. The delegate is the application's: its calls
are recorded, and what it does in turn (writing a response, say) are calls of
its own that come later. `later` says whether `data_received` returns a future
that is still to be resolved. -/

namespace TornadoHttp2

namespace Stream

open Prog Ctx

/-- A method call on `self.delegate`, which may be `None`. -/
def callDelegate (call : DelegateCall) : OnStream Unit := do
  let c ← get
  check (c.self.hasDelegate = false) .attributeError
  emit (.called c.self.streamId call)

def needsContinuation (s : Stream) : Bool := s.headerFrames ≠ []

def sendWindowUpdate (amount : Nat) : OnStream Unit := do
  let c ← get
  check (amount ≥ 2 ^ 32) .structError
  writeFrame ⟨.windowUpdate, 0, 0, packBytes 4 amount⟩
  writeFrame ⟨.windowUpdate, 0, c.self.streamId, packBytes 4 amount⟩

/-- The result says whether the stream has ended. -/
def maybeEndStream (frame : Frame) : OnStream Bool := do
  if frame.has .endStream then do
    let c ← get
    check (c.self.incomingContentRemaining.any (· ≠ 0) = true)
      (.streamError c.self.streamId .protocolError)
    when (c.self.delegateStarted = true) do
      setSelf fun s => { s with delegateStarted := false }
      callDelegate .finish
    setSelf fun s => { s with finished := true }
    pure true
  else pure false

def headerLength (s : Stream) : Nat := (s.headerFrames.map fun f => f.data.length).sum

/-- The `return` at the end of the source function changes nothing: the callers
go on after this check whatever it did. -/
def checkHeaderLength : OnStream Unit := do
  let c ← get
  when (c.self.headerLength > c.conn.params.maxHeaderSize) do
    if c.conn.isClient then callDelegate .onConnectionClose
    else do
      setSelf fun s => { s with requestStartLine := some (some (ascii "GET"), some (ascii "/")) }
      writeHeaders (.response 431) .empty [] none
      finish

/-- What the header loop of `_parse_headers` accumulates. -/
structure ParsedHeaders where
  pseudoHeaders : List (Bytes × Option Bytes)
  headers : HTTPHeaders (Option Bytes)
  hasRegularHeader : Bool
  deriving DecidableEq, Repr

def validPseudoHeaders (isClient : Bool) : List Bytes :=
  if isClient then [ascii ":status"]
  else [ascii ":method", ascii ":scheme", ascii ":authority", ascii ":path"]

def addPseudoHeader (u : Unicode) (isClient : Bool) (streamId : Nat) (k : Bytes) (v : Option Bytes)
    (p : ParsedHeaders) : Except PyException ParsedHeaders := do
  if p.hasRegularHeader ∨ k ∉ validPseudoHeaders isClient ∨ (p.pseudoHeaders.lookup k).isSome then
    .error (.streamError streamId .protocolError)
  else do
    let value ← nativeStr v
    let headers ←
      if k = ascii ":authority" then p.headers.add u (ascii "Host") value else .ok p.headers
    .ok ⟨p.pseudoHeaders ++ [(k, value)], headers, p.hasRegularHeader⟩

def addRegularHeader (u : Unicode) (k : Bytes) (v : Option Bytes) (p : ParsedHeaders) :
    Except PyException ParsedHeaders := do
  let _ ← nativeStr (some k)
  let value ← nativeStr v
  let headers ← p.headers.add u k value
  .ok ⟨p.pseudoHeaders, headers, true⟩

/-- One pass of the header loop. -/
def addHeader (u : Unicode) (isClient : Bool) (streamId : Nat) (p : ParsedHeaders)
    (header : Bytes × Option Bytes × HeaderIndexMode) : Except PyException ParsedHeaders :=
  let (k, v, _) := header
  -- RFC section 8.1.2
  if k ≠ lower k then .error (.streamError streamId .protocolError)
  else if (ascii ":").isPrefixOf k then addPseudoHeader u isClient streamId k v p
  else addRegularHeader u k v p

def addHeaders (u : Unicode) (isClient : Bool) (streamId : Nat) :
    ParsedHeaders → List (Bytes × Option Bytes × HeaderIndexMode) → Except PyException ParsedHeaders
  | p, [] => .ok p
  | p, header :: rest =>
    match addHeader u isClient streamId p header with
    | .ok p => addHeaders u isClient streamId p rest
    | .error e => .error e

/-- `pseudo_headers[key]`. -/
def pseudoHeader (p : ParsedHeaders) (key : Bytes) : Except PyException (Option Bytes) :=
  match p.pseudoHeaders.lookup key with
  | some v => .ok v
  | none => .error .keyError

/-- `int(pseudo_headers[':status'])`. -/
def statusCode (p : ParsedHeaders) : Except PyException Int := do
  match ← pseudoHeader p (ascii ":status") with
  | none => .error .typeError
  | some v => int v

/-- The start line, from the pseudo-headers of the role. -/
def readStartLine (p : ParsedHeaders) : OnStream (StartLine (Option Bytes)) := do
  let c ← get
  if c.conn.isClient then do
    let status ← ofExcept (statusCode p)
    pure (.response status)
  else do
    check ([ascii ":method", ascii ":scheme", ascii ":path"].any
      (fun k => (p.pseudoHeaders.lookup k).isNone) = true)
      (.streamError c.self.streamId .protocolError)
    let method ← ofExcept (pseudoHeader p (ascii ":method"))
    let path ← ofExcept (pseudoHeader p (ascii ":path"))
    setSelf fun s => { s with requestStartLine := some (method, path) }
    pure (.request method path)

/-- Whether a response can have no body. -/
def isBodilessResponse (startLine : StartLine (Option Bytes)) : OnStream Bool := do
  let c ← get
  match startLine with
  | .request _ _ => pure false
  | .response code =>
    match c.self.requestStartLine with
    | none => raise .attributeError
    | some (method, _) => pure (method = some (ascii "HEAD") ∨ code = 304)

def setIncomingContent (startLine : StartLine (Option Bytes))
    (headers : HTTPHeaders (Option Bytes)) : OnStream Unit := do
  if ← isBodilessResponse startLine then
    setSelf fun s => { s with incomingContentRemaining := some 0 }
  else if headers.contains (ascii "content-length") then do
    let n ← ofExcept (headers.getInt (ascii "content-length"))
    setSelf fun s => { s with incomingContentRemaining := some n }
  else pure ()

/-- Informational responses leave the phase at `HEADERS`. -/
def isFinal : StartLine (Option Bytes) → Bool
  | .request _ _ => true
  | .response code => code ≥ 200

def startRequest (p : ParsedHeaders) : OnStream Unit := do
  let c ← get
  check (p.headers.contains (ascii "connection") = true)
    (.connectionError .protocolError (some "connection header should not be present"))
  check ((p.headers.contains (ascii "te") &&
    p.headers.get (ascii "te") != .ok (some (ascii "trailers"))) = true)
    (.streamError c.self.streamId .protocolError)
  let startLine ← readStartLine p
  setIncomingContent startLine p.headers
  when (isFinal startLine = true) (setSelf fun s => { s with phase := .body })
  setSelf fun s => { s with delegateStarted := true }
  callDelegate (.headersReceived startLine p.headers)

/-- The stream dependency and the weight come before the header block. -/
def stripPriority (frame : Frame) (data : Bytes) : OnStream Bytes :=
  if frame.has .priority then do
    check (data.length < 5) .structError
    check (unpackBytes (data.take 4) &&& 0x7fffffff = frame.streamId)
      (.connectionError .protocolError (some "stream cannot depend on itself"))
    pure (data.drop 5)
  else pure data

/-- `self.conn.hpack_decoder.decode(bytearray(data))`. -/
def decodeHeaders (data : Bytes) : OnStream (List (Bytes × Option Bytes × HeaderIndexMode)) := do
  emit (.decoded data)
  let c ← get
  let (result, hpackDecoder, huffmanTree) := c.conn.hpackDecoder.decode c.conn.huffmanTree data
  onConn (modify fun conn => { conn with hpackDecoder, huffmanTree })
  match result with
  | .ok headers => pure headers
  | .error _ => raise (.connectionError .compressionError none)

/-- `_parse_headers` after the block has been put together. -/
def parseBlock (frame : Frame) (data : Bytes) : OnStream Unit := do
  let data ← stripPriority frame data
  let headerList ← decodeHeaders data
  let c ← get
  let p ← ofExcept (addHeaders c.conn.params.unicode c.conn.isClient c.self.streamId
    ⟨[], .empty, c.self.phase = .trailers⟩ headerList)
  when (c.self.phase = .headers) (startRequest p)
  let ended ← maybeEndStream frame
  let c ← get
  -- The frame that finishes the trailers must also finish the stream.
  check (ended = false ∧ c.self.phase = .trailers) (.streamError c.self.streamId .protocolError)

def parseHeaders : OnStream Unit := do
  let c ← get
  match c.self.headerFrames with
  | [] => raise .indexError
  | frame :: rest => do
    setSelf fun s => { s with headerFrames := [] }
    parseBlock frame ((frame :: rest).flatMap Frame.data)

/-- The common end of the HEADERS and CONTINUATION handlers. -/
def appendHeaderFrame (frame : Frame) : OnStream Unit := do
  setSelf fun s => { s with headerFrames := s.headerFrames ++ [frame] }
  checkHeaderLength
  when (frame.has .endHeaders = true) parseHeaders

def handleHeadersFrame (frame : Frame) : OnStream Unit := do
  let c ← get
  when (c.self.phase = .body) (setSelf fun s => { s with phase := .trailers })
  let frame ← ofExcept frame.withoutPadding
  appendHeaderFrame frame

def handleContinuationFrame (frame : Frame) : OnStream Unit := do
  let c ← get
  check (c.self.headerFrames = [])
    (.connectionError .protocolError (some "CONTINUATION without HEADERS"))
  appendHeaderFrame frame

/-- The length counter of `_handle_data_frame`. -/
def countIncoming (data : Bytes) : OnStream Unit := do
  let c ← get
  match c.self.incomingContentRemaining with
  | none => pure ()
  | some remaining => do
    let remaining := remaining - data.length
    setSelf fun s => { s with incomingContentRemaining := some remaining }
    check (remaining < 0) (.streamError c.self.streamId .protocolError)

def deliverData (later : Bool) (data : Bytes) : OnStream Unit := do
  callDelegate (.dataReceived data)
  if later then setSelf fun s => { s with pendingCredits := s.pendingCredits ++ [data.length] }
  else sendWindowUpdate data.length

def handleDataFrame (frame : Frame) (later : Bool) : OnStream Unit := do
  let c ← get
  check (c.self.headerFrames ≠ [])
    (.connectionError .protocolError (some "DATA without END_HEADERS"))
  check (c.self.phase = .trailers)
    (.connectionError .protocolError (some "DATA after trailers"))
  setSelf fun s => { s with phase := .body }
  let frame ← ofExcept frame.withoutPadding
  countIncoming frame.data
  when (frame.data ≠ [] ∧ c.self.delegateStarted = true) (deliverData later frame.data)
  let _ ← maybeEndStream frame

def handlePriorityFrame (frame : Frame) : OnStream Unit := do
  let c ← get
  check (frame.data.length ≠ 5) (.streamError c.self.streamId .frameSizeError)

def handleRstStreamFrame (frame : Frame) : OnStream Unit := do
  let c ← get
  check (frame.data.length ≠ 4) (.connectionError .frameSizeError none)
  when (c.self.delegateStarted = true) (callDelegate .onConnectionClose)

def handleWindowUpdateFrame (frame : Frame) : OnStream Unit := do
  let c ← get
  let amount ← zoom (fun c : Ctx => c.self.window)
    (fun c window => { c with self := { c.self with window } }) (Window.applyWindowUpdate frame)
  emit (.credited (some c.self.streamId) amount)

def handleFrame (frame : Frame) (later : Bool) : OnStream Unit := do
  let c ← get
  match frame.type with
  | .priority => handlePriorityFrame frame
  | .rstStream => handleRstStreamFrame frame
  | .windowUpdate => handleWindowUpdateFrame frame
  | .settings => raise .exception
  | .goaway => raise .exception
  | .pushPromise => raise .exception
  | type => do
    check (c.self.finished = true) (.streamError c.self.streamId .streamClosed)
    match type with
    | .headers => handleHeadersFrame frame
    | .continuation => handleContinuationFrame frame
    | .data => handleDataFrame frame later
    -- Unknown frame types are silently discarded.
    | _ => pure ()

/-- The future of a `data_received` call is resolved. -/
def resolveData (i : Nat) : OnStream Unit := do
  let c ← get
  match c.self.pendingCredits[i]? with
  | none => pure ()
  | some amount => do
    setSelf fun s => { s with pendingCredits := s.pendingCredits.eraseIdx i }
    sendWindowUpdate amount

end Stream

end TornadoHttp2
