import TornadoHttp2.FlowControl
import TornadoHttp2.Hpack
import TornadoHttp2.HttpHeaders

/-! The attributes of a connection and of a stream, the points at which a
writer of a stream is suspended, and the log of everything that can be
observed. Tornado's objects appear through their documented behaviour: a
`Lock` goes to its waiters in order of arrival, and a `Condition` wakes all of
them. -/

namespace TornadoHttp2

/-- `unicode` is not set by the source: it is what Python knows of Unicode. -/
structure Params where
  maxHeaderSize : Nat
  unicode : Unicode

/-- `max_header_size or 65536`. -/
def Params.new (maxHeaderSize : Option Nat) (unicode : Unicode) : Params :=
  ⟨if maxHeaderSize.getD 0 = 0 then 65536 else maxHeaderSize.getD 0, unicode⟩

/-- The method and the path are strings where a request is written, and values of
pseudo-headers where it is read. -/
inductive StartLine (α : Type)
  | request (method path : α)
  | response (code : Int)
  deriving DecidableEq, Repr

def StartLine.optional : StartLine Bytes → StartLine (Option Bytes)
  | .request method path => .request (some method) (some path)
  | .response code => .response code

inductive DelegateCall
  | headersReceived (startLine : StartLine (Option Bytes)) (headers : HTTPHeaders (Option Bytes))
  | dataReceived (chunk : Bytes)
  | finish
  | onConnectionClose
  deriving DecidableEq, Repr

/-- The calls that open and close the sending side of a stream. -/
inductive Call
  | writeHeaders
  | finish
  deriving DecidableEq, Repr

/-- What happened, in order. The window `none` is the connection's. A content
length is `declared` when `_outgoing_content_remaining` is first set, and a chunk
is `accepted` when its `write` does not raise. -/
inductive Event
  | received (frame : Frame)
  | wrote (frame : Frame)
  | opened (streamId : Nat) (windowSize : Int)
  | startRequest (streamId : Nat)
  | called (streamId : Nat) (call : DelegateCall)
  | decoded (block : Bytes)
  | credited (window : Option Nat) (amount : Nat)
  | consumed (window : Option Nat) (streamId : Nat) (asked taken : Int)
  | issued (streamId : Nat) (call : Call)
  | declared (streamId : Nat) (length : Int)
  | accepted (streamId : Nat) (chunk : Bytes)
  | callback (streamId token : Nat)
  deriving DecidableEq, Repr

/-- A coroutine that needs the write lock: `_write_chunk` with what is left of
its chunk, or `_write_end_stream`. -/
inductive Job
  | chunk (data : Bytes) (callback : Option Nat)
  | endStream
  deriving DecidableEq, Repr

/-- The `yield` at which the coroutine that owns the write lock stands. -/
inductive YieldPoint
  /-- `yield self.write_lock.acquire()`, granted. -/
  | lock
  /-- `yield self.cond.wait()` in the stream's window. -/
  | cond (since : Nat)
  /-- `yield self.cond.wait()` in the connection's window, to consume `amount`. -/
  | parentCond (amount : Int) (since : Nat)
  /-- `yield self.parent.consume(...)`, which returned `amount`. -/
  | parent (amount : Int)
  /-- `yield self.window.consume(...)`, which returned `amount`. -/
  | consume (amount : Int)
  /-- `yield self.conn._write_frame(...)`. -/
  | flush
  deriving DecidableEq, Repr

/-- `lost` is a lock whose owner ended without releasing it. -/
inductive Owner
  | free
  | writer (job : Job) (point : YieldPoint)
  | lost
  deriving DecidableEq, Repr

structure WriteLock where
  owner : Owner
  waiters : List Job
  deriving DecidableEq, Repr

/-- `release()` hands the lock to the first waiter. -/
def WriteLock.release (lock : WriteLock) : WriteLock :=
  match lock.waiters with
  | [] => ⟨.free, []⟩
  | job :: waiters => ⟨.writer job .lock, waiters⟩

structure Conn where
  isClient : Bool
  params : Params
  settings : List (Nat × Nat)
  nextStreamId : Nat
  hpackDecoder : HpackDecoder
  hpackEncoder : HpackEncoder
  huffmanTree : HuffmanTree
  window : Window
  /-- The socket is closed. -/
  closed : Bool
  log : List Event

/-- `self._settings.get(setting.code, setting.default)`. -/
def Conn.setting (conn : Conn) (setting : Setting) : Nat :=
  (conn.settings.lookup setting.code).getD setting.default

/-- `requestStartLine` is `none` where `_request_start_line` has no `method`: until
it is first set, and if it is the start line of a response. `pendingCredits`
holds the payload lengths whose `data_received` future is not resolved yet. -/
structure Stream where
  streamId : Nat
  hasDelegate : Bool
  finished : Bool
  writeLock : WriteLock
  incomingContentRemaining : Option Int
  outgoingContentRemaining : Option Int
  delegateStarted : Bool
  window : Window
  headerFrames : List Frame
  phase : HTTPPhase
  requestStartLine : Option (Option Bytes × Option Bytes)
  pendingCredits : List Nat
  deriving DecidableEq, Repr

def Stream.new (conn : Conn) (streamId : Nat) (hasDelegate : Bool) : Stream where
  streamId := streamId
  hasDelegate := hasDelegate
  finished := false
  writeLock := ⟨.free, []⟩
  incomingContentRemaining := none
  outgoingContentRemaining := none
  delegateStarted := false
  window := .new (some streamId) (conn.setting .initialWindowSize)
  headerFrames := []
  phase := .headers
  requestStartLine := none
  pendingCredits := []

/-- What a method of a stream reaches: the stream and its connection. -/
structure Ctx where
  conn : Conn
  self : Stream

abbrev OnConn := Prog Conn PyException

abbrev OnStream := Prog Ctx PyException

namespace Conn

open Prog

def emit (e : Event) : OnConn Unit := modify fun c => { c with log := c.log ++ [e] }

/-- `struct` refuses a length or a stream id of 2^31 or more, and a closed socket
any write. -/
def writeFrame (frame : Frame) : OnConn Unit := do
  check (frame.data.length ≥ 2 ^ 31 ∨ frame.streamId ≥ 2 ^ 31) .structError
  let conn ← get
  check (conn.closed = true) .streamClosedError
  emit (.wrote frame)

end Conn

namespace Ctx

open Prog

def onConn {α : Type} (m : OnConn α) : OnStream α := zoom Ctx.conn (fun c conn => { c with conn }) m

def emit (e : Event) : OnStream Unit := onConn (Conn.emit e)

def writeFrame (frame : Frame) : OnStream Unit := onConn (Conn.writeFrame frame)

def setSelf (f : Stream → Stream) : OnStream Unit := modify fun c => { c with self := f c.self }

end Ctx

end TornadoHttp2
