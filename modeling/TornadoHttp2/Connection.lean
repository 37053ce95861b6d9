import TornadoHttp2.StreamRead

/-! The connection: the handlers of stream 0 and the body of `_conn_loop`. -/

namespace TornadoHttp2

def settingsFrame (isClient : Bool) : Frame :=
  ⟨.settings, 0, 0, if isClient then packBytes 2 Setting.enablePush.code ++ packBytes 4 0 else []⟩

def settingsAckFrame : Frame := ⟨.settings, FrameFlag.ack.value, 0, []⟩

def goawayFrame (errorCode : ErrorCode) (lastStreamId : Nat) (message : Option String) : Frame :=
  ⟨.goaway, 0, 0, packBytes 4 lastStreamId ++ packBytes 4 errorCode.code ++
    match message with
    | none => []
    | some text => ascii text⟩

def rstStreamFrame (streamId : Nat) (errorCode : ErrorCode) : Frame :=
  ⟨.rstStream, 0, streamId, packBytes 4 errorCode.code⟩

namespace Conn

open Prog

/-- A setting that the peer may not choose, and how it is refused. -/
def refusedSetting (code value : Nat) : Option PyException :=
  if code = Setting.enablePush.code then
    if value = 0 ∨ value = 1 then none
    else some (.connectionError .protocolError (some "ENABLE_PUSH must be 0 or 1"))
  else if code = Setting.initialWindowSize.code then
    if (value : Int) > maxWindowSize then
      some (.connectionError .flowControlError (some "INITIAL_WINDOW_SIZE too large"))
    else none
  else if code = Setting.maxFrameSize.code then
    if value < Setting.maxFrameSize.default ∨ value > maxMaxFrameSize then
      some (.connectionError .protocolError (some "MAX_FRAME_SIZE out of bounds"))
    else none
  else none

/-- The loop over `frame.data`, six bytes at a time. -/
def applySettings : Bytes → OnConn Unit
  | [] => pure ()
  | b₀ :: b₁ :: b₂ :: b₃ :: b₄ :: b₅ :: data => do
    let code := unpackBytes [b₀, b₁]
    let value := unpackBytes [b₂, b₃, b₄, b₅]
    match refusedSetting code value with
    | some e => raise e
    | none => do
      modify fun c => { c with settings := (code, value) :: c.settings }
      applySettings data
  | _ => raise (.connectionError .frameSizeError (some "SETTINGS frames must be multiples of 6 bytes"))

def handleSettingsFrame (frame : Frame) : OnConn Unit :=
  if frame.has .ack then
    check (frame.data ≠ []) (.connectionError .frameSizeError (some "SETTINGS ACK must be empty"))
  else do
    applySettings frame.data
    writeFrame settingsAckFrame

def handleWindowUpdateFrame (frame : Frame) : OnConn Unit := do
  let amount ← zoom Conn.window (fun c window => { c with window }) (Window.applyWindowUpdate frame)
  emit (.credited none amount)

def handlePingFrame (frame : Frame) : OnConn Unit :=
  if frame.has .ack then pure ()
  else do
    check (frame.data.length ≠ 8) (.connectionError .frameSizeError none)
    writeFrame ⟨.ping, FrameFlag.ack.value, 0, frame.data⟩

def handleGoawayFrame : OnConn Unit := do
  modify fun c => { c with closed := true }
  raise .streamClosedError

/-- `Connection.handle_frame`, for the frames of stream 0. -/
def handleFrame (frame : Frame) : OnConn Unit :=
  match frame.type with
  | .settings => handleSettingsFrame frame
  | .windowUpdate => handleWindowUpdateFrame frame
  | .ping => handlePingFrame frame
  | .goaway => handleGoawayFrame
  -- Unknown frame types are silently discarded.
  | .unknown _ => pure ()
  | type => raise (.connectionError .protocolError
    (some ("invalid frame type " ++ type.str ++ " for stream 0")))

/-- `_read_frame` refuses a length before it reads the payload. -/
def readFrame (frame : Frame) : OnConn Unit := do
  let c ← get
  check (frame.data.length > c.setting .maxFrameSize) (.connectionError .frameSizeError none)
  emit (.received frame)

end Conn

/-- Where `_conn_loop` stands: reading frames, waiting for its GOAWAY to be
flushed, or over. -/
inductive ConnLoop
  | running | goingAway | ended
  deriving DecidableEq, Repr

structure System where
  conn : Conn
  streams : Nat → Option Stream
  maxRemoteStreamId : Nat
  lastStream : Option Nat
  loop : ConnLoop

abbrev OnSystem := Prog System PyException

namespace System

open Prog

def onConn {α : Type} (m : OnConn α) : OnSystem α := zoom System.conn (fun s conn => { s with conn }) m

def setStream (s : System) (streamId : Nat) (c : Ctx) : System :=
  { s with conn := c.conn, streams := Function.update s.streams streamId (some c.self) }

/-- A method call on `self.streams[stream_id]`. -/
def onStream (streamId : Nat) (m : OnStream Unit) : OnSystem Unit := do
  let s ← get
  match s.streams streamId with
  | none => pure ()
  | some self => zoom (fun s => ⟨s.conn, self⟩) (fun s c => s.setStream streamId c) m

def setLoop (loop : ConnLoop) : OnSystem Unit := modify fun s => { s with loop }

def closeSocket : OnSystem Unit := onConn (modify fun c => { c with closed := true })

/-- `last_stream.needs_continuation()` and the frame is not the one needed. -/
def breaksHeaderBlock (s : System) (frame : Frame) : Bool :=
  match s.lastStream.bind s.streams with
  | none => false
  | some last =>
    last.needsContinuation && !(frame.type == .continuation && frame.streamId == last.streamId)

/-- `_conn_loop` reads the frame and hands it on. -/
def Reads (s : System) (frame : Frame) : Prop :=
  s.loop = .running ∧ frame.data.length ≤ s.conn.setting .maxFrameSize ∧ s.breaksHeaderBlock frame = false

instance (s : System) (frame : Frame) : Decidable (s.Reads frame) := inferInstanceAs (Decidable (_ ∧ _))

/-- `self.streams[stream_id] = Stream(self, stream_id, delegate)`. -/
def openStream (streamId : Nat) (hasDelegate : Bool)
    (requestStartLine : Option (Option Bytes × Option Bytes)) : OnSystem Unit := do
  let s ← get
  let self := Stream.new s.conn streamId hasDelegate
  onConn (Conn.emit (.opened streamId self.window.size))
  modify fun s => { s with
    streams := Function.update s.streams streamId (some { self with requestStartLine }) }

def createStream : OnSystem Unit := do
  let s ← get
  onConn (modify fun c => { c with nextStreamId := c.nextStreamId + 2 })
  openStream s.conn.nextStreamId true none

/-- The stream that `switch_protocols` sets up for the upgraded request. -/
def upgrade (method path : Option Bytes) : OnSystem Unit := openStream 1 false (some (method, path))

/-- `_conn_loop` hands a frame to a stream that it has. -/
def handleStreamFrame (frame : Frame) (later : Bool) : OnSystem Unit := do
  modify fun s => { s with lastStream := some frame.streamId }
  onStream frame.streamId (Stream.handleFrame frame later)

/-- A HEADERS frame that opens a stream on a server. -/
def acceptStream (frame : Frame) (later : Bool) : OnSystem Unit := do
  let s ← get
  check (frame.streamId % 2 = s.conn.nextStreamId % 2)
    (.connectionError .protocolError (some "invalid stream id"))
  modify fun s => { s with maxRemoteStreamId := max s.maxRemoteStreamId frame.streamId }
  openStream frame.streamId true none
  onConn (Conn.emit (.startRequest frame.streamId))
  handleStreamFrame frame later

/-- The last stream id of the same parity that can have been in use. -/
def maxStreamId (s : System) (streamId : Nat) : Int :=
  if streamId % 2 = s.conn.nextStreamId % 2 then s.conn.nextStreamId - 2 else s.maxRemoteStreamId

/-- A frame of a stream that there is not and that it cannot open: the error
depends on whether the stream id is from the past or future. -/
def refuseFrame (frame : Frame) : OnSystem Unit := do
  let s ← get
  if frame.streamId ≤ s.maxStreamId frame.streamId then
    check (frame.type ≠ .windowUpdate ∧ frame.type ≠ .rstStream)
      (.streamError frame.streamId .streamClosed)
  else raise (.connectionError .protocolError (some "non-existent stream"))

/-- What `_conn_loop` does with a frame that it has read. -/
def dispatch (frame : Frame) (later : Bool) : OnSystem Unit := do
  let s ← get
  check (s.breaksHeaderBlock frame = true)
    (.connectionError .protocolError (some "CONTINUATION frame required"))
  if frame.streamId = 0 then onConn (Conn.handleFrame frame)
  else if (s.streams frame.streamId).isSome then handleStreamFrame frame later
  else if s.conn.isClient = false ∧ frame.type = .headers then acceptStream frame later
  else refuseFrame frame

/-- The inner handler of `_conn_loop`. -/
def handleStreamError : PyException → OnSystem Unit
  | .streamError streamId code => onConn (Conn.writeFrame (rstStreamFrame streamId code))
  | e => raise e

/-- The outer handlers of `_conn_loop`. -/
def handleError : PyException → OnSystem Unit
  | .connectionError code message =>
    catching
      (do
        onConn (Conn.writeFrame (goawayFrame code 0 message))
        setLoop .goingAway)
      fun _ => setLoop .ended
  | .streamClosedError => setLoop .ended
  | _ => do
    closeSocket
    setLoop .ended

/-- One pass of `_conn_loop`. -/
def receive (frame : Frame) (later : Bool) : OnSystem Unit :=
  catching
    (catching
      (do
        onConn (Conn.readFrame frame)
        dispatch frame later)
      handleStreamError)
    handleError

/-- What can happen next: a frame arrives (and the delegate's `data_received`
may return a future), a stream is created, the application calls a method of a
stream, a suspended coroutine resumes, a `data_received` future is resolved, the
GOAWAY has been flushed, or the socket closes. -/
inductive Action
  | receive (frame : Frame) (later : Bool)
  | createStream
  | upgrade (method path : Option Bytes)
  | writeHeaders (streamId : Nat) (startLine : StartLine Bytes) (headers : HTTPHeaders Bytes)
    (chunk : Bytes) (callback : Option Nat)
  | write (streamId : Nat) (chunk : Bytes) (callback : Option Nat)
  | finish (streamId : Nat)
  | reset (streamId : Nat)
  | resume (streamId : Nat) (flushed : Bool)
  | resolve (streamId i : Nat)
  | goawayFlushed
  | disconnect
  deriving DecidableEq, Repr

/-- The actions that call or resume a method of a stream. -/
def Action.method : Action → Option (Nat × OnStream Unit)
  | .writeHeaders streamId startLine headers chunk callback =>
    some (streamId, Stream.writeHeaders startLine headers chunk callback)
  | .write streamId chunk callback => some (streamId, Stream.write chunk callback)
  | .finish streamId => some (streamId, Stream.finish)
  | .reset streamId => some (streamId, Stream.reset)
  | .resume streamId flushed => some (streamId, Stream.resume flushed)
  | .resolve streamId i => some (streamId, Stream.resolveData i)
  | _ => none

/-- The loop reads only while it runs, and an upgraded request is stream 1 of a
server. -/
def perform : Action → OnSystem Unit
  | .receive frame later => do
    let s ← get
    when (s.loop = .running) (receive frame later)
  | .createStream => createStream
  | .upgrade method path => do
    let s ← get
    when (s.conn.isClient = false ∧ s.streams 1 = none) (upgrade method path)
  | .goawayFlushed => do
    let s ← get
    when (s.loop = .goingAway) do
      closeSocket
      setLoop .ended
  | .disconnect => closeSocket
  | a =>
    match a.method with
    | none => pure ()
    | some (streamId, m) => onStream streamId m

/-- An exception of a call is the caller's. -/
def step (s : System) (a : Action) : System := ((perform a).run s).2

def run (s : System) (actions : List Action) : System := actions.foldl step s

/-- The connection after its first SETTINGS frame. -/
def start (isClient : Bool) (params : Params) : System where
  conn :=
    { isClient := isClient
      params := params
      settings := []
      nextStreamId := if isClient then 1 else 2
      hpackDecoder := .new Setting.headerTableSize.default
      hpackEncoder := .new Setting.headerTableSize.default false
      huffmanTree := huffmanTree
      window := .new none Setting.initialWindowSize.default
      closed := false
      log := [.wrote (settingsFrame isClient)] }
  streams := fun _ => none
  maxRemoteStreamId := 0
  lastStream := none
  loop := .running

end System

end TornadoHttp2
