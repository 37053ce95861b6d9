import TornadoHttp2.FrameStream
import TornadoHttp2.Framing
import TornadoHttp2.Histories
import TornadoHttp2.Settings
import Mathlib.Data.List.Induction

/-! `_conn_loop` on the bytes of its socket. A server waits for the connection
preface before it sends its SETTINGS; after that both sides wait in turn for the
header of a frame and for its payload. -/

namespace TornadoHttp2

open Prog

/-- `constants.CLIENT_PREFACE`. -/
def clientPreface : Bytes := ascii "PRI * HTTP/2.0\r\n\r\nSM\r\n\r\n"

structure FrameHeader where
  dataLen : Nat
  type : FrameType
  flags : UInt8
  streamId : Nat
  deriving DecidableEq, Repr

namespace FrameHeader

/-- The nine bytes of a header, without the reserved bit of the stream id. -/
def unpack : Bytes → Option FrameHeader
  | [b₀, b₁, b₂, typ, flags, b₅, b₆, b₇, b₈] =>
    some ⟨unpackBytes [0, b₀, b₁, b₂], .ofValue typ.toNat, flags, unpackBytes [b₅, b₆, b₇, b₈] &&& 0x7fffffff⟩
  | _ => none

def frame (h : FrameHeader) (data : Bytes) : Frame := ⟨h.type, h.flags, h.streamId, data⟩

end FrameHeader

/-- The `read_bytes` that `_conn_loop` waits for. -/
inductive Reading
  | preface
  | header
  | payload (header : FrameHeader)
  deriving DecidableEq, Repr

theorem Reading.header_ne : header ≠ preface := nofun

theorem Reading.payload_ne (header : FrameHeader) : payload header ≠ preface := nofun

namespace System

/-- The log starts with the SETTINGS. -/
def unlogged (s : System) : System := { s with conn := { s.conn with log := [] } }

/-- A server on which `switch_protocols` may have set up the stream of a request. -/
def startUpgraded (params : Params) (request : Option (Option Bytes × Option Bytes)) : System :=
  (start false params).run (request.toList.map fun request => .upgrade request.1 request.2)

/-- `_conn_loop` of a server once it has read as many bytes as the preface has.
The stream of an upgraded request is logged after the SETTINGS. -/
def greet (preface : Bytes) : OnSystem Unit :=
  catching
    (do
      check (preface ≠ clientPreface) .exception
      onConn (Conn.writeFrame (settingsFrame false))
      let s ← get
      match s.streams 1 with
      | none => pure ()
      | some self => onConn (Conn.emit (.opened 1 self.window.size)))
    handleError

/-- A length over the limit, found in the header of a frame. -/
def refuseLength : OnSystem Unit :=
  catching (catching (raise (.connectionError .frameSizeError none)) handleStreamError) handleError

end System

/-- A connection and the read buffer of its socket. -/
structure Endpoint where
  reading : Reading
  buffer : Bytes
  system : System

namespace Endpoint

/-- Bytes arrive, the bytes that `_conn_loop` waits for are handed to it, or
anything happens that is not the arrival of a frame. -/
inductive Action
  | arrive (chunk : Bytes)
  | read (later : Bool)
  | call (action : System.Action)
  deriving DecidableEq, Repr

/-- `_conn_loop` from one `read_bytes` to the next. -/
def read (e : Endpoint) (later : Bool) : Endpoint :=
  if e.system.loop ≠ .running then e
  else
    match e.reading with
    | .preface =>
      if e.buffer.length < clientPreface.length then e
      else
        let system := ((System.greet (e.buffer.take clientPreface.length)).run e.system).2
        ⟨if system.loop = .running then .header else .preface, e.buffer.drop clientPreface.length, system⟩
    | .header =>
      match FrameHeader.unpack (e.buffer.take 9) with
      | none => e
      | some header =>
        if header.dataLen > e.system.conn.setting .maxFrameSize then
          ⟨.header, e.buffer.drop 9, (System.refuseLength.run e.system).2⟩
        else ⟨.payload header, e.buffer.drop 9, e.system⟩
    | .payload header =>
      if e.buffer.length < header.dataLen then e
      else ⟨.header, e.buffer.drop header.dataLen,
        e.system.step (.receive (header.frame (e.buffer.take header.dataLen)) later)⟩

/-- While a server waits for the preface, `switch_protocols` may set up its stream;
the calls on that are recorded until the SETTINGS are written. -/
def call (e : Endpoint) : System.Action → Endpoint
  | .receive _ _ => e
  | .disconnect => { e with system := e.system.step .disconnect }
  | .upgrade method path =>
    let system := e.system.step (.upgrade method path)
    { e with system := if e.reading = .preface then system.unlogged else system }
  | a => if e.reading = .preface then e else { e with system := e.system.step a }

def step (e : Endpoint) : Action → Endpoint
  | .arrive chunk => { e with buffer := e.buffer ++ chunk }
  | .read later => e.read later
  | .call a => e.call a

def run (e : Endpoint) (actions : List Action) : Endpoint := actions.foldl step e

/-- A client sends the preface and its SETTINGS at once. -/
def start (isClient : Bool) (params : Params) : Endpoint where
  reading := if isClient then .header else .preface
  buffer := []
  system :=
    if isClient then System.start true params else (System.start false params).unlogged

/-- The upgraded request that has become stream 1. -/
def request (e : Endpoint) : Option (Option Bytes × Option Bytes) :=
  (e.system.streams 1).bind (·.requestStartLine)

/-- What has been written to the socket. -/
def sent (e : Endpoint) : Bytes :=
  (if e.system.conn.isClient then clientPreface else []) ++ sentBytes e.system.conn.log

end Endpoint

/-- Frames one after another, where each may change the limit on the next. -/
def takeFrame (maxFrameSize : Nat) (stream : Bytes) : Option (Frame × Bytes) :=
  (Frame.read stream).filter fun read => read.1.data.length ≤ maxFrameSize

def Frame.nextLimit (maxFrameSize : Nat) (frame : Frame) : Nat :=
  if frame.streamId = 0 ∧ frame.type = .settings ∧ frame.has .ack = false then
    announced .maxFrameSize maxFrameSize frame.data
  else maxFrameSize

section

variable {limit : Nat} {stream rest : Bytes} {frame : Frame} {header : FrameHeader}

theorem FrameHeader.unpack_eq_none {data : Bytes} : unpack data = none ↔ data.length ≠ 9 := by
  rw [unpack.eq_def]
  split
  · simp
  · rename_i h
    simp only [true_iff]
    intro hlength
    match data, hlength with
    | [b₀, b₁, b₂, typ, flags, b₅, b₆, b₇, b₈], _ => exact h _ _ _ _ _ _ _ _ _ rfl

theorem FrameHeader.unpack_length {data : Bytes} (h : unpack data = some header) : data.length = 9 := by
  by_contra hne
  cases (unpack_eq_none.mpr hne).symm.trans h

theorem FrameHeader.exists_frame (header : FrameHeader) : ∃ frame : Frame, frame.data.length = header.dataLen :=
  ⟨header.frame (List.replicate header.dataLen 0), List.length_replicate ..⟩

theorem exists_nine (h : 9 ≤ stream.length) : ∃ b₀ b₁ b₂ typ flags b₅ b₆ b₇ b₈ data,
    stream = b₀ :: b₁ :: b₂ :: typ :: flags :: b₅ :: b₆ :: b₇ :: b₈ :: data := by
  match stream, h with
  | b₀ :: b₁ :: b₂ :: typ :: flags :: b₅ :: b₆ :: b₇ :: b₈ :: data, _ => exact ⟨_, _, _, _, _, _, _, _, _, data, rfl⟩

/-- A frame is a header and so many bytes as it says. -/
theorem Frame.read_eq : Frame.read stream = (FrameHeader.unpack (stream.take 9)).bind fun header =>
    if (stream.drop 9).length < header.dataLen then none
    else some (header.frame ((stream.drop 9).take header.dataLen), (stream.drop 9).drop header.dataLen) := by
  rw [Frame.read.eq_def]
  split
  · rfl
  · rename_i h
    have hnone : FrameHeader.unpack (stream.take 9) = none := by
      rw [FrameHeader.unpack_eq_none, List.length_take]
      intro hlength
      obtain ⟨_, _, _, _, _, _, _, _, _, _, heq⟩ := @exists_nine stream (by omega)
      exact h _ _ _ _ _ _ _ _ _ _ heq
    rw [hnone]
    rfl

theorem takeFrame_eq_some : takeFrame limit stream = some (frame, rest) ↔
    ∃ header, FrameHeader.unpack (stream.take 9) = some header ∧ header.dataLen ≤ limit ∧
      header.dataLen ≤ (stream.drop 9).length ∧ frame = header.frame ((stream.drop 9).take header.dataLen) ∧
      rest = (stream.drop 9).drop header.dataLen := by
  rw [takeFrame, Frame.read_eq]
  cases FrameHeader.unpack (stream.take 9) with
  | none => simp
  | some header =>
    simp only [Option.bind_some, Option.some.injEq, exists_eq_left']
    by_cases hroom : (stream.drop 9).length < header.dataLen
    · rw [if_pos hroom]
      simp only [Option.filter_none, reduceCtorEq, false_iff]
      omega
    · have hlength : (header.frame ((stream.drop 9).take header.dataLen)).data.length = header.dataLen := by
        rw [FrameHeader.frame, List.length_take]
        omega
      rw [if_neg hroom, Option.filter_some, hlength]
      by_cases hlimit : header.dataLen ≤ limit
      · rw [if_pos (decide_eq_true hlimit), Option.some.injEq, Prod.mk.injEq, eq_comm, @eq_comm _ _ rest]
        exact ⟨fun h => ⟨hlimit, not_lt.mp hroom, h⟩, fun h => h.2.2⟩
      · rw [if_neg (by simpa using hlimit)]
        simp [hlimit]

end

/-- The frames of a stream of bytes. -/
def frameReader : Framing.Reader Nat UInt8 Frame where
  take := takeFrame
  next := Frame.nextLimit
  shorter h := by
    obtain ⟨header, hheader, -, hroom, -, rfl⟩ := takeFrame_eq_some.mp h
    have hnine := FrameHeader.unpack_length hheader
    simp only [List.length_take, List.length_drop] at hnine hroom ⊢
    omega
  stable more h := by
    obtain ⟨header, hheader, hlimit, hroom, rfl, rfl⟩ := takeFrame_eq_some.mp h
    have hnine := FrameHeader.unpack_length hheader
    rw [List.length_take] at hnine
    refine takeFrame_eq_some.mpr ⟨header, ?_, hlimit, ?_, ?_, ?_⟩
    · rw [List.take_append_of_le_length (by omega), hheader]
    · rw [List.length_drop, List.length_append]
      rw [List.length_drop] at hroom
      omega
    · rw [List.drop_append_of_le_length (by omega), List.take_append_of_le_length hroom]
    · rw [List.drop_append_of_le_length (by omega), List.drop_append_of_le_length hroom]

/-- The frames that an endpoint finds in the bytes that have arrived. -/
def framesIn (isClient : Bool) (arrived : Bytes) : List Frame :=
  if isClient then frameReader.items Setting.maxFrameSize.default arrived
  else if arrived.take clientPreface.length = clientPreface then
    frameReader.items Setting.maxFrameSize.default (arrived.drop clientPreface.length)
  else []

namespace Endpoint

/-- What comes before the frames. -/
def greeting (isClient : Bool) : Bytes := if isClient then [] else clientPreface

/-- What the loop has still to read, given what it has in its hands. -/
def Ahead (e : Endpoint) (rest : Bytes) : Prop :=
  match e.reading with
  | .preface => False
  | .header => rest = e.buffer
  | .payload header => ∃ bytes, FrameHeader.unpack bytes = some header ∧
      header.dataLen ≤ e.system.conn.setting .maxFrameSize ∧ rest = bytes ++ e.buffer

/-- Where an endpoint is with the bytes that have arrived so far. -/
inductive Tracks (isClient : Bool) (params : Params) : Endpoint → Bytes → Prop
  | waiting {e : Endpoint} {arrived : Bytes} (closed : Bool) (loop : ConnLoop) (hserver : isClient = false)
      (hreading : e.reading = .preface)
      (hsystem : e.system = (System.startUpgraded params e.request).unlogged.withLoop closed loop)
      (hclosed : closed = false → loop = .running) (hbuffer : loop = .running → e.buffer = arrived) :
    Tracks isClient params e arrived
  | greeted {e : Endpoint} {stream : Bytes} (rest : Bytes)
      (actions : List System.Action) (hreading : e.reading ≠ .preface)
      (hrun : e.system = (System.start isClient params).run actions)
      (htakes : frameReader.Takes Setting.maxFrameSize.default stream (receivedFrames e.system.conn.log) rest)
      (hahead : e.system.loop = .running → e.Ahead rest ∧ e.system.conn.setting .maxFrameSize =
        (receivedFrames e.system.conn.log).foldl Frame.nextLimit Setting.maxFrameSize.default) :
      Tracks isClient params e (greeting isClient ++ stream)

def Action.bytes : Action → Bytes
  | .arrive chunk => chunk
  | _ => []

/-- The bytes that arrive in a run. -/
def arrived (actions : List Action) : Bytes := actions.flatMap Action.bytes

end Endpoint

namespace System

variable {s : System} {frame : Frame}

/-- A length over the limit is refused before the payload has arrived. -/
theorem step_oversized (hloop : s.loop = .running) (hsize : s.conn.setting .maxFrameSize < frame.data.length)
    (later : Bool) :
    s.step (.receive frame later) = (refuseLength.run s).2 := by
  have hread : (onConn (Conn.readFrame frame)).run s = (.error (.connectionError .frameSizeError none), s) := by
    simp only [onConn, run_zoom, Conn.readFrame, run_get_bind, check, when, gt_iff_lt, if_pos hsize]
    rfl
  have hrun : (do
      onConn (Conn.readFrame frame)
      dispatch frame later : OnSystem Unit).run s = (raise (.connectionError .frameSizeError none)).run s :=
    bind_error hread _
  simp only [step, perform, run_get_bind, when, if_pos hloop, receive, refuseLength, catching, hrun]

theorem step_nextLimit {later : Bool} (hw : s.WellFormed)
    (hrunning : (s.step (.receive frame later)).loop = .running) :
    (s.step (.receive frame later)).conn.setting .maxFrameSize =
      frame.nextLimit (s.conn.setting .maxFrameSize) := by
  have happlies : s.Applies frame ↔ frame.streamId = 0 ∧ frame.type = .settings ∧ frame.has .ack = false :=
    and_iff_right (Reads.of_running hrunning)
  rw [step_setting hw, settingAfter, Frame.nextLimit]
  exact if_congr happlies rfl rfl

/-- The stream that `switch_protocols` sets up. -/
def upgradedStream (s : System) (method path : Option Bytes) : Stream :=
  { Stream.new s.conn 1 false with requestStartLine := some (method, path) }

theorem step_upgrade {method path : Option Bytes} (hserver : s.conn.isClient = false) (hself : s.streams 1 = none) :
    s.step (.upgrade method path) = s.withStream (s.upgradedStream method path) := by
  rw [step, perform, run_get_bind, when, if_pos ⟨hserver, hself⟩]
  rfl

theorem step_upgrade_again {method path : Option Bytes} (hself : s.streams 1 ≠ none) :
    s.step (.upgrade method path) = s := by
  rw [step, perform, run_get_bind, when, if_neg fun h => hself h.2]
  rfl

section

variable {params : Params} {request : Option (Option Bytes × Option Bytes)}

theorem startUpgraded_some (params : Params) (method path : Option Bytes) : startUpgraded params (some (method, path)) =
    (start false params).withStream ((start false params).upgradedStream method path) := step_upgrade rfl rfl

theorem startUpgraded_one : (startUpgraded params request).streams 1 =
    request.map fun request => (start false params).upgradedStream request.1 request.2 := by
  cases request with
  | none => rfl
  | some request =>
    rw [startUpgraded_some]
    exact withStream_self

theorem startUpgraded_other {i : Nat} (hi : i ≠ 1) : (startUpgraded params request).streams i = none := by
  cases request with
  | none => rfl
  | some request =>
    rw [startUpgraded_some]
    exact withStream_of_ne hi

theorem startUpgraded_isClient : (startUpgraded params request).conn.isClient = false := run_isClient ..

theorem startUpgraded_conn : receivedFrames (startUpgraded params request).conn.log = [] ∧
    (startUpgraded params request).conn.settings = [] := by
  cases request with
  | none => exact ⟨rfl, rfl⟩
  | some request =>
    rw [startUpgraded_some]
    exact ⟨rfl, rfl⟩

theorem startUpgraded_upgradedStream {method path : Option Bytes} :
    (startUpgraded params request).upgradedStream method path = (start false params).upgradedStream method path := by
  have hadded (s : System) (self : Stream) : (s.withStream self).upgradedStream method path =
    s.upgradedStream method path := rfl
  cases request with
  | none => rfl
  | some request => rw [startUpgraded_some, hadded]

theorem startUpgraded_step (method path : Option Bytes) :
    (startUpgraded params request).step (.upgrade method path) =
      startUpgraded params (request.or (some (method, path))) := by
  cases request with
  | none => rfl
  | some request =>
    rw [step_upgrade_again, Option.some_or]
    rw [startUpgraded_one]
    exact Option.some_ne_none _

/-- Nothing but the stream comes of the upgrade before the SETTINGS. -/
theorem upgrade_unlogged (hserver : s.conn.isClient = false)
    (closed : Bool) (loop : ConnLoop) (method path : Option Bytes) :
    ((s.unlogged.withLoop closed loop).step (.upgrade method path)).unlogged =
      (s.step (.upgrade method path)).unlogged.withLoop closed loop := by
  by_cases hself : s.streams 1 = none
  · rw [step_upgrade hserver hself]
    exact congrArg unlogged (step_upgrade (s := s.unlogged.withLoop closed loop) hserver hself)
  · rw [step_upgrade_again hself]
    exact congrArg unlogged (step_upgrade_again (s := s.unlogged.withLoop closed loop) hself)

end

/-- The history of a server that has sent its SETTINGS. -/
def greeted (s : System) : System :=
  { s with conn := { s.conn with
      log := s.conn.log ++ .wrote (settingsFrame false) ::
        (s.streams 1).toList.map fun self => .opened 1 self.window.size } }

/-- What comes of the bytes that should be the preface. -/
theorem greet_run (preface : Bytes) (s : System) : ((greet preface).run s).2 =
    if preface ≠ clientPreface ∨ s.conn.closed = true then s.withLoop true .ended else s.greeted := by
  let opening : OnSystem Unit := do
    let s ← get
    match s.streams 1 with
    | none => pure ()
    | some self => onConn (Conn.emit (.opened 1 self.window.size))
  by_cases hpreface : preface = clientPreface
  · have hcheck : (greet preface).run s = (catching (do
        onConn (Conn.writeFrame (settingsFrame false))
        opening) handleError).run s := by
      simp only [greet, catching, check, when, ne_eq, hpreface, not_true, if_false]
      rfl
    have hwrite : (onConn (Conn.writeFrame (settingsFrame false))).run s =
        if s.conn.closed = true then (.error .streamClosedError, s) else
          (.ok (), s.logged (.wrote (settingsFrame false))) := by
      simp only [onConn, run_zoom, Conn.writeFrame]
      rw [run_check_of_neg (by decide), run_get_bind]
      cases hclosed : s.conn.closed with
      | true => rfl
      | false => rfl
    rw [hcheck]
    cases hclosed : s.conn.closed with
    | true =>
      rw [hclosed, if_pos rfl] at hwrite
      simp [catching, bind_error hwrite, handleError, setLoop, withLoop, ← hclosed]
    | false =>
      rw [hclosed, if_neg Bool.false_ne_true] at hwrite
      have hopening : opening.run (s.logged (.wrote (settingsFrame false))) = (.ok (), s.greeted) := by
        simp only [opening, run_get_bind]
        change Prog.run (match s.streams 1 with
          | none => pure ()
          | some self => onConn (Conn.emit (.opened 1 self.window.size))) _ = _
        cases hself : s.streams 1 with
        | none => simp [greeted, hself, logged]
        | some self => simp [greeted, hself, logged, onConn, Conn.emit]
      simp only [catching, bind_ok hwrite, hopening]
      rw [if_neg (by simp [hpreface])]
  · have hcheck : (greet preface).run s = (handleError .exception).run s := by
      simp only [greet, catching, check, when, ne_eq, hpreface, not_false_eq_true, if_true]
      rfl
    rw [hcheck, if_pos (.inl hpreface)]
    rfl

theorem greeted_start (params : Params) (request : Option (Option Bytes × Option Bytes)) :
    ((startUpgraded params request).unlogged.withLoop false .running).greeted = startUpgraded params request := by
  have hlogged {s : System} (hopen : s.conn.closed = false) (hloop : s.loop = .running)
      (hlog : s.conn.log = .wrote (settingsFrame false) ::
        (s.streams 1).toList.map fun self => .opened 1 self.window.size) :
      (s.unlogged.withLoop false .running).greeted = s := by
    rcases s with ⟨⟨⟩⟩
    simp_all [unlogged, withLoop, greeted]
  cases request with
  | none => exact hlogged rfl rfl rfl
  | some request =>
    rw [startUpgraded_some]
    exact hlogged rfl rfl rfl

theorem disconnect_withLoop (s : System) (closed : Bool) (loop : ConnLoop) :
    (s.withLoop closed loop).step .disconnect = s.withLoop true loop := rfl

end System

namespace Endpoint

variable {isClient : Bool} {params : Params} {e : Endpoint} {bytes : Bytes}

theorem wellFormed_run (isClient : Bool) (params : Params) (actions : List System.Action) :
    ((System.start isClient params).run actions).WellFormed := System.WellFormed.run (.start isClient params) actions

theorem request_eq {request : Option (Option Bytes × Option Bytes)} {closed : Bool} {loop : ConnLoop}
    (h : e.system = (System.startUpgraded params request).unlogged.withLoop closed loop) : e.request = request := by
  have hstreams : e.system.streams 1 = (System.startUpgraded params request).streams 1 :=
    congrArg (fun s => s.streams 1) h
  rw [Endpoint.request, hstreams, System.startUpgraded_one]
  cases request <;> rfl

theorem Tracks.waits (request : Option (Option Bytes × Option Bytes)) (closed : Bool) (loop : ConnLoop)
    (hserver : isClient = false) (hreading : e.reading = .preface)
    (hsystem : e.system = (System.startUpgraded params request).unlogged.withLoop closed loop)
    (hclosed : closed = false → loop = .running) (hbuffer : loop = .running → e.buffer = bytes) :
    Tracks isClient params e bytes :=
  .waiting closed loop hserver hreading ((request_eq hsystem).symm ▸ hsystem) hclosed hbuffer

theorem Tracks.start (isClient : Bool) (params : Params) : Tracks isClient params (start isClient params) [] := by
  cases isClient with
  | false =>
    have hloop {s : System} (hopen : s.conn.closed = false) (hloop : s.loop = .running) :
        s.unlogged = s.unlogged.withLoop false .running := by
      rw [← hopen, ← hloop]
      rfl
    exact .waits none false .running rfl rfl (hloop rfl rfl) (fun _ => rfl) fun _ => rfl
  | true =>
      exact @Tracks.greeted true params (Endpoint.start true params)
        [] [] [] Reading.header_ne rfl .nil fun _ => ⟨rfl, rfl⟩

theorem Ahead.arrive {rest : Bytes} (h : e.Ahead rest) (chunk : Bytes) :
    Ahead { e with buffer := e.buffer ++ chunk } (rest ++ chunk) := by
  rw [Ahead] at h ⊢
  cases hreading : e.reading with
  | preface =>
    rw [hreading] at h
    exact h
  | header =>
    rw [hreading] at h
    exact congrArg (· ++ chunk) h
  | payload header =>
    rw [hreading] at h
    obtain ⟨bytes, hheader, hlimit, rfl⟩ := h
    exact ⟨bytes, hheader, hlimit, List.append_assoc ..⟩

/-- What the loop makes of the bytes at hand, once the preface is behind it. -/
inductive ReadsOn (e : Endpoint) (later : Bool) : Endpoint → Prop
  | waits : ReadsOn e later e
  | header {header : FrameHeader} (hat : e.reading = .header)
      (hheader : FrameHeader.unpack (e.buffer.take 9) = some header)
      (hfits : header.dataLen ≤ e.system.conn.setting .maxFrameSize) :
    ReadsOn e later ⟨.payload header, e.buffer.drop 9, e.system⟩
  | tooLong {header : FrameHeader} {system : System} (hat : e.reading = .header)
      (hheader : FrameHeader.unpack (e.buffer.take 9) = some header)
      (hlong : e.system.conn.setting .maxFrameSize < header.dataLen)
      (hstep : ∀ frame : Frame, frame.data.length = header.dataLen →
        e.system.step (.receive frame later) = system) :
    ReadsOn e later ⟨.header, e.buffer.drop 9, system⟩
  | payload {header : FrameHeader} (hat : e.reading = .payload header)
      (hroom : header.dataLen ≤ e.buffer.length) :
    ReadsOn e later ⟨.header, e.buffer.drop header.dataLen,
      e.system.step (.receive (header.frame (e.buffer.take header.dataLen)) later)⟩

theorem read_cases (hloop : e.system.loop = .running) (hreading : e.reading ≠ .preface) (later : Bool) :
    e.ReadsOn later (e.read later) := by
  rw [read, if_neg (not_not.mpr hloop)]
  cases hat : e.reading with
  | preface => exact absurd hat hreading
  | header =>
    dsimp only
    cases hheader : FrameHeader.unpack (e.buffer.take 9) with
    | none => exact .waits
    | some header =>
      by_cases hlong : e.system.conn.setting .maxFrameSize < header.dataLen
      · simp only [gt_iff_lt, if_pos hlong]
        exact .tooLong hat hheader hlong fun frame hlength => System.step_oversized hloop (hlength ▸ hlong) later
      · simp only [gt_iff_lt, if_neg hlong]
        exact .header hat hheader (not_lt.mp hlong)
  | payload header =>
    by_cases hroom : e.buffer.length < header.dataLen
    · simp only [if_pos hroom]
      exact .waits
    · simp only [if_neg hroom]
      exact .payload hat (not_lt.mp hroom)

/-- The frame at hand is the first of the bytes that are still to read. -/
theorem Ahead.takes_frame {rest : Bytes} {header : FrameHeader} (h : e.Ahead rest) (hat : e.reading = .payload header)
    (hroom : header.dataLen ≤ e.buffer.length) : takeFrame (e.system.conn.setting .maxFrameSize) rest =
      some (header.frame (e.buffer.take header.dataLen), e.buffer.drop header.dataLen) := by
  rw [Ahead, hat] at h
  obtain ⟨nine, hheader, hfits, rfl⟩ := h
  have hnine := FrameHeader.unpack_length hheader
  refine takeFrame_eq_some.mpr ⟨header, ?_, hfits, ?_, ?_, ?_⟩
  · rwa [List.take_left' hnine]
  · rwa [List.drop_left' hnine]
  · rw [List.drop_left' hnine]
  · rw [List.drop_left' hnine]

theorem Ahead.fits {rest : Bytes} {header : FrameHeader} (h : e.Ahead rest) (hat : e.reading = .payload header) :
    header.dataLen ≤ e.system.conn.setting .maxFrameSize := by
  rw [Ahead, hat] at h
  obtain ⟨-, -, hfits, -⟩ := h
  exact hfits

theorem Tracks.arrive (h : Tracks isClient params e bytes) (chunk : Bytes) :
    Tracks isClient params { e with buffer := e.buffer ++ chunk } (bytes ++ chunk) := by
  cases h with
  | waiting closed loop hserver hreading hsystem hclosed hbuffer =>
    exact .waiting closed loop hserver hreading hsystem hclosed fun hloop => congrArg (· ++ chunk) (hbuffer hloop)
  | greeted rest actions hreading hrun htakes hahead =>
    rw [List.append_assoc]
    exact .greeted _ actions hreading hrun (htakes.arrive chunk) fun hloop =>
      ⟨(hahead hloop).1.arrive chunk, (hahead hloop).2⟩

/-- An upgrade while the server waits. -/
theorem call_upgrade {closed : Bool} {loop : ConnLoop} (hreading : e.reading = .preface)
    (hsystem : e.system = (System.startUpgraded params e.request).unlogged.withLoop closed loop)
    (method path : Option Bytes) : (e.call (.upgrade method path)).system =
      (System.startUpgraded params (e.request.or (some (method, path)))).unlogged.withLoop closed loop := by
  rw [Endpoint.call, if_pos hreading, ← System.startUpgraded_step,
    ← System.upgrade_unlogged System.startUpgraded_isClient, ← hsystem]

/-- A step of the system that reads nothing. -/
theorem Tracks.call (h : Tracks isClient params e bytes) (a : System.Action) :
    Tracks isClient params (e.call a) bytes := by
  by_cases hreceive : ∃ frame later, a = .receive frame later
  · obtain ⟨frame, later, rfl⟩ := hreceive
    exact h
  have hlocal : ∀ frame later, a ≠ .receive frame later := fun frame later ha => hreceive ⟨frame, later, ha⟩
  cases h with
  | waiting closed loop hserver hreading hsystem hclosed hbuffer =>
    cases a with
    | disconnect =>
      refine .waits e.request true loop hserver hreading ?_ nofun hbuffer
      rw [Endpoint.call, hsystem, System.disconnect_withLoop]
    | upgrade method path =>
      exact .waits (e.request.or (some (method, path))) closed loop hserver hreading
        (call_upgrade hreading hsystem method path) hclosed hbuffer
    | _ =>
      simp only [Endpoint.call, if_pos hreading]
      exact .waiting closed loop hserver hreading hsystem hclosed hbuffer
  | greeted rest actions hreading hrun htakes hahead =>
    have hcall : e.call a = { e with system := e.system.step a } := by
      cases a with
      | receive frame later => exact absurd rfl (hlocal frame later)
      | disconnect => rfl
      | _ => simp only [Endpoint.call, if_neg hreading]
    have hw : e.system.WellFormed := hrun ▸ wellFormed_run isClient params actions
    have hreceived : receivedFrames (e.system.step a).conn.log = receivedFrames e.system.conn.log := by
      rw [System.step_received hw, System.reads_of_not_receive hlocal, List.append_nil]
    rw [hcall]
    refine .greeted rest (actions ++ [a]) hreading ?_ ?_ fun hloop => ?_
    · rw [System.run, List.foldl_append, hrun]
      rfl
    · rwa [hreceived]
    · obtain ⟨hrest, hlimit⟩ := hahead (System.running_of_step hloop)
      have hsetting : (e.system.step a).conn.setting .maxFrameSize = e.system.conn.setting .maxFrameSize := by
        rw [System.step_setting hw, System.settingAfter_of_not_receive hlocal]
      refine ⟨?_, by rw [hreceived, hsetting, hlimit]⟩
      rw [Ahead] at hrest ⊢
      dsimp only
      rw [hsetting]
      exact hrest

/-- The server has all the bytes that should be the preface. -/
theorem Tracks.greet {closed : Bool} (hserver : isClient = false)
    (hsystem : e.system = (System.startUpgraded params e.request).unlogged.withLoop closed .running) :
    let system := ((System.greet (bytes.take clientPreface.length)).run e.system).2
    Tracks isClient params
      ⟨if system.loop = .running then .header else .preface, bytes.drop clientPreface.length, system⟩ bytes := by
  subst hserver
  intro system
  have hclosed : e.system.conn.closed = closed := congrArg (fun s => s.conn.closed) hsystem
  have hgreet := System.greet_run (bytes.take clientPreface.length) e.system
  rw [hclosed] at hgreet
  by_cases hbad : bytes.take clientPreface.length ≠ clientPreface ∨ closed = true
  · rw [if_pos hbad] at hgreet
    have hended : system = (System.startUpgraded params e.request).unlogged.withLoop true .ended := by
      rw [show system = _ from hgreet, hsystem]
      rfl
    rw [hended]
    exact .waits e.request true .ended rfl rfl rfl nofun nofun
  · rw [if_neg hbad] at hgreet
    obtain ⟨hpreface, hopen⟩ := not_or.mp hbad
    rw [not_not] at hpreface
    rw [Bool.eq_false_iff.mpr hopen] at hsystem
    have hstart : system = System.startUpgraded params e.request := by
      rw [show system = _ from hgreet, hsystem, System.greeted_start]
    have hsplit : bytes = greeting false ++ bytes.drop clientPreface.length := by
      conv_lhs => rw [← List.take_append_drop clientPreface.length bytes, hpreface]
      rfl
    have hloop : system.loop = .running := by
      rw [show system = _ from hgreet, hsystem]
      rfl
    rw [if_pos hloop, hstart]
    have hgreeted : Tracks false params ⟨.header, bytes.drop clientPreface.length,
      System.startUpgraded params e.request⟩
        (greeting false ++ bytes.drop clientPreface.length) := by
      obtain ⟨hreceived, hsettings⟩ := @System.startUpgraded_conn params e.request
      refine .greeted _ _ Reading.header_ne rfl ?_ fun _ => ⟨rfl, ?_⟩
      · rw [hreceived]
        exact .nil
      · rw [hreceived, Conn.setting, hsettings]
        rfl
    exact hsplit ▸ hgreeted

theorem Tracks.read (h : Tracks isClient params e bytes) (later : Bool) :
    Tracks isClient params (e.read later) bytes := by
  by_cases hloop : e.system.loop = .running
  swap
  · rw [Endpoint.read, if_pos hloop]
    exact h
  cases h with
  | waiting closed loop hserver hreading hsystem hclosed hbuffer =>
    rw [Endpoint.read, if_neg (not_not.mpr hloop), hreading]
    dsimp only
    have hrunning : loop = .running := by
      rw [hsystem] at hloop
      exact hloop
    subst hrunning
    split
    · exact .waiting closed .running hserver hreading hsystem hclosed hbuffer
    · rw [hbuffer rfl]
      exact Tracks.greet hserver hsystem
  | greeted rest actions hreading hrun htakes hahead =>
    have hw : e.system.WellFormed := hrun ▸ wellFormed_run isClient params actions
    obtain ⟨hrest, hlimit⟩ := hahead hloop
    have hsnoc (a : System.Action) : e.system.step a = (System.start isClient params).run (actions ++ [a]) := by
      rw [System.run, List.foldl_append, hrun]
      rfl
    have hread := read_cases hloop hreading later
    generalize e.read later = e' at hread ⊢
    cases hread with
    | waits => exact .greeted rest actions hreading hrun htakes hahead
    | header hat hheader hfits =>
      rw [Ahead, hat] at hrest
      refine .greeted rest actions (Reading.payload_ne _) hrun htakes fun _ => ⟨⟨_, hheader, hfits, ?_⟩, hlimit⟩
      rw [hrest, List.take_append_drop]
    | @tooLong header _ hat hheader hlong hstep =>
      obtain ⟨frame, hlength⟩ := header.exists_frame
      obtain rfl := hstep frame hlength
      have hreads : e.system.reads (.receive frame later) = [] := if_neg fun h => absurd h.2 (by omega)
      have hreceived := System.step_received hw (.receive frame later)
      rw [hreads, List.append_nil] at hreceived
      refine .greeted rest _ Reading.header_ne (hsnoc _) ?_ fun hrunning => ?_
      · rwa [hreceived]
      · have hlist := (System.Reads.of_running hrunning).reads later
        rw [hreads] at hlist
        cases hlist
    | @payload header hat hroom =>
      have htake := hrest.takes_frame hat hroom
      have hlength : (header.frame (e.buffer.take header.dataLen)).data.length = header.dataLen :=
        List.length_take_of_le hroom
      generalize header.frame (e.buffer.take header.dataLen) = frame at htake hlength ⊢
      have hreads : e.system.reads (.receive frame later) = [frame] := if_pos ⟨hloop, hlength ▸ hrest.fits hat⟩
      have hreceived := System.step_received hw (.receive frame later)
      rw [hreads] at hreceived
      refine .greeted _ _ Reading.header_ne (hsnoc _) ?_ fun hrunning => ⟨rfl, ?_⟩
      · rw [hreceived]
        refine htakes.snoc ?_
        change takeFrame (List.foldl Frame.nextLimit _ _) _ = _
        rw [← hlimit, htake]
      · rw [System.step_nextLimit hw hrunning, hreceived, List.foldl_concat, ← hlimit]

theorem Tracks.run (isClient : Bool) (params : Params) (actions : List Action) :
    Tracks isClient params ((Endpoint.start isClient params).run actions) (arrived actions) := by
  induction actions using List.reverseRecOn with
  | nil => exact .start isClient params
  | append_singleton actions a ih =>
    have hrun : (Endpoint.start isClient params).run (actions ++ [a]) =
        ((Endpoint.start isClient params).run actions).step a := List.foldl_concat ..
    have harrived : arrived (actions ++ [a]) = arrived actions ++ a.bytes := by simp [arrived]
    rw [hrun, harrived]
    cases a with
    | arrive chunk => exact ih.arrive chunk
    | read later => simpa [Action.bytes, step] using ih.read later
    | call a => simpa [Action.bytes, step] using ih.call a

/-- A loop that waits for more bytes has taken every frame there is. -/
theorem Ahead.blocked {rest : Bytes} {later : Bool} (h : e.Ahead rest) (hloop : e.system.loop = .running)
    (hread : e.read later = e) : takeFrame (e.system.conn.setting .maxFrameSize) rest = none := by
  rw [Endpoint.read, if_neg (not_not.mpr hloop)] at hread
  by_contra hne
  obtain ⟨⟨frame, rest'⟩, htake⟩ := Option.ne_none_iff_exists'.mp hne
  obtain ⟨header, hheader, hlimit, hroom, -, -⟩ := takeFrame_eq_some.mp htake
  rw [Ahead] at h
  cases hreading : e.reading with
  | preface =>
    rw [hreading] at h
    exact h
  | header =>
    rw [hreading] at h hread
    dsimp only at h hread
    rw [← h, hheader] at hread
    dsimp only at hread
    rw [if_neg (not_lt.mpr hlimit)] at hread
    have hstuck := congrArg Endpoint.reading hread
    rw [hreading] at hstuck
    cases hstuck
  | payload expected =>
    rw [hreading] at h hread
    obtain ⟨nine, hexpected, -, rfl⟩ := h
    have hnine := FrameHeader.unpack_length hexpected
    rw [List.take_left' hnine, hexpected, Option.some.injEq] at hheader
    rw [List.drop_left' hnine, ← hheader] at hroom
    dsimp only at hread
    rw [if_neg (not_lt.mpr hroom)] at hread
    have hstuck := congrArg Endpoint.reading hread
    rw [hreading] at hstuck
    cases hstuck

/-- A loop that waits for the preface has fewer bytes. -/
theorem short_of_blocked {later : Bool} (hreading : e.reading = .preface) (hloop : e.system.loop = .running)
    (hread : e.read later = e) : e.buffer.length < clientPreface.length := by
  by_contra hlength
  rw [Endpoint.read, if_neg (not_not.mpr hloop), hreading] at hread
  dsimp only at hread
  rw [if_neg hlength] at hread
  have hshort := congrArg (fun e => e.buffer.length) hread
  have hpos : 0 < clientPreface.length := by decide
  dsimp only at hshort
  rw [List.length_drop] at hshort
  omega

/-- The frames that `_conn_loop` reads are those that the bytes on its socket hold,
however these arrive and whatever happens in between: as long as it runs, all of
them as soon as it has to wait. -/
theorem frames_of_bytes (isClient : Bool) (params : Params) (actions : List Action) :
    let e := (Endpoint.start isClient params).run actions
    receivedFrames e.system.conn.log <+: framesIn isClient (arrived actions) ∧
      ∀ later, e.system.loop = .running → e.read later = e →
        receivedFrames e.system.conn.log = framesIn isClient (arrived actions) := by
  intro e
  have htracks : Tracks isClient params e (arrived actions) := .run isClient params actions
  generalize arrived actions = bytes at htracks
  cases htracks with
  | waiting closed loop hserver hreading hsystem hclosed hbuffer =>
    have hnone : receivedFrames e.system.conn.log = [] := by
      rw [hsystem]
      rfl
    rw [hnone]
    refine ⟨List.nil_prefix, fun later hloop hread => ?_⟩
    have hrunning : loop = .running := by
      rw [hsystem] at hloop
      exact hloop
    have hlength := short_of_blocked hreading hloop hread
    rw [hbuffer hrunning] at hlength
    rw [framesIn, hserver, if_neg Bool.false_ne_true]
    refine (if_neg fun hpreface => ?_).symm
    have := congrArg List.length hpreface
    rw [List.length_take] at this
    omega
  | @greeted stream rest as hreading hrun htakes hahead =>
    have hframes : framesIn isClient (greeting isClient ++ stream) =
        frameReader.items Setting.maxFrameSize.default stream := by
      cases isClient with
      | true => rfl
      | false =>
          rw [framesIn, greeting, if_neg Bool.false_ne_true, if_neg Bool.false_ne_true, List.take_left, if_pos rfl,
          List.drop_left]
    rw [hframes]
    refine ⟨htakes.prefix_items, fun later hloop hread => ?_⟩
    obtain ⟨hrest, hlimit⟩ := hahead hloop
    exact (htakes.all_taken (hlimit ▸ hrest.blocked hloop hread)).symm

/-- Until a server has the preface, it has sent nothing, and no stream but that of
an upgraded request, as `switch_protocols` has left it; it waits for as long as
bytes are missing. After that it takes the steps of the system. -/
theorem serves_after_preface (isClient : Bool) (params : Params) (actions : List Action) :
    let e := (Endpoint.start isClient params).run actions
    if e.reading = .preface then e.system.conn.log = [] ∧
      (∀ i self, e.system.streams i = some self → i = 1 ∧ ∃ method path, self = e.system.upgradedStream method path) ∧
      ∀ later, e.system.conn.closed = false → e.read later = e → (arrived actions).length < clientPreface.length
    else greeting isClient <+: arrived actions ∧
      ∃ taken, e.system = (System.start isClient params).run taken := by
  intro e
  have htracks : Tracks isClient params e (arrived actions) := .run isClient params actions
  generalize arrived actions = bytes at htracks
  cases htracks with
  | waiting closed loop hserver hreading hsystem hclosed hbuffer =>
    rw [if_pos hreading]
    refine ⟨congrArg (fun s => s.conn.log) hsystem, fun i self hself => ?_, fun later hopen hread => ?_⟩
    · rw [hsystem] at hself
      have hstart : (System.startUpgraded params e.request).streams i = some self := hself
      by_cases hi : i = 1
      · subst hi
        rw [System.startUpgraded_one] at hstart
        obtain ⟨request, -, rfl⟩ := Option.map_eq_some_iff.mp hstart
        refine ⟨rfl, request.1, request.2, ?_⟩
        rw [hsystem]
        exact System.startUpgraded_upgradedStream.symm
      · rw [System.startUpgraded_other hi] at hstart
        cases hstart
    · have hopen' : closed = false := (congrArg (fun s => s.conn.closed) hsystem).symm.trans hopen
      have hrunning : e.system.loop = .running := (congrArg System.loop hsystem).trans (hclosed hopen')
      rw [← hbuffer (hclosed hopen')]
      exact short_of_blocked hreading hrunning hread
  | greeted rest taken hreading hrun =>
    rw [if_neg hreading]
    exact ⟨List.prefix_append .., taken, hrun⟩

end Endpoint

end TornadoHttp2
