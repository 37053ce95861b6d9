import TornadoHttp2.ReceiveEffects

/-! What a step of the system can do. The cases of `Handled` are the ways
through the dispatch of `_conn_loop`, those of `Answered` its exception handlers,
and those of `Stepped` the kinds of actions. -/

namespace TornadoHttp2

namespace System

open Prog

def logged (s : System) (e : Event) : System :=
  { s with conn := { s.conn with log := s.conn.log ++ [e] } }

def withLoop (s : System) (closed : Bool) (loop : ConnLoop) : System :=
  { s with conn := { s.conn with closed }, loop }

def withStream (s : System) (self : Stream) : System :=
  { s.logged (.opened self.streamId self.window.size) with
    streams := Function.update s.streams self.streamId (some self) }

section

variable {s : System} {i j : Nat} {c : Ctx} {self : Stream}

theorem setStream_self : (s.setStream i c).streams i = some c.self := Function.update_self ..

theorem setStream_of_ne (h : j ≠ i) : (s.setStream i c).streams j = s.streams j :=
  Function.update_of_ne h ..

theorem withStream_self : (s.withStream self).streams self.streamId = some self :=
  Function.update_self ..

theorem withStream_of_ne (h : j ≠ self.streamId) : (s.withStream self).streams j = s.streams j :=
  Function.update_of_ne h ..

end

/-- What the stream of a frame makes of it. -/
def atStream (s : System) (frame : Frame) (later : Bool) (self : Stream) : Except PyException Unit × Ctx :=
  (Stream.handleFrame frame later).run ⟨s.conn, self⟩

/-- The state after a stream has handled a frame. -/
def handled (s : System) (frame : Frame) (later : Bool) (self : Stream) : System :=
  { s with lastStream := some frame.streamId }.setStream frame.streamId (s.atStream frame later self).2

/-- The state in which a HEADERS frame meets the stream that it has opened. -/
def accepted (s : System) (frame : Frame) : System :=
  { (s.withStream (.new s.conn frame.streamId true)).logged (.startRequest frame.streamId) with
    maxRemoteStreamId := max s.maxRemoteStreamId frame.streamId }

theorem accepted_self {s : System} {frame : Frame} :
    (s.accepted frame).streams frame.streamId = some (.new s.conn frame.streamId true) :=
  Function.update_self ..

inductive Dispatched (s : System) (frame : Frame) (later : Bool) :
    Except PyException Unit → System → Prop
  | conn (hid : frame.streamId = 0) :
    Dispatched s frame later ((Conn.handleFrame frame).run s.conn).1
      { s with conn := ((Conn.handleFrame frame).run s.conn).2 }
  | stream {self : Stream} (hid : frame.streamId ≠ 0) (hself : s.streams frame.streamId = some self) :
    Dispatched s frame later (s.atStream frame later self).1 (s.handled frame later self)
  | invalid (hid : frame.streamId ≠ 0) (hself : s.streams frame.streamId = none)
      (hlocal : frame.streamId % 2 = s.conn.nextStreamId % 2) :
    Dispatched s frame later
      (.error (.connectionError .protocolError (some "invalid stream id"))) s
  | accepted (hid : frame.streamId ≠ 0) (hself : s.streams frame.streamId = none)
      (hserver : s.conn.isClient = false) (htype : frame.type = .headers)
      (hremote : frame.streamId % 2 ≠ s.conn.nextStreamId % 2) :
    Dispatched s frame later
      ((s.accepted frame).atStream frame later (.new s.conn frame.streamId true)).1
      ((s.accepted frame).handled frame later (.new s.conn frame.streamId true))
  | ignored (hid : frame.streamId ≠ 0) (hself : s.streams frame.streamId = none)
      (htype : frame.type = .windowUpdate ∨ frame.type = .rstStream) :
    Dispatched s frame later (.ok ()) s
  | past (hid : frame.streamId ≠ 0) (hself : s.streams frame.streamId = none)
      (hheaders : frame.type = .headers → s.conn.isClient = true)
      (hpast : frame.streamId ≤ s.maxStreamId frame.streamId) :
    Dispatched s frame later (.error (.streamError frame.streamId .streamClosed)) s
  | future (hid : frame.streamId ≠ 0) (hself : s.streams frame.streamId = none)
      (hheaders : frame.type = .headers → s.conn.isClient = true)
      (hfuture : ¬ frame.streamId ≤ s.maxStreamId frame.streamId) :
    Dispatched s frame later
      (.error (.connectionError .protocolError (some "non-existent stream"))) s

inductive Handled (s : System) (frame : Frame) (later : Bool) :
    Except PyException Unit → System → Prop
  | oversized (hsize : s.conn.setting .maxFrameSize < frame.data.length) :
    Handled s frame later (.error (.connectionError .frameSizeError none)) s
  | interrupted (hsize : frame.data.length ≤ s.conn.setting .maxFrameSize)
      (hblock : s.breaksHeaderBlock frame = true) :
    Handled s frame later
      (.error (.connectionError .protocolError (some "CONTINUATION frame required")))
      (s.logged (.received frame))
  | passed {r : Except PyException Unit} {s' : System}
      (hsize : frame.data.length ≤ s.conn.setting .maxFrameSize)
      (hblock : s.breaksHeaderBlock frame = false)
      (h : Dispatched (s.logged (.received frame)) frame later r s') : Handled s frame later r s'

inductive Answered (s : System) : Except PyException Unit → System → Prop
  | nothing : Answered s (.ok ()) s
  | reset {streamId : Nat} {code : ErrorCode} (hopen : s.conn.closed = false) :
    Answered s (.error (.streamError streamId code))
      (s.logged (.wrote (rstStreamFrame streamId code)))
  | goaway {code : ErrorCode} {message : Option String} (hopen : s.conn.closed = false) :
    Answered s (.error (.connectionError code message))
      ((s.logged (.wrote (goawayFrame code 0 message))).withLoop false .goingAway)
  | ended {e : PyException} {closed : Bool} (hclosed : s.conn.closed = true → closed = true) :
    Answered s (.error e) (s.withLoop closed .ended)

inductive Stepped (s : System) : Action → System → Prop
  | received {frame : Frame} {later : Bool} {r : Except PyException Unit} {s₁ s' : System}
      (hloop : s.loop = .running) (h : Handled s frame later r s₁) (ha : Answered s₁ r s') :
    Stepped s (.receive frame later) s'
  | created : Stepped s .createStream
      ({ s with conn := { s.conn with nextStreamId := s.conn.nextStreamId + 2 } }.withStream
        (.new s.conn s.conn.nextStreamId true))
  | upgraded {method path : Option Bytes} (hserver : s.conn.isClient = false)
      (hself : s.streams 1 = none) :
    Stepped s (.upgrade method path) (s.withStream
      { Stream.new s.conn 1 false with requestStartLine := some (method, path) })
  | closed {a : Action} {loop : ConnLoop} (hloop : loop = .running → s.loop = .running)
      (ha : a = .goawayFlushed ∨ a = .disconnect) : Stepped s a (s.withLoop true loop)
  | method {a : Action} {streamId : Nat} {m : OnStream Unit} {self : Stream}
      (ha : a.method = some (streamId, m)) (hself : s.streams streamId = some self) :
    Stepped s a (s.setStream streamId (m.run ⟨s.conn, self⟩).2)
  | idle {a : Action} (hidle : ∀ frame later, a = .receive frame later → s.loop ≠ .running) : Stepped s a s

theorem onStream_run {s : System} {streamId : Nat} {self : Stream} {m : OnStream Unit}
    (h : s.streams streamId = some self) : (onStream streamId m).run s =
      ((m.run ⟨s.conn, self⟩).1, s.setStream streamId (m.run ⟨s.conn, self⟩).2) := by
  simp only [onStream, run_get_bind, h, run_zoom]

theorem setStream_streams {s : System} {i : Nat} {c : Ctx} (h : s.streams i = some c.self) :
    (s.setStream i c).streams = s.streams := by
  change Function.update s.streams i (some c.self) = s.streams
  rw [← h, Function.update_eq_self]

theorem setStream_same {s : System} {i : Nat} {self : Stream} (hself : s.streams i = some self) :
    s.setStream i ⟨s.conn, self⟩ = s := by
  have hstreams : Function.update s.streams i (some self) = s.streams := @setStream_streams s i ⟨s.conn, self⟩ hself
  rw [setStream, hstreams]

theorem handleStreamFrame_run {s : System} {frame : Frame} {later : Bool} {self : Stream}
    (h : s.streams frame.streamId = some self) : (handleStreamFrame frame later).run s =
      ((s.atStream frame later self).1, s.handled frame later self) := by
  rw [handleStreamFrame, run_modify_bind,
    onStream_run (s := { s with lastStream := some frame.streamId }) h]
  rfl

theorem acceptStream_cases {s : System} {frame : Frame} (later : Bool) (hid : frame.streamId ≠ 0)
    (hself : s.streams frame.streamId = none) (hserver : s.conn.isClient = false)
    (htype : frame.type = .headers) :
    Dispatched s frame later ((acceptStream frame later).run s).1 ((acceptStream frame later).run s).2 := by
  by_cases hremote : frame.streamId % 2 = s.conn.nextStreamId % 2
  · have hrun : (acceptStream frame later).run s =
        (.error (.connectionError .protocolError (some "invalid stream id")), s) := by
      simp only [acceptStream, run_get_bind, check, when, if_pos hremote]
      rfl
    rw [hrun]
    exact .invalid hid hself hremote
  · have hrun : (acceptStream frame later).run s =
        (handleStreamFrame frame later).run (s.accepted frame) := by
      simp only [acceptStream, run_get_bind, check, when, if_neg hremote]
      rfl
    rw [hrun, handleStreamFrame_run accepted_self]
    exact .accepted hid hself hserver htype hremote

theorem refuseFrame_cases {s : System} {frame : Frame} (later : Bool) (hid : frame.streamId ≠ 0)
    (hself : s.streams frame.streamId = none)
    (hheaders : ¬(s.conn.isClient = false ∧ frame.type = .headers)) :
    Dispatched s frame later ((refuseFrame frame).run s).1 ((refuseFrame frame).run s).2 := by
  have hclient (h : frame.type = .headers) : s.conn.isClient = true := by simpa [h] using hheaders
  rw [refuseFrame, run_get_bind]
  split
  · rename_i hpast
    rw [check, when]
    split
    · exact .past hid hself hclient hpast
    · rename_i htype
      exact .ignored hid hself (by tauto)
  · rename_i hfuture
    exact .future hid hself hclient hfuture

theorem dispatch_cases {s : System} {frame : Frame} (later : Bool)
    (hblock : s.breaksHeaderBlock frame = false) :
    Dispatched s frame later ((dispatch frame later).run s).1 ((dispatch frame later).run s).2 := by
  have hcheck : (dispatch frame later).run s =
      (if frame.streamId = 0 then onConn (Conn.handleFrame frame)
        else if (s.streams frame.streamId).isSome then handleStreamFrame frame later
        else if s.conn.isClient = false ∧ frame.type = .headers then acceptStream frame later
        else refuseFrame frame).run s := by
    rw [dispatch, run_get_bind, check, when, if_neg (by simp [hblock]), run_pure_bind]
  rw [hcheck]
  split
  · exact .conn ‹_›
  · rename_i hid
    cases hself : s.streams frame.streamId with
    | some self =>
      rw [if_pos Option.isSome_some, handleStreamFrame_run hself]
      exact .stream hid hself
    | none =>
      rw [if_neg (by simp)]
      split
      · rename_i h
        exact acceptStream_cases later hid hself h.1 h.2
      · rename_i h
        exact refuseFrame_cases later hid hself h

theorem handled_cases (s : System) (frame : Frame) (later : Bool) :
    let m : OnSystem Unit := do
      onConn (Conn.readFrame frame)
      dispatch frame later
    Handled s frame later (m.run s).1 (m.run s).2 := by
  intro m
  by_cases hsize : s.conn.setting .maxFrameSize < frame.data.length
  · have hread : (onConn (Conn.readFrame frame)).run s =
        (.error (.connectionError .frameSizeError none), s) := by
      simp only [onConn, run_zoom, Conn.readFrame, run_get_bind, check, when, gt_iff_lt, if_pos hsize]
      rfl
    rw [show m.run s = _ from bind_error hread _]
    exact .oversized hsize
  · have hread : (onConn (Conn.readFrame frame)).run s = (.ok (), s.logged (.received frame)) := by
      simp only [onConn, run_zoom, Conn.readFrame, run_get_bind, check, when, gt_iff_lt, if_neg hsize]
      rfl
    rw [show m.run s = _ from bind_ok hread _]
    by_cases hblock : (s.logged (.received frame)).breaksHeaderBlock frame = true
    · have hrun : (dispatch frame later).run (s.logged (.received frame)) =
          (.error (.connectionError .protocolError (some "CONTINUATION frame required")),
            s.logged (.received frame)) := by
        rw [dispatch, run_get_bind, check, when, if_pos hblock]
        rfl
      rw [hrun]
      exact .interrupted (not_lt.mp hsize) hblock
    · exact .passed (not_lt.mp hsize) (Bool.eq_false_iff.mpr hblock)
        (dispatch_cases later (Bool.eq_false_iff.mpr hblock))

theorem writeFrame_run {s : System} (frame : Frame) :
    (onConn (Conn.writeFrame frame)).run s = (.error .structError, s) ∨
      s.conn.closed = true ∧ (onConn (Conn.writeFrame frame)).run s = (.error .streamClosedError, s) ∨
      s.conn.closed = false ∧ (onConn (Conn.writeFrame frame)).run s = (.ok (), s.logged (.wrote frame)) := by
  simp only [onConn, run_zoom, Conn.writeFrame, check, when]
  split
  · exact .inl rfl
  · cases hclosed : s.conn.closed <;> rw [run_pure_bind, run_get_bind, hclosed]
    · exact .inr (.inr ⟨rfl, rfl⟩)
    · exact .inr (.inl ⟨rfl, rfl⟩)

theorem handleError_cases (s : System) (e : PyException) (he : ∀ i code, e ≠ .streamError i code) :
    Answered s (.error e) ((handleError e).run s).2 := by
  cases e with
  | streamError i code => exact absurd rfl (he i code)
  | connectionError code message =>
    rcases writeFrame_run (s := s) (goawayFrame code 0 message) with h | ⟨_, h⟩ | ⟨hopen, h⟩
    · simp only [handleError, catching, bind_error h]
      exact .ended id
    · simp only [handleError, catching, bind_error h]
      exact .ended id
    · simp only [handleError, catching, bind_ok h]
      have hloop : ((setLoop .goingAway).run (s.logged (.wrote (goawayFrame code 0 message)))).2 =
          (s.logged (.wrote (goawayFrame code 0 message))).withLoop false .goingAway := by
        simp only [setLoop, run_modify, withLoop, logged, ← hopen]
      rw [show (setLoop .goingAway).run (s.logged (.wrote (goawayFrame code 0 message))) =
        (.ok (), _) from rfl]
      exact hloop ▸ .goaway hopen
  | streamClosedError => exact .ended id
  | _ => exact .ended fun _ => rfl

theorem answered_cases (m : OnSystem Unit) (s : System) :
    Answered (m.run s).2 (m.run s).1 ((catching (catching m handleStreamError) handleError).run s).2 := by
  rcases hm : m.run s with ⟨e | ⟨⟩, s₁⟩
  · by_cases he : ∃ i code, e = .streamError i code
    · obtain ⟨i, code, rfl⟩ := he
      rcases writeFrame_run (s := s₁) (rstStreamFrame i code) with h | ⟨_, h⟩ | ⟨hopen, h⟩
      · simp only [catching, hm, handleStreamError, h]
        exact .ended fun _ => rfl
      · simp only [catching, hm, handleStreamError, h]
        exact .ended id
      · simp only [catching, hm, handleStreamError, h]
        exact .reset hopen
    · have hraise : (handleStreamError e).run s₁ = (.error e, s₁) := by
        cases e with
        | streamError i code => exact absurd ⟨i, code, rfl⟩ he
        | _ => rfl
      simp only [catching, hm, hraise]
      exact handleError_cases s₁ e fun i code h => he ⟨i, code, h⟩
  · simp only [catching, hm]
    exact .nothing

/-- What the handlers of a frame return or raise. -/
def outcome (s : System) (frame : Frame) (later : Bool) : Except PyException Unit :=
  let m : OnSystem Unit := do
    onConn (Conn.readFrame frame)
    dispatch frame later
  (m.run s).1

theorem step_outcome {s : System} (hloop : s.loop = .running) (frame : Frame) (later : Bool) :
    ∃ s₁, Handled s frame later (s.outcome frame later) s₁ ∧
      Answered s₁ (s.outcome frame later) (s.step (.receive frame later)) := by
  have hstep : s.step (.receive frame later) = ((receive frame later).run s).2 := by
    simp only [step, perform, run_get_bind, when, if_pos hloop]
  rw [hstep]
  exact ⟨_, handled_cases s frame later, answered_cases _ s⟩

theorem step_method {s : System} {a : Action} {streamId : Nat} {m : OnStream Unit}
    (ha : a.method = some (streamId, m)) : step s a = ((onStream streamId m).run s).2 := by
  cases a with
  | receive | createStream | upgrade | goawayFlushed | disconnect => simp [Action.method] at ha
  | _ =>
    simp only [Action.method, Option.some.injEq, Prod.mk.injEq] at ha
    obtain ⟨rfl, rfl⟩ := ha
    rfl

theorem step_stream {s : System} {a : Action} {streamId : Nat} {m : OnStream Unit} {self : Stream}
    (ha : a.method = some (streamId, m)) (hself : s.streams streamId = some self) :
    s.step a = s.setStream streamId (m.run ⟨s.conn, self⟩).2 := by
  rw [step_method ha, onStream_run hself]

/-- Nothing can be called on a stream that there is not. -/
theorem step_absent {s : System} {a : Action} {streamId : Nat} {m : OnStream Unit}
    (ha : a.method = some (streamId, m)) (hnone : s.streams streamId = none) : s.step a = s := by
  rw [step_method ha]
  simp only [onStream, run_get_bind, hnone, run_pure]

/-- The step relation covers the step function. -/
theorem step_cases (s : System) (a : Action) : Stepped s a (step s a) := by
  have call {streamId : Nat} {m : OnStream Unit} (ha : a.method = some (streamId, m)) :
      Stepped s a (step s a) := by
    cases hself : s.streams streamId with
    | none =>
      rw [step_absent ha hself]
      exact .idle fun _ _ h => by simp [h, Action.method] at ha
    | some self =>
      rw [step_stream ha hself]
      exact .method ha hself
  cases a with
  | receive frame later =>
    simp only [step, perform, run_get_bind, when]
    split
    · exact .received ‹_› (handled_cases s frame later) (answered_cases _ s)
    · exact .idle fun _ _ _ => ‹_›
  | createStream => exact .created
  | upgrade method path =>
    simp only [step, perform, run_get_bind, when]
    split
    · rename_i h
      exact .upgraded h.1 h.2
    · exact .idle fun _ _ h => by cases h
  | goawayFlushed =>
    simp only [step, perform, run_get_bind, when]
    split
    · exact .closed (by simp) (.inl rfl)
    · exact .idle fun _ _ h => by cases h
  | disconnect => exact .closed id (.inr rfl)
  | _ => exact call rfl

theorem Answered.streams {s s' : System} {r : Except PyException Unit} (h : Answered s r s') :
    s'.streams = s.streams := by cases h <;> rfl

/-- No stream is removed. -/
theorem stream_step {s : System} {i : Nat} (h : (s.streams i).isSome = true) (a : Action) :
    ((s.step a).streams i).isSome = true := by
  have updated {streams : Nat → Option Stream} {self : Stream} {j : Nat} (h : (streams i).isSome = true) :
      (Function.update streams j (some self) i).isSome = true := by
    by_cases hij : i = j
    · subst hij
      rw [Function.update_self]
      rfl
    · rwa [Function.update_of_ne hij]
  have hs := step_cases s a
  revert hs
  generalize s.step a = s'
  intro hs
  cases hs with
  | received _ hh ha =>
    rw [ha.streams]
    cases hh with
    | oversized => exact h
    | interrupted => exact h
    | passed _ _ hd =>
      cases hd with
      | stream => exact updated h
      | accepted => exact updated (updated h)
      | _ => exact h
  | created => exact updated h
  | upgraded => exact updated h
  | closed => exact h
  | method => exact updated h
  | idle => exact h

/-- The frames of stream 0 do not touch the streams. -/
theorem step_receive_streams {s : System} {frame : Frame} {later : Bool} (hid : frame.streamId = 0) :
    (s.step (.receive frame later)).streams = s.streams := by
  have hs := step_cases s (.receive frame later)
  revert hs
  generalize s.step (.receive frame later) = s'
  intro hs
  cases hs with
  | received _ hh ha =>
    rw [ha.streams]
    cases hh with
    | oversized => rfl
    | interrupted => rfl
    | passed _ _ hd =>
      cases hd with
      | conn => rfl
      | _ => contradiction
  | closed _ ha => simp at ha
  | method ha => simp [Action.method] at ha
  | idle => rfl

/-- The frames of a stream touch no other. -/
theorem step_receive_of_ne {s : System} {frame : Frame} {later : Bool} {j : Nat} (hj : j ≠ frame.streamId) :
    (s.step (.receive frame later)).streams j = s.streams j := by
  have hs := step_cases s (.receive frame later)
  revert hs
  generalize s.step (.receive frame later) = s'
  intro hs
  cases hs with
  | received _ hh ha =>
    rw [ha.streams]
    cases hh with
    | oversized => rfl
    | interrupted => rfl
    | passed _ _ hd =>
      cases hd with
      | stream => exact setStream_of_ne hj
      | accepted => exact (setStream_of_ne hj).trans (withStream_of_ne hj)
      | _ => rfl
  | closed _ ha => simp at ha
  | method ha => simp [Action.method] at ha
  | idle => rfl

end System

end TornadoHttp2
