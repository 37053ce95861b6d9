import TornadoHttp2.DecoderSync
import TornadoHttp2.WindowBounds

/-! What a step adds to the history of a connection: at most one frame that is
read, before anything else, and the frames that are written. -/

namespace TornadoHttp2

/-- Nothing is read from the socket. -/
def Event.isLocal (e : Event) : Prop := e.receivedFrame = none

theorem Event.isLocal_of_not_ofLoop {e : Event} (h : ¬ e.ofLoop) : e.isLocal := by
  cases e with
  | received => exact absurd trivial h
  | _ => rfl

theorem receivedFrames_local {log log' : List Event} (h : Grows Event.isLocal log log') :
    receivedFrames log' = receivedFrames log := by
  obtain ⟨es, rfl, hes⟩ := h
  rw [receivedFrames_append, show receivedFrames es = [] from List.filterMap_eq_nil_iff.mpr hes, List.append_nil]

theorem Grows.extends {p : Event → Prop} {log log' : List Event} (h : Grows p log log') : log <+: log' := by
  obtain ⟨es, rfl, -⟩ := h
  exact List.prefix_append ..

namespace System

variable {s s' : System} {frame : Frame} {later : Bool} {r : Except PyException Unit}

/-- The frame that a step reads. -/
def reads (s : System) : Action → List Frame
  | .receive frame _ => if s.loop = .running ∧ frame.data.length ≤ s.conn.setting .maxFrameSize then [frame] else []
  | _ => []

theorem handled_log {self : Stream} (hid : self.streamId = frame.streamId) :
    Grows Event.isLocal s.conn.log (s.handled frame later self).conn.log :=
  (Stream.handleFrame_acts frame later ⟨s.conn, self⟩ hid).2.log.mono fun _ he => Event.isLocal_of_not_ofLoop he.2

theorem Dispatched.log (hw : s.WellFormed) (h : Dispatched s frame later r s') :
    Grows Event.isLocal s.conn.log s'.conn.log := by
  cases h with
  | conn =>
    exact (Conn.handleFrame_connOnly frame s.conn trivial).2.log.mono fun _ he => Event.isLocal_of_not_ofLoop he.2
  | stream _ hself => exact handled_log (hw.streamId hself)
  | accepted =>
    have hopened : Grows Event.isLocal s.conn.log (s.accepted frame).conn.log :=
      (Grows.snoc (show Event.isLocal (.opened _ _) from rfl)).trans
        (.snoc (show Event.isLocal (.startRequest _) from rfl))
    exact hopened.trans (handled_log rfl)
  | invalid | ignored | past | future => exact .refl

theorem Answered.log (h : Answered s r s') : Grows Event.isLocal s.conn.log s'.conn.log := by
  cases h with
  | nothing => exact .refl
  | reset => exact .snoc rfl
  | goaway => exact .snoc rfl
  | ended => exact .refl

/-- A step reads its frame first. -/
theorem step_log (hw : s.WellFormed) (a : Action) :
    Grows Event.isLocal (s.conn.log ++ (s.reads a).map .received) (s.step a).conn.log := by
  have hs := step_cases s a
  revert hs
  generalize s.step a = s'
  intro hs
  have same (h : ∀ frame later, a ≠ .receive frame later) (hlog : Grows Event.isLocal s.conn.log s'.conn.log) :
      Grows Event.isLocal (s.conn.log ++ (s.reads a).map .received) s'.conn.log := by
    cases a with
    | receive frame later => exact absurd rfl (h frame later)
    | _ => simpa [reads] using hlog
  cases hs with
  | @received frame later r s₁ _ hloop hh ha =>
    refine Grows.trans ?_ ha.log
    cases hh with
    | oversized hsize =>
      rw [reads, if_neg (fun h => absurd h.2 (by omega))]
      simpa using Grows.refl
    | interrupted hsize =>
      rw [reads, if_pos ⟨hloop, hsize⟩]
      exact .refl
    | passed hsize _ hd =>
      rw [reads, if_pos ⟨hloop, hsize⟩]
      exact hd.log (hw.logged (e := .received frame) (.inr (.inl trivial)))
  | created => exact same (by simp) (.snoc rfl)
  | upgraded => exact same (by simp) (.snoc rfl)
  | closed _ ha => exact same (by rcases ha with rfl | rfl <;> simp) .refl
  | @method _ i m self ha hself =>
    refine same (fun frame later h => by simp [h, Action.method] at ha) ?_
    exact (Stream.method_acts ha ⟨s.conn, self⟩ (hw.streamId hself)).2.log.mono fun _ he =>
      Event.isLocal_of_not_ofLoop he.2
  | idle hidle =>
    have hnone : s.reads a = [] := by
      cases a with
      | receive frame later => exact if_neg fun h => hidle frame later rfl h.1
      | _ => rfl
    rw [hnone]
    simpa using Grows.refl

theorem step_received (hw : s.WellFormed) (a : Action) :
    receivedFrames (s.step a).conn.log = receivedFrames s.conn.log ++ s.reads a := by
  rw [receivedFrames_local (step_log hw a), receivedFrames_append]
  simp [receivedFrames, List.filterMap_map, Function.comp_def, Event.receivedFrame]

theorem log_extends (hw : s.WellFormed) (a : Action) : s.conn.log <+: (s.step a).conn.log :=
  (List.prefix_append ..).trans (step_log hw a).extends

theorem run_extends (hw : s.WellFormed) (actions : List Action) : s.conn.log <+: (s.run actions).conn.log := by
  induction actions generalizing s with
  | nil => exact List.prefix_refl _
  | cons a actions ih => exact (log_extends hw a).trans (ih (hw.step a))

theorem run_isClient (isClient : Bool) (params : Params) (actions : List Action) :
    ((start isClient params).run actions).conn.isClient = isClient :=
  (actions.foldlRecOn (motive := fun s => s.WellFormed ∧ s.conn.isClient = isClient) step
    ⟨.start isClient params, rfl⟩ fun _ h a _ => ⟨h.1.step a, (step_isClient h.1 a).trans h.2⟩).2

/-- A frame that the loop goes on after has been handed on. -/
theorem Reads.of_running (h : (s.step (.receive frame later)).loop = .running) : s.Reads frame := by
  have hrunning := running_of_step h
  obtain ⟨s₁, hh, ha⟩ := step_outcome hrunning frame later
  revert h hh ha
  generalize s.step (.receive frame later) = s'
  generalize s.outcome frame later = r
  intro h hh ha
  cases hh with
  | oversized => cases ha <;> cases h
  | interrupted => cases ha <;> cases h
  | passed hsize hblock => exact ⟨hrunning, hsize, hblock⟩

theorem Reads.reads (h : s.Reads frame) (later : Bool) : s.reads (.receive frame later) = [frame] := if_pos ⟨h.1, h.2.1⟩

theorem reads_of_not_receive {a : Action} (h : ∀ frame later, a ≠ .receive frame later) : s.reads a = [] := by
  cases a with
  | receive frame later => exact absurd rfl (h frame later)
  | _ => rfl

end System

end TornadoHttp2
