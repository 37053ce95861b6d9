import TornadoHttp2.Invariants

/-! The identifiers of the streams that a server opens for its peer. The loop
keeps the largest one, but compares with it only the frames that cannot open a
stream. -/

namespace TornadoHttp2

def Event.startedId : Event → Option Nat
  | startRequest i => some i
  | _ => none

/-- The ids for which `delegate.start_request` was called, in order. -/
def startedIds (log : List Event) : List Nat := log.filterMap Event.startedId

section

variable {log log' : List Event}

theorem startedIds_append : startedIds (log ++ log') = startedIds log ++ startedIds log' :=
  List.filterMap_append ..

theorem Grows.startedIds {p : Event → Prop} (h : Grows p log log') (hp : ∀ e, p e → ¬ e.ofLoop) :
    startedIds log' = startedIds log := by
  obtain ⟨es, rfl, hes⟩ := h
  have hnil : TornadoHttp2.startedIds es = [] := by
    refine List.filterMap_eq_nil_iff.mpr fun e he => ?_
    cases e with
    | startRequest => exact absurd trivial (hp _ (hes _ he))
    | _ => rfl
  rw [startedIds_append, hnil, List.append_nil]

end

namespace System

variable {s s' : System} {frame : Frame} {later : Bool} {a : Action}

/-- The frame opens a stream for the peer. -/
def Opens (s : System) (frame : Frame) : Prop :=
  s.Reads frame ∧ s.conn.isClient = false ∧ frame.type = .headers ∧ s.streams frame.streamId = none ∧
    frame.streamId ≠ 0 ∧ frame.streamId % 2 ≠ s.conn.nextStreamId % 2

instance : Decidable (s.Opens frame) := inferInstanceAs (Decidable (_ ∧ _))

/-- What the loop keeps of the ids that its peer has used. -/
def remoteIds (s : System) : List Nat × Nat := (startedIds s.conn.log, s.maxRemoteStreamId)

theorem remoteIds_congr (hlog : Grows (fun e => ¬ e.ofLoop) s.conn.log s'.conn.log)
    (hmax : s'.maxRemoteStreamId = s.maxRemoteStreamId) : s'.remoteIds = s.remoteIds :=
  Prod.ext (hlog.startedIds fun _ h => h) hmax

theorem Answered.remoteIds {r : Except PyException Unit} (h : Answered s r s') :
    s'.remoteIds = s.remoteIds := by
  cases h with
  | nothing => rfl
  | ended => rfl
  | reset => simp [System.remoteIds, logged, startedIds, Event.startedId]
  | goaway => simp [System.remoteIds, logged, withLoop, startedIds, Event.startedId]

theorem Handled.remoteIds {r : Except PyException Unit} (hw : WellFormed s) (hloop : s.loop = .running)
    (h : Handled s frame later r s') :
    s.Opens frame ∧
      s'.remoteIds = (startedIds s.conn.log ++ [frame.streamId], max s.maxRemoteStreamId frame.streamId) ∨
    ¬ s.Opens frame ∧ s'.remoteIds = s.remoteIds := by
  have hreceived : (s.logged (.received frame)).remoteIds = s.remoteIds := by
    simp [System.remoteIds, logged, startedIds, Event.startedId]
  cases h with
  | oversized hsize => exact .inr ⟨fun h => absurd h.1.2.1 (not_le.mpr hsize), rfl⟩
  | interrupted _ hblock => exact .inr ⟨fun h => by simp [h.1.2.2] at hblock, hreceived⟩
  | passed hsize hblock hd =>
    cases hd with
    | conn hid =>
      refine .inr ⟨fun h => h.2.2.2.2.1 hid, ?_⟩
      have hlog := (Conn.handleFrame_connOnly frame (s.logged (.received frame)).conn trivial).2.log
      rw [← hreceived]
      exact remoteIds_congr (hlog.mono fun _ he => he.2) rfl
    | @stream self hid hself =>
      refine .inr ⟨fun h => absurd (h.2.2.2.1.symm.trans hself) (by simp), ?_⟩
      have hlog := (Stream.handleFrame_acts frame later ⟨(s.logged (.received frame)).conn, self⟩
        (hw.streamId hself)).2.log
      rw [← hreceived]
      exact remoteIds_congr (hlog.mono fun _ he => he.2) rfl
    | invalid _ _ hlocal => exact .inr ⟨fun h => h.2.2.2.2.2 hlocal, hreceived⟩
    | accepted hid hself hserver htype hremote =>
      refine .inl ⟨⟨⟨hloop, hsize, hblock⟩, hserver, htype, hself, hid, hremote⟩, ?_⟩
      have hlog := (Stream.handleFrame_acts frame later
        ⟨((s.logged (.received frame)).accepted frame).conn, .new s.conn frame.streamId true⟩ rfl).2.log
      refine Eq.trans (b := ((s.logged (.received frame)).accepted frame).remoteIds) ?_ ?_
      · exact remoteIds_congr (hlog.mono fun _ he => he.2) rfl
      · simp [System.remoteIds, accepted, withStream, logged, startedIds]
        rfl
    | ignored _ _ htype =>
      refine .inr ⟨fun h => ?_, hreceived⟩
      rcases htype with htype | htype <;> exact absurd (h.2.2.1.symm.trans htype) (by simp)
    | past _ _ hclient => exact .inr ⟨fun h => absurd (h.2.1.symm.trans (hclient h.2.2.1)) (by simp), hreceived⟩
    | future _ _ hclient => exact .inr ⟨fun h => absurd (h.2.1.symm.trans (hclient h.2.2.1)) (by simp), hreceived⟩

/-- Only a frame that opens a stream adds an id. -/
theorem step_remoteIds (hw : WellFormed s) (a : Action) :
    (∃ frame later, a = .receive frame later ∧ s.Opens frame ∧
      (s.step a).remoteIds =
        (startedIds s.conn.log ++ [frame.streamId], max s.maxRemoteStreamId frame.streamId)) ∨
    (∀ frame later, a = .receive frame later → ¬ s.Opens frame) ∧
      (s.step a).remoteIds = s.remoteIds := by
  have hs := step_cases s a
  revert hs
  generalize s.step a = s'
  intro hs
  cases hs with
  | received hloop hh ha =>
    rw [ha.remoteIds]
    rcases hh.remoteIds hw hloop with ⟨hopens, hids⟩ | ⟨hopens, hids⟩
    · exact .inl ⟨_, _, rfl, hopens, hids⟩
    · exact .inr ⟨fun _ _ h => by cases h; exact hopens, hids⟩
  | created =>
    refine .inr ⟨by simp, ?_⟩
    simp [remoteIds, withStream, logged, startedIds, Event.startedId]
  | upgraded =>
    refine .inr ⟨by simp, ?_⟩
    simp [remoteIds, withStream, logged, startedIds, Event.startedId]
  | closed _ ha =>
    refine .inr ⟨fun _ _ h => ?_, rfl⟩
    subst h
    simp at ha
  | method ha hself =>
    refine .inr ⟨fun _ _ h => by simp [h, Action.method] at ha, ?_⟩
    have hlog := (Stream.method_acts ha ⟨s.conn, _⟩ (hw.streamId hself)).2.log
    exact remoteIds_congr (hlog.mono fun _ he => he.2) rfl
  | idle hidle => exact .inr ⟨fun frame later h hopens => hidle frame later h hopens.1.1, rfl⟩

/-- The largest id of the peer is the largest of those that opened a stream. -/
structure Numbered (s : System) : Prop where
  wellFormed : s.WellFormed
  odd : ∀ i ∈ startedIds s.conn.log, i % 2 = 1
  le : ∀ i ∈ startedIds s.conn.log, i ≤ s.maxRemoteStreamId
  max : s.maxRemoteStreamId = 0 ∨ s.maxRemoteStreamId ∈ startedIds s.conn.log

theorem Numbered.start (isClient : Bool) (params : Params) : Numbered (System.start isClient params) where
  wellFormed := .start isClient params
  odd := by simp [System.start, startedIds, Event.startedId]
  le := by simp [System.start, startedIds, Event.startedId]
  max := .inl rfl

theorem Numbered.step (h : Numbered s) (a : Action) : Numbered (s.step a) := by
  rcases step_remoteIds h.wellFormed a with ⟨frame, later, -, hopens, hids⟩ | ⟨-, hids⟩
  · obtain ⟨hlog, hmax⟩ := Prod.mk.inj hids
    have hodd : frame.streamId % 2 = 1 := by
      have hparity := h.wellFormed.parity
      rw [hopens.2.1] at hparity
      have hremote := hopens.2.2.2.2.2
      simp only [Bool.false_eq_true, if_false] at hparity
      omega
    refine ⟨h.wellFormed.step a, ?_, ?_, ?_⟩
    · rw [hlog]
      intro i hi
      rcases List.mem_append.mp hi with hi | hi
      · exact h.odd i hi
      · exact List.mem_singleton.mp hi ▸ hodd
    · rw [hlog, hmax]
      intro i hi
      rcases List.mem_append.mp hi with hi | hi
      · exact (h.le i hi).trans (le_max_left ..)
      · exact List.mem_singleton.mp hi ▸ le_max_right ..
    · rw [hlog, hmax]
      rcases max_cases s.maxRemoteStreamId frame.streamId with ⟨hm, -⟩ | ⟨hm, -⟩
      · rw [hm]
        exact h.max.imp id fun hi => List.mem_append_left _ hi
      · exact .inr (by simp [hm])
  · obtain ⟨hlog, hmax⟩ := Prod.mk.inj hids
    refine ⟨h.wellFormed.step a, ?_, ?_, ?_⟩
    · rw [hlog]
      exact h.odd
    · rw [hlog, hmax]
      exact h.le
    · rw [hlog, hmax]
      exact h.max

/-- A frame that opens a stream has a larger id than every such frame before. -/
def Fresh (s : System) : Action → Prop
  | .receive frame _ => s.Opens frame → s.maxRemoteStreamId < frame.streamId
  | _ => True

theorem Numbered.increasing_iff (h : Numbered s) (a : Action) :
    (startedIds (s.step a).conn.log).Pairwise (· < ·) ↔
      (startedIds s.conn.log).Pairwise (· < ·) ∧ s.Fresh a := by
  rcases step_remoteIds h.wellFormed a with ⟨frame, later, rfl, hopens, hids⟩ | ⟨hopens, hids⟩
  · have hfresh : s.Fresh (.receive frame later) ↔ ∀ i ∈ startedIds s.conn.log, i < frame.streamId := by
      constructor
      · exact fun hf i hi => (h.le i hi).trans_lt (hf hopens)
      · intro hall _
        rcases h.max with hzero | hmem
        · rw [hzero]
          exact Nat.pos_of_ne_zero hopens.2.2.2.2.1
        · exact hall _ hmem
    rw [(Prod.mk.inj hids).1, hfresh]
    simp [List.pairwise_append]
  · rw [(Prod.mk.inj hids).1]
    refine (and_iff_left ?_).symm
    cases a with
    | receive frame later => exact fun ho => absurd ho (hopens frame later rfl)
    | _ => trivial

/-- A HEADERS frame with an id of the peer that has no stream and that is not
larger than the ids before. -/
def IsPast (s : System) (frame : Frame) : Prop :=
  frame.type = .headers ∧ frame.streamId ≠ 0 ∧ frame.streamId % 2 ≠ s.conn.nextStreamId % 2 ∧
    s.streams frame.streamId = none ∧ ∃ i ∈ startedIds s.conn.log, frame.streamId ≤ i

/-- Such a frame creates no stream and is answered as an error. -/
def RefusesPast (s : System) : Action → Prop
  | .receive frame later => s.loop = .running → s.IsPast frame →
      (s.step (.receive frame later)).streams = s.streams ∧
        ((∃ code message, s.outcome frame later = .error (.connectionError code message)) ∨
          ∃ i code, s.outcome frame later = .error (.streamError i code))
  | _ => True

theorem Numbered.refusesPast (h : Numbered s) (a : Action) (hf : s.Fresh a) : s.RefusesPast a := by
  cases a with
  | receive frame later =>
    rintro hloop ⟨htype, hid, hremote, hnone, i, hi, hle⟩
    have hopens : ¬ s.Opens frame := fun ho => absurd (hf ho) (not_lt.mpr (hle.trans (h.le i hi)))
    obtain ⟨s₁, hh, ha⟩ := step_outcome hloop frame later
    rw [ha.streams]
    clear ha
    revert hh
    generalize s.outcome frame later = r
    intro hh
    cases hh with
    | oversized => exact ⟨rfl, .inl ⟨_, _, rfl⟩⟩
    | interrupted => exact ⟨rfl, .inl ⟨_, _, rfl⟩⟩
    | passed hsize hblock hd =>
      cases hd with
      | conn hzero => exact absurd hzero hid
      | stream _ hself => exact absurd (hnone.symm.trans hself) nofun
      | invalid => exact ⟨rfl, .inl ⟨_, _, rfl⟩⟩
      | accepted _ _ hserver => exact absurd ⟨⟨hloop, hsize, hblock⟩, hserver, htype, hnone, hid, hremote⟩ hopens
      | ignored _ _ hignored => rcases hignored with h | h <;> exact absurd (htype.symm.trans h) nofun
      | past => exact ⟨rfl, .inr ⟨_, _, rfl⟩⟩
      | future => exact ⟨rfl, .inl ⟨_, _, rfl⟩⟩
  | _ => trivial

theorem remote_ids_grow (params : Params) (actions : List Action) :
    let log := ((System.start false params).run actions).conn.log
    ((startedIds log).Pairwise (· < ·) ∧ (∀ i ∈ startedIds log, i % 2 = 1) ∧
      Runs.Along step RefusesPast (System.start false params) actions) ↔
    Runs.Along step Fresh (System.start false params) actions := by
  intro log
  have hstart := Numbered.start false params
  have hgrows : (startedIds log).Pairwise (· < ·) ↔ Runs.Along step Fresh (System.start false params) actions := by
    refine (Runs.along_iff (I := Numbered) (P := fun s => (startedIds s.conn.log).Pairwise (· < ·))
      (fun _ a h => h.step a) (fun _ a h => h.increasing_iff a) hstart).trans (and_iff_right ?_)
    exact List.Pairwise.nil
  refine ⟨fun h => hgrows.mp h.1, fun h => ⟨hgrows.mpr h, ?_, ?_⟩⟩
  · exact (actions.foldlRecOn step hstart fun _ h a _ => h.step a).odd
  · exact h.mono (fun _ a h _ => h.step a) (fun _ a h => h.refusesPast a) hstart

/-- Stream 1 is opened after stream 3. -/
theorem remote_ids_not_grow :
    let s := (System.start false (.new none .caseless)).run [.receive (requestFrame 3 0x5) false]
    let a := .receive (requestFrame 1 0x5) false
    ¬ (startedIds (s.step a).conn.log).Pairwise (· < ·) ∧ ¬ s.RefusesPast a := by
  intro s a
  have hnone : s.streams 1 = none := by decide +kernel
  have hpast : s.IsPast (requestFrame 1 0x5) :=
    ⟨rfl, by decide, by decide +kernel, hnone, 3, by decide +kernel, by decide⟩
  have hok : s.outcome (requestFrame 1 0x5) false = .ok () := by decide +kernel
  refine ⟨by decide +kernel, fun h => ?_⟩
  rcases (h (by decide +kernel) hpast).2 with ⟨_, _, he⟩ | ⟨_, _, he⟩ <;> exact absurd (hok.symm.trans he) nofun

end System

end TornadoHttp2
