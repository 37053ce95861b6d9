import TornadoHttp2.BodyReceipt

/-! The frames of a stream that a connection reads and what becomes of them: while
there is no such stream they are refused, then they are handed to the stream, and
the one that ends the loop may be lost. -/

namespace TornadoHttp2

open Prog Ctx

namespace System

def readOn (s : System) (i : Nat) : List Frame := (receivedFrames s.conn.log).filter fun f => f.streamId = i

def callsOn (s : System) (i : Nat) : List DelegateCall := delegateCalls (logOf i s.conn.log)

variable {s s' s₁ : System} {a : Action} {i : Nat} {self : Stream} {frame : Frame} {later : Bool}
  {r : Except PyException Unit}

theorem step_readOn (hw : s.WellFormed) (a : Action) (i : Nat) :
    (s.step a).readOn i = s.readOn i ++ (s.reads a).filter fun f => f.streamId = i := by
  rw [readOn, step_received hw, List.filter_append, ← readOn]

theorem reads_other (h : frame.streamId ≠ i) :
    ((s.reads (.receive frame later)).filter fun f => f.streamId = i) = [] := by
  rw [reads]
  split
  · simp [h]
  · rfl

theorem Answered.callsOn (h : Answered s r s') : s'.callsOn i = s.callsOn i := by
  have hlog : Grows (fun e => e.isCalled = false) s.conn.log s'.conn.log := by
    cases h with
    | nothing | ended => exact .refl
    | reset | goaway => exact .snoc rfl
  exact hlog.delegateCalls

/-- Only an error of a stream leaves the loop running. -/
theorem Answered.not_fatal (h : Answered s r s') (hloop : s'.loop = .running) : ¬ Fatal r := by
  rintro ⟨e, rfl, he⟩
  cases h with
  | reset => exact he _ _ rfl
  | goaway => cases hloop
  | ended => cases hloop

theorem callsOn_other {j : Nat} {log : List Event} (h : Grows (·.concerns j) log s.conn.log)
    (hi : i ≠ 0) (hij : i ≠ j) :
    s.callsOn i = delegateCalls (logOf i log) := by rw [callsOn, h.logOf_other hi hij]

/-- What becomes of a stream in a step. -/
inductive Treats (s : System) (a : Action) (i : Nat) (self : Stream) (s' : System) : Prop
  | apart (hself : s'.streams i = some self) (hcalls : s'.callsOn i = s.callsOn i)
      (hmissed : s'.loop = .running → ((s.reads a).filter fun f => f.streamId = i) = [])
  | method {m : OnStream Unit} (ha : a.method = some (i, m)) (hself : s'.streams i = some (m.run ⟨s.conn, self⟩).2.self)
      (hcalls : s'.callsOn i = (m.run ⟨s.conn, self⟩).2.calls)
  | handled {frame : Frame} {later : Bool} {c : Ctx} (ha : a = .receive frame later) (hid : frame.streamId = i)
      (hreads : s.Reads frame) (hc : c.self = self ∧ c.calls = s.callsOn i)
      (hself : s'.streams i = some ((Stream.handleFrame frame later).run c).2.self)
      (hcalls : s'.callsOn i = ((Stream.handleFrame frame later).run c).2.calls)
      (hloop : s'.loop = .running → ¬ Fatal ((Stream.handleFrame frame later).run c).1)

theorem Handled.treats (hw : s.WellFormed) (hself : s.streams i = some self) (hloop : s.loop = .running)
    (h : Handled s frame later r s₁) (ha : Answered s₁ r s') : Treats s (.receive frame later) i self s' := by
  have hi : i ≠ 0 := by
    rintro rfl
    cases hw.zero.symm.trans hself
  have hlogged : (s.logged (.received frame)).callsOn i = s.callsOn i :=
    Grows.delegateCalls (.snoc (show Event.isCalled (.received frame) = false from rfl))
  have apart (hother : frame.streamId ≠ i) (hstreams : s₁.streams i = some self) (hcalls : s₁.callsOn i = s.callsOn i) :
      Treats s (.receive frame later) i self s' :=
    .apart (ha.streams ▸ hstreams) (ha.callsOn.trans hcalls) fun _ => reads_other hother
  have unknown (hnone : s.streams frame.streamId = none) : frame.streamId ≠ i := by
    rintro rfl
    cases hnone.symm.trans hself
  cases h with
  | oversized hsize =>
    exact .apart (ha.streams ▸ hself) ha.callsOn fun _ => by rw [reads, if_neg (fun h => absurd h.2 (by omega))]; rfl
  | interrupted =>
    exact .apart (ha.streams ▸ hself) (ha.callsOn.trans hlogged) fun hrunning =>
      absurd ⟨_, rfl, fun _ _ he => by cases he⟩ (ha.not_fatal hrunning)
  | passed hsize hblock hd =>
    cases hd with
    | conn hid =>
      refine apart (hid ▸ hi.symm) hself (Eq.trans ?_ hlogged)
      refine callsOn_other (j := 0) ((Conn.handleFrame_connOnly frame _ trivial).2.log.mono fun e he =>
        ⟨.inl ?_, he.2⟩) hi hi
      exact he.1
    | @stream self' hid hself' =>
      have hid' : self'.streamId = frame.streamId := hw.streamId hself'
      by_cases heq : frame.streamId = i
      · subst heq
        obtain rfl : self' = self := Option.some.inj (hself'.symm.trans hself)
        have hacts := Stream.handleFrame_acts frame later ⟨(s.logged (.received frame)).conn, self'⟩ hid'
        refine .handled (c := ⟨(s.logged (.received frame)).conn, self'⟩) rfl rfl ⟨hloop, hsize, hblock⟩ ⟨rfl, ?_⟩
          (ha.streams ▸ setStream_self) (ha.callsOn.trans ?_) ha.not_fatal
        · rw [← hlogged, callsOn, Ctx.calls, hid']
        · rw [callsOn, Ctx.calls, hacts.1]
          rfl
      · refine apart heq ((setStream_of_ne (Ne.symm heq)).trans hself) (Eq.trans ?_ hlogged)
        exact callsOn_other (Stream.handleFrame_acts frame later
          ⟨(s.logged (.received frame)).conn, self'⟩ hid').2.log hi
          (Ne.symm heq)
    | accepted hid hnone =>
      have hne := unknown hnone
      refine apart hne ?_ (Eq.trans (callsOn_other (Stream.handleFrame_acts frame later
        ⟨((s.logged (.received frame)).accepted frame).conn, .new s.conn frame.streamId true⟩ rfl).2.log
        hi hne.symm) ?_)
      · rw [handled, setStream_of_ne hne.symm]
        exact (withStream_of_ne hne.symm).trans hself
      · rw [← hlogged]
        exact Grows.delegateCalls (((Grows.snoc (show Event.isCalled (.opened _ _) = false from rfl)).trans
          (.snoc (show Event.isCalled (.startRequest _) = false from rfl))))
    | invalid _ hnone | ignored _ hnone | past _ hnone | future _ hnone => exact apart (unknown hnone) hself hlogged

theorem treats_step (hw : s.WellFormed) (hself : s.streams i = some self) (a : Action) :
    Treats s a i self (s.step a) := by
  have hi : i ≠ 0 := by
    rintro rfl
    cases hw.zero.symm.trans hself
  have hs := step_cases s a
  revert hs
  generalize s.step a = s'
  intro hs
  have opened {self' : Stream} (hnone : s.streams self'.streamId = none) : self'.streamId ≠ i := by
    rintro rfl
    cases hnone.symm.trans hself
  cases hs with
  | received hloop hh ha => exact hh.treats hw hself hloop ha
  | created =>
    have hnone : s.streams s.conn.nextStreamId = none := by
      simpa using (hw.ownIds rfl).not.mpr (by omega)
    have hne : (Stream.new s.conn s.conn.nextStreamId true).streamId ≠ i := opened hnone
    exact .apart ((withStream_of_ne hne.symm).trans hself) (Grows.delegateCalls (.snoc rfl)) fun _ => rfl
  | @upgraded method path _ hnone =>
    have hne : { Stream.new s.conn 1 false with requestStartLine := some (method, path) }.streamId ≠ i := opened hnone
    exact .apart ((withStream_of_ne hne.symm).trans hself) (Grows.delegateCalls (.snoc rfl)) fun _ => rfl
  | closed _ ha => exact .apart hself rfl fun _ => by rcases ha with rfl | rfl <;> rfl
  | @method _ j m self' ha hself' =>
    have hacts := Stream.method_acts ha ⟨s.conn, self'⟩ (hw.streamId hself')
    by_cases hij : i = j
    · subst hij
      obtain rfl : self' = self := Option.some.inj (hself'.symm.trans hself)
      refine .method ha setStream_self ?_
      rw [callsOn, Ctx.calls, hacts.1]
      rfl
    · refine .apart ((setStream_of_ne hij).trans hself) (callsOn_other hacts.2.log hi hij) fun _ => ?_
      rw [reads_of_not_receive fun frame later h => by simp [h, Action.method] at ha]
      rfl
  | idle hidle =>
    refine .apart hself rfl fun hrunning => ?_
    rw [reads_of_not_receive fun frame later h => hidle frame later h hrunning]
    rfl

/-- How a step opens a stream. -/
inductive Begins (s : System) (a : Action) (i : Nat) (self : Stream) (s' : System) : Prop
  | created (hlocal : i = s.conn.nextStreamId) (hreads : s.reads a = []) (hnew : ∃ conn, self = .new conn i true)
      (hcalls : s'.callsOn i = [])
  | upgraded (hreads : s.reads a = []) (hdelegate : self.hasDelegate = false) (hframes : self.headerFrames = [])
      (hcalls : s'.callsOn i = [])
  | accepted {frame : Frame} {later : Bool} {c : Ctx} (ha : a = .receive frame later) (hid : frame.streamId = i)
      (htype : frame.type = .headers) (hreads : s.Reads frame) (hc : (∃ conn, c.self = .new conn i true) ∧ c.calls = [])
      (hself : self = ((Stream.handleFrame frame later).run c).2.self)
      (hcalls : s'.callsOn i = ((Stream.handleFrame frame later).run c).2.calls)
      (hloop : s'.loop = .running → ¬ Fatal ((Stream.handleFrame frame later).run c).1)

theorem callsOn_opened (hw : s.WellFormed) (hnone : s.streams i = none) {log : List Event}
    (h : Grows (fun e => e.isCalled = false) s.conn.log log) : delegateCalls (logOf i log) = [] :=
  h.delegateCalls.trans (hw.delegateCalls_absent hnone)

theorem begins_step (hw : s.WellFormed) (hnone : s.streams i = none)
    (a : Action) (hself : (s.step a).streams i = some self) :
    Begins s a i self (s.step a) := by
  have hs := step_cases s a
  revert hs hself
  generalize s.step a = s'
  intro hself hs
  have same (hstreams : s'.streams = s.streams) : Begins s a i self s' := by
    rw [hstreams, hnone] at hself
    cases hself
  cases hs with
  | @received frame later r s₁ _ hloop hh ha =>
    cases hh with
    | oversized | interrupted => exact same ha.streams
    | passed hsize hblock hd =>
      cases hd with
      | conn | invalid | ignored | past | future => exact same ha.streams
      | @stream self' _ hself' =>
        have hne : i ≠ frame.streamId := by
          rintro rfl
          cases hnone.symm.trans hself'
        rw [ha.streams, handled, setStream_of_ne hne] at hself
        cases hnone.symm.trans hself
      | accepted hid habsent _ htype =>
        by_cases heq : i = frame.streamId
        · subst heq
          have hacts := Stream.handleFrame_acts frame later
            ⟨((s.logged (.received frame)).accepted frame).conn, .new s.conn frame.streamId true⟩ rfl
          rw [ha.streams, handled, setStream_self, Option.some.injEq] at hself
          refine .accepted rfl rfl htype ⟨hloop, hsize, hblock⟩
            ⟨⟨s.conn, rfl⟩, ?_⟩ hself.symm (ha.callsOn.trans ?_) ha.not_fatal
          · refine callsOn_opened hw hnone (((Grows.snoc ?_).trans (.snoc ?_)).trans (.snoc ?_)) <;> rfl
          · rw [callsOn, Ctx.calls]
            exact congrArg (fun j => delegateCalls (logOf j _)) hacts.1.symm
        · rw [ha.streams, handled, setStream_of_ne heq] at hself
          have hunchanged : ((s.logged (.received frame)).accepted frame).streams i = s.streams i :=
            withStream_of_ne heq
          cases (hunchanged.trans hnone).symm.trans hself
  | created =>
    by_cases heq : i = s.conn.nextStreamId
    · subst heq
      refine .created rfl rfl ⟨_, Option.some.inj (hself.symm.trans withStream_self)⟩ ?_
      exact callsOn_opened hw hnone (.snoc rfl)
    · rw [withStream_of_ne heq] at hself
      cases hnone.symm.trans hself
  | @upgraded method path _ habsent =>
    by_cases heq : i = 1
    · subst heq
      obtain rfl := Option.some.inj (hself.symm.trans withStream_self)
      exact .upgraded rfl rfl rfl (callsOn_opened hw hnone (.snoc rfl))
    · have hne : i ≠ { Stream.new s.conn 1 false with requestStartLine := some (method, path) }.streamId := heq
      rw [withStream_of_ne hne] at hself
      cases hnone.symm.trans hself
  | closed => exact same rfl
  | @method _ j m self' ha hself' =>
    have hne : i ≠ j := by
      rintro rfl
      cases hnone.symm.trans hself'
    rw [setStream_of_ne hne] at hself
    cases hnone.symm.trans hself
  | idle => exact same rfl

/-- The frames of a stream that there is: those from before it was opened, those
that it has been handed, and what came as the loop ended. -/
def HearsOn (s : System) (i : Nat) (self : Stream) : Prop := ∃ refused handed rest,
  s.readOn i = refused ++ handed ++ rest ∧ (s.loop = .running → rest = []) ∧
    (self.hasDelegate = true → (∀ f ∈ refused, f.type ≠ .headers) ∧
      (bodyIn refused = [] ∨ ∃ f ∈ handed, f.type = .headers)) ∧ self.Heard (s.callsOn i) handed

structure Hears (s : System) : Prop where
  wellFormed : s.WellFormed
  remote : s.conn.isClient = true → s.maxRemoteStreamId = 0
  unknown {i : Nat} (hi : i ≠ 0) (hself : s.streams i = none) (hloop : s.loop = .running) : ∀ f ∈ s.readOn i,
    f.type ≠ .headers ∧ (i % 2 = s.conn.nextStreamId % 2 → f.type ≠ .data)
  known {i : Nat} {self : Stream} (hself : s.streams i = some self) : s.HearsOn i self

theorem bodyIn_eq_nil {frames : List Frame} (h : ∀ f ∈ frames, f.type ≠ .data) : bodyIn frames = [] :=
  List.flatMap_eq_nil_iff.mpr fun f hf => Frame.dataBody_of_ne (h f hf)

/-- A frame that is handed on, or lost as the loop ends. -/
theorem handed_or_lost {c : Ctx} {handed : List Frame} (h : c.Listens handed) (frame : Frame) (later : Bool)
    (hloop : s'.loop = .running → ¬ Fatal ((Stream.handleFrame frame later).run c).1) :
    ((Stream.handleFrame frame later).run c).2.Listens (handed ++ [frame]) ∨
      s'.loop ≠ .running ∧ ((Stream.handleFrame frame later).run c).2.Listens handed := by
  have hwp : wp (Stream.handleFrame frame later) (fun _ => Ctx.Listens (handed ++ [frame]))
      (fun e => Stream.Counted handed frame e) c := Stream.handleFrame_heard h
  have hresult := (wp_result (P := fun (r : Except PyException Unit) (c' : Ctx) =>
    c'.Listens (handed ++ [frame]) ∨ c'.Listens handed ∧ Fatal r)).mp
    (wp_mono hwp (fun _ _ h' => .inl h') fun _ _ h' => h')
  exact hresult.imp_right fun h' => ⟨fun hrunning => hloop hrunning h'.2, h'.1⟩

theorem HearsOn.step (hw : s.WellFormed) (hself : s.streams i = some self) (h : s.HearsOn i self) (a : Action) :
    ∃ self', (s.step a).streams i = some self' ∧ (s.step a).HearsOn i self' := by
  have hread := step_readOn hw a i
  have hrunning (h' : (s.step a).loop = .running) : s.loop = .running := running_of_step h'
  obtain ⟨refused, handed, rest, hsplit, hrest, hdelegate, hheard⟩ := h
  have htreats := treats_step hw hself a
  revert hread htreats hrunning
  generalize s.step a = s'
  intro hread hrunning htreats
  cases htreats with
  | apart hself' hcalls hmissed =>
    refine ⟨self, hself', refused, handed, rest ++ _, by rw [hread, hsplit, List.append_assoc], fun h' => ?_, hdelegate,
      hcalls ▸ hheard⟩
    rw [hrest (hrunning h'), hmissed h', List.append_nil]
  | @method m ha hself' hcalls =>
    have hpasses := Stream.method_passes ha ⟨s.conn, self⟩
    have hid := hw.streamId hself
    have hold : (⟨s.conn, self⟩ : Ctx).Listens handed := by
      rw [Ctx.Listens, Ctx.calls, hid]
      exact hheard
    have hnone : s.reads a = [] := reads_of_not_receive fun frame later h => by simp [h, Action.method] at ha
    rw [hnone, List.filter_nil, List.append_nil] at hread
    refine ⟨_, hself', refused, handed, rest, hread.trans hsplit,
      fun h' => hrest (hrunning h'), fun hd => hdelegate ?_, ?_⟩
    · exact (congrArg (fun t => t.2.1) hpasses.self).symm.trans hd
    · exact hcalls ▸ hold.passes hpasses
  | @handled frame later c ha hid hreads hc hself' hcalls hloop =>
    subst ha
    have hnew : ((s.reads (.receive frame later)).filter fun f => f.streamId = i) = [frame] := by
      rw [hreads.reads, List.filter_singleton, hid]
      simp
    rw [hnew, hsplit, hrest hreads.1, List.append_nil] at hread
    have hold : c.Listens handed := by
      rw [Ctx.Listens, hc.1, hc.2]
      exact hheard
    have hsame : ((Stream.handleFrame frame later).run c).2.self.hasDelegate = self.hasDelegate :=
      Stream.handleFrame_hasDelegate.trans (congrArg _ hc.1)
    refine ⟨_, hself', ?_⟩
    rcases handed_or_lost hold frame later hloop with h' | ⟨hended, h'⟩
    · refine ⟨refused, handed ++ [frame], [], by rw [hread]; simp, fun _ => rfl, fun hd => ?_, hcalls ▸ h'⟩
      obtain ⟨hno, hbody⟩ := hdelegate (hsame.symm.trans hd)
      refine ⟨hno, hbody.imp_right ?_⟩
      rintro ⟨f, hf, htype⟩
      exact ⟨f, List.mem_append_left _ hf, htype⟩
    · exact ⟨refused, handed, [frame], hread, fun hrun => absurd hrun hended,
        fun hd => hdelegate (hsame.symm.trans hd), hcalls ▸ h'⟩

theorem heard_new {conn : Conn} {hasDelegate : Bool} {requestStartLine : Option (Option Bytes × Option Bytes)} :
    { Stream.new conn i hasDelegate with requestStartLine }.Heard [] [] :=
  ⟨nofun, fun _ => rfl, fun _ => .idle rfl rfl rfl rfl rfl List.not_mem_nil⟩

theorem Hears.begins (h : s.Hears) (hi : i ≠ 0) (hnone : s.streams i = none) (a : Action)
    (hself : (s.step a).streams i = some self) : (s.step a).HearsOn i self := by
  have hread := step_readOn h.wellFormed a i
  have hbegins := begins_step h.wellFormed hnone a hself
  have hrunning (h' : (s.step a).loop = .running) : s.loop = .running := running_of_step h'
  have hunknown := h.unknown hi hnone
  revert hread hbegins hrunning
  generalize s.step a = s'
  intro hread hbegins hrunning
  have silent (hreads : s.reads a = []) : s'.readOn i = s.readOn i := by
    rw [hread, hreads, List.filter_nil, List.append_nil]
  cases hbegins with
  | created hlocal hreads hnew hcalls =>
    obtain ⟨conn, rfl⟩ := hnew
    have hheard : (Stream.new conn i true).Heard (s'.callsOn i) [] := hcalls ▸ heard_new
    by_cases hloop : s'.loop = .running
    · have hno := hunknown (hrunning hloop)
      refine ⟨s.readOn i, [],
        [], by rw [silent hreads]; simp, fun _ => rfl, fun _ => ⟨fun f hf => (hno f hf).1, .inl ?_⟩, hheard⟩
      exact bodyIn_eq_nil fun f hf => (hno f hf).2 (hlocal ▸ rfl)
    · exact ⟨[], [], s'.readOn i, rfl, fun h' => absurd h' hloop, fun _ => ⟨nofun, .inl rfl⟩, hheard⟩
  | upgraded hreads hdelegate hframes hcalls =>
    refine ⟨s.readOn i, [],
      [], by rw [silent hreads]; simp, fun _ => rfl, fun hd => absurd (hdelegate.symm.trans hd) nofun, ?_⟩
    refine ⟨fun first hfirst => ?_, fun _ => hcalls, fun hd => absurd (hdelegate.symm.trans hd) nofun⟩
    rw [hframes] at hfirst
    cases hfirst
  | @accepted frame later c ha hid htype hreads hc hself' hcalls hloop =>
    subst ha
    have hnew : ((s.reads (.receive frame later)).filter fun f => f.streamId = i) = [frame] := by
      rw [hreads.reads, List.filter_singleton, hid]
      simp
    rw [hnew] at hread
    obtain ⟨⟨conn, hnewStream⟩, hnoCalls⟩ := hc
    have hold : c.Listens [] := by
      rw [Ctx.Listens, hnewStream, hnoCalls]
      exact heard_new
    subst hself'
    rcases handed_or_lost hold frame later hloop with h' | ⟨hended, h'⟩
    · refine ⟨s.readOn i, [frame],
        [], by rw [hread]; simp, fun _ => rfl, fun _ => ⟨fun f hf => ?_, .inr ⟨frame, by simp, htype⟩⟩,
        hcalls ▸ h'⟩
      exact (hunknown hreads.1 f hf).1
    · exact ⟨[], [], s'.readOn i, rfl, fun hrun => absurd hrun hended, fun _ => ⟨nofun, .inl rfl⟩, hcalls ▸ h'⟩

/-- What a stream that there is not yet is sent is refused. -/
theorem Hears.refuses (h : s.Hears) (hi : i ≠ 0) (a : Action)
    (hnone : s.streams i = none) (hstill : (s.step a).streams i = none)
    (hloop : (s.step a).loop = .running) : ∀ f ∈ (s.reads a).filter (fun f => f.streamId = i),
      f.type ≠ .headers ∧ (i % 2 = s.conn.nextStreamId % 2 → f.type ≠ .data) := by
  intro f hf
  obtain ⟨hreads, hid⟩ := List.mem_filter.mp hf
  rw [decide_eq_true_eq] at hid
  subst hid
  have hs := step_cases s a
  revert hs hstill hloop
  generalize s.step a = s'
  intro hloop hstill hs
  have silent (h : ∀ frame later, a ≠ .receive frame later) :
      f.type ≠ .headers ∧ (f.streamId % 2 = s.conn.nextStreamId % 2 → f.type ≠ .data) := by
    rw [reads_of_not_receive h] at hreads
    cases hreads
  cases hs with
  | @received frame later r s₁ _ hrunning hh ha =>
    obtain rfl : f = frame := by
      rw [reads] at hreads
      split at hreads
      · exact List.mem_singleton.mp hreads
      · cases hreads
    have hfatal := ha.not_fatal hloop
    cases hh with
    | oversized | interrupted => exact absurd ⟨_, rfl, fun _ _ he => by cases he⟩ hfatal
    | passed _ _ hd =>
      cases hd with
      | conn hid => exact absurd hid hi
      | stream _ hself => cases hnone.symm.trans hself
      | accepted =>
        rw [ha.streams, handled, setStream_self] at hstill
        cases hstill
      | invalid | future => exact absurd ⟨_, rfl, fun _ _ he => by cases he⟩ hfatal
      | ignored _ _ htype => rcases htype with htype | htype <;> simp [htype]
      | past _ _ hheaders hpast =>
        refine ⟨fun htype => past_headers_absent h.wellFormed h.remote hi hnone
          (hheaders htype) hpast, fun hlocal => ?_⟩
        have hown := (h.wellFormed.ownIds hlocal).not.mp (by simp [hnone])
        have hnext : (s.logged (.received f)).conn.nextStreamId = s.conn.nextStreamId := rfl
        rw [maxStreamId, if_pos (by rwa [hnext])] at hpast
        omega
  | created | upgraded => exact silent fun _ _ h => by cases h
  | closed _ ha => exact silent fun _ _ h => by rcases ha with rfl | rfl <;> cases h
  | method ha => exact silent fun _ _ h => by simp [h, Action.method] at ha
  | idle hidle => exact silent fun frame later h => hidle frame later h hloop

theorem Hears.step (h : s.Hears) (a : Action) : (s.step a).Hears where
  wellFormed := h.wellFormed.step a
  remote := step_remote h.wellFormed h.remote a
  unknown := by
    intro i hi hstill hloop f hf
    have hnone : s.streams i = none := by
      by_contra hne
      obtain ⟨self, hself⟩ := Option.ne_none_iff_exists'.mp hne
      obtain ⟨self', hself', -⟩ := (h.known hself).step h.wellFormed hself a
      cases hstill.symm.trans hself'
    have hparity : (s.step a).conn.nextStreamId % 2 = s.conn.nextStreamId % 2 := by
      rw [(h.wellFormed.step a).parity, h.wellFormed.parity, step_isClient h.wellFormed]
    rw [step_readOn h.wellFormed, List.mem_append] at hf
    rw [hparity]
    rcases hf with hf | hf
    · exact h.unknown hi hnone (running_of_step hloop) f hf
    · exact h.refuses hi a hnone hstill hloop f hf
  known := by
    intro i self hself
    have hi : i ≠ 0 := by
      rintro rfl
      cases (h.wellFormed.step a).zero.symm.trans hself
    cases hold : s.streams i with
    | none => exact h.begins hi hold a hself
    | some self₀ =>
      obtain ⟨self', hself', hknown⟩ := (h.known hold).step h.wellFormed hold a
      exact Option.some.inj (hself.symm.trans hself') ▸ hknown

theorem Hears.run (isClient : Bool) (params : Params) (actions : List Action) :
    ((start isClient params).run actions).Hears := by
  have hstart : (start isClient params).Hears :=
    ⟨.start isClient params, fun _ => rfl, fun _ _ _ _ hf => absurd hf List.not_mem_nil, nofun⟩
  exact actions.foldlRecOn System.step hstart fun _ h a _ => h.step a

/-- What is passed to `data_received` is what the DATA frames of the stream hold,
in order and without gaps, and the end comes with a frame that ends the stream. -/
theorem HearsOn.passed_on (h : s.HearsOn i self) :
    delivered (s.callsOn i) <:+: bodyIn (s.readOn i) ∧ (.finish ∈ s.callsOn i → ∃ f ∈ s.readOn i, f.Ends) := by
  obtain ⟨refused, handed, rest, hsplit, -, -, hheard⟩ := h
  rw [hsplit]
  by_cases hd : self.hasDelegate = true
  · have horder := (hheard.receipt hd).in_order
    obtain ⟨more, hmore⟩ := horder
    refine ⟨⟨bodyIn refused, more ++ bodyIn rest, ?_⟩, fun hfinish => ?_⟩
    · rw [bodyIn_append, bodyIn_append, ← hmore]
      simp
    · obtain ⟨before, after, hhanded, -, f, hf, hends⟩ := (hheard.receipt hd).complete hfinish
      exact ⟨f, by simp [hhanded, hf], hends⟩
  · have hnone := hheard.absent (Bool.eq_false_iff.mpr hd)
    rw [hnone]
    refine ⟨?_, nofun⟩
    exact List.nil_infix

end System

end TornadoHttp2
