import TornadoHttp2.BodyOrder
import TornadoHttp2.HeaderLimit

/-! When a stream stops sending. The queue of the write lock sees to it after
END_STREAM; nothing sees to it after RST_STREAM. -/

namespace TornadoHttp2

open Prog Ctx

namespace Event

def isReset : Event → Bool
  | received frame => frame.type = .rstStream
  | wrote frame => frame.type = .rstStream
  | _ => false

def isSend : Event → Bool
  | wrote frame => frame.type = .headers || frame.type = .data
  | _ => false

/-- The stream is closed for sending from here on. -/
def closes (e : Event) : Bool := e.isReset || e.isEnd

def isFinish : Event → Bool
  | issued _ .finish => true
  | _ => false

/-- A call that has something to send. -/
def isCall : Event → Bool
  | issued _ _ => true
  | accepted _ chunk => chunk ≠ []
  | _ => false

/-- The events of the other half and of the connection loop. -/
def isPassive (e : Event) : Prop := e.isSend = false ∧ e.isFinish = false

theorem isPassive.isEnd {e : Event} (h : e.isPassive) : e.isEnd = false := by
  have hsend := h.1
  cases e with
  | wrote frame =>
    simp only [isSend, Bool.or_eq_false_iff, decide_eq_false_iff_not] at hsend
    simp [Event.isEnd, hsend]
  | _ => rfl

theorem ofReceiving.isPassive {i : Nat} {e : Event} (h : e.ofReceiving i) :
    e.isPassive ∧ e.isReset = false := by
  cases e with
  | wrote frame => simp [Event.isPassive, isSend, isFinish, isReset, h.1]
  | called | decoded => exact ⟨⟨rfl, rfl⟩, rfl⟩
  | _ => exact h.elim

theorem isNoise.isPassive {e : Event} (h : e.isNoise) : e.isPassive := by
  cases e with
  | wrote frame => rcases h with h | h <;> simp [Event.isPassive, isSend, isFinish, h]
  | received | startRequest => exact ⟨rfl, rfl⟩
  | _ => exact h.elim

theorem isRefusal.isPassive {e : Event} (h : e.isRefusal) : e.isPassive := by
  cases e with
  | wrote frame =>
    have htype : frame.type = .rstStream := h
    simp [Event.isPassive, isSend, isFinish, htype]
  | received => exact ⟨rfl, rfl⟩
  | _ => exact h.elim

end Event

/-- Nothing is sent on a closed stream. -/
def SilentOnceClosed (log : List Event) : Prop :=
  log.Pairwise fun e e' => e.closes = true → e'.isSend = false

/-- `finish` is the last call on the stream. -/
def FinishesLast (log : List Event) : Prop :=
  log.Pairwise fun e e' => e.isFinish = true → e'.isCall = false

instance (log : List Event) : Decidable (SilentOnceClosed log) := inferInstanceAs (Decidable (log.Pairwise _))

instance (log : List Event) : Decidable (FinishesLast log) := inferInstanceAs (Decidable (log.Pairwise _))

theorem FinishesLast.of_append {log log' : List Event} (h : FinishesLast (log ++ log')) : FinishesLast log :=
  (List.pairwise_append.mp h).1

/-- A call on the stream comes before `finish`. -/
theorem FinishesLast.open {log : List Event} {e : Event} (h : FinishesLast (log ++ [e]))
    (he : e.isCall = true) : ¬ ∃ e' ∈ log, e'.isFinish = true := by
  rintro ⟨e', hmem, hfinish⟩
  have hcall := (List.pairwise_append.mp h).2.2 e' hmem e List.mem_cons_self hfinish
  rw [he] at hcall
  cases hcall

/-- The writers of a stream before and after END_STREAM. -/
structure Silence (s : Stream) (log : List Event) : Prop where
  silent : SilentOnceClosed log
  free : s.writeLock.owner = .free → s.writeLock.waiters = []
  queue : EndsQueue (∃ e ∈ log, e.isFinish = true) s.writeLock.jobs
  ended : (∃ e ∈ log, e.isEnd = true) →
    (∃ e ∈ log, e.isFinish = true) ∧ s.writeLock = ⟨.free, []⟩

def StopsSending (self : Stream) (log : List Event) : Prop := FinishesLast log → Silence self log

namespace Silence

variable {s s' : Stream} {log es : List Event} {e : Event}

theorem passive (h : Silence s log) (hlock : s'.writeLock = s.writeLock) (hes : ∀ e ∈ es, e.isPassive) :
    Silence s' (log ++ es) := by
  have hfinish : (∃ e ∈ log ++ es, e.isFinish = true) ↔ ∃ e ∈ log, e.isFinish = true := by
    refine ⟨fun ⟨e, he, h⟩ => ?_, fun ⟨e, he, h⟩ => ⟨e, List.mem_append_left _ he, h⟩⟩
    rcases List.mem_append.mp he with he | he
    · exact ⟨e, he, h⟩
    · simp [(hes e he).2] at h
  have hend : (∃ e ∈ log ++ es, e.isEnd = true) → ∃ e ∈ log, e.isEnd = true := by
    rintro ⟨e, he, h⟩
    rcases List.mem_append.mp he with he | he
    · exact ⟨e, he, h⟩
    · simp [(hes e he).isEnd] at h
  constructor
  · refine List.pairwise_append.mpr ⟨h.silent, ?_, fun _ _ e he _ => (hes e he).1⟩
    exact List.Pairwise.imp_of_mem (fun _ he _ _ => (hes _ he).1) (List.pairwise_of_forall fun _ _ => trivial)
  · rw [hlock]
    exact h.free
  · rw [hlock, hfinish]
    exact h.queue
  · rw [hlock, hfinish]
    exact fun h' => h.ended (hend h')

/-- A frame is written while the stream is open. -/
theorem sends (h : Silence s log) (hopen : ∀ e ∈ log, e.closes = false) (he : e.isFinish = false)
    {lock : WriteLock} (hfree : lock.owner = .free → lock.waiters = [])
    (hqueue : EndsQueue (∃ e ∈ log, e.isFinish = true) lock.jobs)
    (hend : e.isEnd = true → (∃ e ∈ log, e.isFinish = true) ∧ lock = ⟨.free, []⟩) :
    Silence { s with writeLock := lock } (log ++ [e]) := by
  have hfinish : (∃ e' ∈ log ++ [e], e'.isFinish = true) ↔ ∃ e ∈ log, e.isFinish = true := by
    simp [he, or_and_right, exists_or]
  constructor
  · refine List.pairwise_append.mpr ⟨h.silent, List.pairwise_singleton .., fun e' he' _ _ hclose => ?_⟩
    rw [hopen e' he'] at hclose
    cases hclose
  · exact hfree
  · rw [hfinish]
    exact hqueue
  · rintro ⟨e', he', h'⟩
    rw [hfinish]
    rcases List.mem_append.mp he' with he' | he'
    · have hclosed := hopen e' he'
      simp [Event.closes, h'] at hclosed
    · exact hend (List.mem_singleton.mp he' ▸ h')

/-- The lock changes hands while the stream is open. -/
theorem withLock (h : Silence s log) (hopen : ∀ e ∈ log, e.isEnd = false) {lock : WriteLock}
    (hfree : lock.owner = .free → lock.waiters = [])
    (hqueue : EndsQueue (∃ e ∈ log, e.isFinish = true) lock.jobs) :
    Silence { s with writeLock := lock } log := by
  refine ⟨h.silent, hfree, hqueue, ?_⟩
  rintro ⟨e, he, hend⟩
  rw [hopen e he] at hend
  cases hend

theorem opened (h : Silence s log) (hlock : s.writeLock ≠ ⟨.free, []⟩) : ∀ e ∈ log, e.isEnd = false := by
  intro e he
  by_contra hend
  exact hlock (h.ended ⟨e, he, by simpa using hend⟩).2

theorem owned (h : Silence s log) {job : Job} {point : YieldPoint}
    (howner : s.writeLock.owner = .writer job point) : ∀ e ∈ log, e.isEnd = false :=
  h.opened fun hlock => by simp [hlock] at howner

end Silence

abbrev Stops (c : Ctx) : Prop := Own StopsSending (fun _ => True) c

/-- A stream that may send: it has not been reset, or the socket is closed anyway. -/
def Ctx.Unreset (c : Ctx) : Prop :=
  c.conn.closed = false → ∀ e ∈ logOf c.self.streamId c.conn.log, e.isReset = false

theorem Ctx.Unreset.grows {c c' : Ctx} (hu : c.Unreset) (hid : c'.self.streamId = c.self.streamId)
    (hclosed : c'.conn.closed = c.conn.closed)
    (hlog : Grows (fun e => e.isReset = false) c.conn.log c'.conn.log) : c'.Unreset := by
  intro hopen e he
  obtain ⟨es, hlog, hes⟩ := hlog
  rw [hid, hlog, logOf_append, List.mem_append] at he
  rcases he with he | he
  · exact hu (hclosed ▸ hopen) e he
  · exact hes e (mem_logOf.mp he).1

theorem Ctx.Unreset.prepared {c c' : Ctx} (hu : c.Unreset) (hp : Prepared (c.issued .writeHeaders) c') :
    c'.Unreset := by
  have hissued : (c.issued .writeHeaders).Unreset := hu.grows rfl rfl (.snoc rfl)
  refine hissued.grows hp.self.1 hp.closed (hp.log.mono fun e he => ?_)
  obtain ⟨n, rfl⟩ := he
  rfl

/-- A stream that is neither reset nor ended is open. -/
theorem Ctx.Unreset.closes {c : Ctx} (hu : c.Unreset) (hopen : c.conn.closed = false)
    (hend : ∀ e ∈ logOf c.self.streamId c.conn.log, e.isEnd = false) :
    ∀ e ∈ logOf c.self.streamId c.conn.log, e.closes = false := by
  intro e he
  rw [Event.closes, hu hopen e he, hend e he]
  rfl

namespace Stops

variable {c c' : Ctx} {job : Job}

theorem passive (h : Stops c) (hid : c'.self.streamId = c.self.streamId)
    (hlock : c'.self.writeLock = c.self.writeLock) (hlog : Grows Event.isPassive c.conn.log c'.conn.log) :
    Stops c' := by
  refine ⟨fun hcalls => ?_, trivial⟩
  obtain ⟨es, hlog, hes⟩ := hlog
  rw [hid, hlog, logOf_append] at hcalls ⊢
  exact (h.1 hcalls.of_append).passive hlock fun e he => hes e (mem_logOf.mp he).1

theorem withLock (h : Stops c) {lock : WriteLock}
    (hlock : ∀ {log}, Silence c.self log → Silence { c.self with writeLock := lock } log) :
    Stops (c.withLock lock) := ⟨fun hcalls => hlock (h.1 hcalls), trivial⟩

theorem logged (h : Stops c) {e : Event} (he : e.isPassive) : Stops (c.logged e) :=
  h.passive rfl rfl (.snoc he)

theorem resets (h : Stops c) (hr : c.Resets c') : Stops c' := by
  rcases hr with rfl | rfl
  · exact h
  · exact h.logged (e := .wrote c.resetFrame) ⟨rfl, rfl⟩

theorem calledBack (h : Stops c) : ∀ {callback}, Stops (c.calledBack callback)
  | none => h
  | some _ => h.logged (e := .callback ..) ⟨rfl, rfl⟩

theorem event (h : Stops c) {e : Event} (he : e.streamId = c.self.streamId)
    (hid : c'.self.streamId = c.self.streamId) (hlog : c'.conn.log = c.conn.log ++ [e])
    (hs : Silence c.self (logOf c.self.streamId c.conn.log) →
      FinishesLast (logOf c.self.streamId c.conn.log ++ [e]) →
        Silence c'.self (logOf c.self.streamId c.conn.log ++ [e])) : Stops c' := by
  refine ⟨fun hcalls => ?_, trivial⟩
  rw [hid, hlog, logOf_snoc he] at hcalls ⊢
  exact hs (h.1 hcalls.of_append) hcalls

theorem withOwner (h : Stops c) {point point' : YieldPoint}
    (howner : c.self.writeLock.owner = .writer job point) : Stops (c.withOwner (.writer job point')) := by
  refine h.withLock fun hs => hs.withLock (hs.owned howner) (by simp) ?_
  have hjobs := WriteLock.jobs_writer howner
  rw [show WriteLock.jobs { c.self.writeLock with owner := .writer job point' } = c.self.writeLock.jobs
    from hjobs.symm]
  exact hs.queue

theorem released (h : Stops c) {point : YieldPoint}
    (howner : c.self.writeLock.owner = .writer job point) : Stops c.released := by
  obtain ⟨hjobs, -, hfree⟩ := WriteLock.jobs_release howner
  exact h.withLock fun hs => hs.withLock (hs.owned howner) hfree (hjobs ▸ hs.queue).tail.1

theorem lost (h : Stops c) {point : YieldPoint}
    (howner : c.self.writeLock.owner = .writer job point) : Stops (c.withOwner .lost) := by
  have hjobs := WriteLock.jobs_writer howner
  exact h.withLock fun hs => hs.withLock (hs.owned howner) nofun (hjobs ▸ hs.queue).tail.1

theorem writes (h : Stops c) (hu : c.Unreset) (hopen : c.conn.closed = false) {chunk : Bytes}
    {callback : Option Nat} {point : YieldPoint} {n : Nat}
    (howner : c.self.writeLock.owner = .writer (.chunk chunk callback) point) :
    Stops ((c.logged (.wrote (c.pieceFrame (chunk.take n)))).withOwner
      (.writer (.chunk (chunk.drop n) callback) .flush)) := by
  refine h.event (e := .wrote (c.pieceFrame (chunk.take n))) rfl rfl rfl fun hs _ => ?_
  have hjobs := WriteLock.jobs_writer howner
  have hflag : (Event.wrote (c.pieceFrame (chunk.take n))).isEnd = false := by
    simp [Event.isEnd, Ctx.pieceFrame, Frame.has]
  refine hs.sends (hu.closes hopen (hs.owned howner)) rfl (by simp) (hjobs ▸ hs.queue).tail.1.cons ?_
  simp [hflag]

theorem ends (h : Stops c) (hu : c.Unreset) (hopen : c.conn.closed = false) {point : YieldPoint}
    (howner : c.self.writeLock.owner = .writer .endStream point) :
    Stops (c.logged (.wrote c.endStreamFrame)).released := by
  refine h.event (e := .wrote c.endStreamFrame) rfl rfl rfl fun hs _ => ?_
  obtain ⟨hjobs, -, hfree⟩ := WriteLock.jobs_release howner
  obtain ⟨hrest, hfinish⟩ := (hjobs ▸ hs.queue).tail.2 rfl
  have hwaiters : c.self.writeLock.waiters = [] :=
    (List.cons.inj ((WriteLock.jobs_writer howner).symm.trans hjobs)).2.trans hrest
  have hrelease : c.self.writeLock.release = ⟨.free, []⟩ := by simp only [WriteLock.release, hwaiters]
  exact hs.sends (hu.closes hopen (hs.owned howner)) rfl hfree (hjobs ▸ hs.queue).tail.1 fun _ =>
    ⟨hfinish, hrelease⟩

end Stops

/-- The owner of the lock stands before a frame. -/
def WriteLock.writesNext (lock : WriteLock) : Bool :=
  match lock.owner with
  | .writer (.chunk _ _) (.consume _) => true
  | .writer .endStream _ => true
  | _ => false

namespace Stops

variable {c c' : Ctx} {job : Job}

theorem slice (h : Stops c) (hu : c.self.writeLock.writesNext = true → c.Unreset) (hs : Slice c c') :
    Stops c' := by
  cases hs with
  | idle => exact h
  | failed howner hr => exact (h.lost howner).resets hr
  | finished howner => exact (h.released howner).calledBack
  | waits howner => exact h.withOwner howner
  | waitsParent howner => exact h.withOwner howner
  | @takes _ _ _ _ taken howner =>
    have howned : Stops (c.withOwner (.writer _ (.parent taken))) := h.withOwner howner
    exact howned.passive rfl rfl (.snoc (e := .consumed ..) ⟨rfl, rfl⟩)
  | @debits _ _ amount howner =>
    have howned : Stops (c.withOwner (.writer _ (.consume amount))) := h.withOwner howner
    exact howned.passive rfl rfl (.snoc (e := .consumed ..) ⟨rfl, rfl⟩)
  | writes howner hopen => exact h.writes (hu (by simp only [WriteLock.writesNext, howner])) hopen howner
  | ends howner hopen => exact h.ends (hu (by simp only [WriteLock.writesNext, howner])) hopen howner
  | @aborts _ c₁ howner hr =>
    have howner' : c₁.self.writeLock.owner = c.self.writeLock.owner := by rcases hr with rfl | rfl <;> rfl
    exact (h.resets hr).released (howner'.trans howner)

theorem acquires (h : Stops (c.withLock (c.self.writeLock.acquire job)))
    (hu : c.self.writeLock.owner = .free → job = .endStream → c.Unreset) (ha : Acquires c job c') :
    Stops c' := by
  cases ha with
  | granted hfree hs =>
    rw [WriteLock.acquire, if_pos hfree] at h
    refine h.slice (fun hnext => ?_) hs
    cases job with
    | chunk => cases hnext
    | endStream => exact hu hfree rfl
  | queued hbusy =>
    rw [WriteLock.acquire, if_neg hbusy] at h
    exact h

theorem call (h : Stops c) {chunk : Bytes} {callback : Option Nat} (hw : Writes c chunk callback c') :
    Stops c' := by
  have hcounted : Stops (c.counted chunk) := h.passive rfl rfl .refl
  cases hw with
  | rejected _ _ _ hr => exact hcounted.resets hr
  | empty => exact (h.logged (e := .accepted ..) ⟨rfl, rfl⟩).calledBack
  | accepted hchunk _ ha =>
    refine acquires ?_ (fun _ hjob => by cases hjob) ha
    refine h.event (e := .accepted c.self.streamId chunk) rfl rfl rfl fun hs hcalls => ?_
    have hcall : (Event.accepted c.self.streamId chunk).isCall = true := by simpa [Event.isCall] using hchunk
    have hunfinished := hcalls.open hcall
    have hopen : ∀ e ∈ logOf c.self.streamId c.conn.log, e.isEnd = false := fun e he => by
      by_contra hend
      exact hunfinished (hs.ended ⟨e, he, by simpa using hend⟩).1
    have hjobs : (c.self.writeLock.acquire (.chunk chunk callback)).jobs = _ := WriteLock.jobs_acquire hs.free
    have howner := c.self.writeLock.acquire_owner (.chunk chunk callback)
    have hlocked := hs.withLock hopen (fun h => absurd h howner.1)
      ⟨_, by simp [hs.queue.of_not hunfinished], .inl hjobs⟩
    exact hlocked.passive rfl fun e he => List.mem_singleton.mp he ▸ ⟨rfl, rfl⟩

theorem issued (h : Stops c) : Stops (c.issued .writeHeaders) :=
  h.logged (e := .issued ..) ⟨rfl, rfl⟩

theorem prepared (h : Stops c) (hp : Prepared c c') : Stops c' := by
  cases hp with
  | undeclared => exact h.passive rfl rfl .refl
  | declared => exact h.passive rfl rfl (.snoc (e := .declared ..) ⟨rfl, rfl⟩)

theorem heads (h : Stops c) (hu : c.Unreset) {startLine : StartLine Bytes} {headers : HTTPHeaders Bytes}
    {chunk : Bytes} {callback : Option Nat} (hh : Heads c startLine headers chunk callback c') :
    Stops c' := by
  obtain @⟨data, c₁, _, _, hp, hopen, hw⟩ := hh
  refine call ?_ hw
  have hprepared : Stops c₁ := h.issued.prepared hp
  obtain ⟨hid, -⟩ := hp.self
  obtain ⟨es, hlog, hes⟩ := hp.log
  have hflag : (Event.wrote (c.headersFrame data)).isEnd = false := headersFrame_isSilent.2
  refine hprepared.event (e := .wrote (c.headersFrame data)) hid.symm rfl rfl fun hs hcalls => ?_
  have hopened : ∀ e ∈ logOf c₁.self.streamId c₁.conn.log, e.isEnd = false := by
    intro e he
    by_contra hend
    obtain ⟨e', he', hfinish⟩ := (hs.ended ⟨e, he, by simpa using hend⟩).1
    rw [hid, hlog, logOf_append] at he' hcalls
    have hissued : logOf c.self.streamId (c.issued .writeHeaders).conn.log =
        logOf c.self.streamId c.conn.log ++ [.issued c.self.streamId .writeHeaders] := logOf_snoc rfl
    rw [show (c.issued .writeHeaders).self.streamId = c.self.streamId from rfl, hissued] at he' hcalls
    rcases List.mem_append.mp he' with he' | he'
    · rcases List.mem_append.mp he' with he' | he'
      · exact hcalls.of_append.of_append.open rfl ⟨e', he', hfinish⟩
      · rw [List.mem_singleton.mp he'] at hfinish
        cases hfinish
    · obtain ⟨n, rfl⟩ := hes e' (mem_logOf.mp he').1
      cases hfinish
  refine hs.sends ((hu.prepared hp).closes (hp.closed.trans hopen) hopened) rfl hs.free hs.queue fun hend => ?_
  rw [hflag] at hend
  cases hend

theorem writeHeaders (h : Stops c) (hu : c.Unreset) {startLine : StartLine Bytes} {headers : HTTPHeaders Bytes}
    {chunk : Bytes} {callback : Option Nat} :
    Stops ((Stream.writeHeaders startLine headers chunk callback).run c).2 := by
  refine wp_state.mp (wp_mono Stream.writeHeaders_wp ?_ ?_) <;> intro _ c' hc' <;> cases hc' with
  | failed hp hr => exact (h.issued.prepared hp).resets hr
  | written hh hr => exact (h.heads hu hh).resets hr

/-- The stream's own response leaves it open. -/
theorem refuses (h : Stops c) (hu : c.Unreset) :
    wp (Stream.writeHeaders (.response 431) .empty [] none) (fun _ c' => Stops c' ∧ c'.Unreset)
      (fun _ c' => Stops c') c := by
  refine wp_mono Stream.writeHeaders_heads (fun _ c' hh => ⟨h.heads hu hh, ?_⟩) fun _ c' hc' => ?_
  · obtain @⟨data, c₁, _, _, hp, _, hw⟩ := hh
    have hheaders : (c₁.logged (.wrote (c.headersFrame data))).Unreset :=
      (hu.prepared hp).grows rfl rfl (.snoc rfl)
    cases hw with
    | rejected hchunk => exact absurd rfl hchunk
    | empty => exact hheaders.grows rfl rfl (.snoc rfl)
    | accepted hchunk => exact absurd rfl hchunk
  · cases hc' with
    | failed hp hr => exact (h.issued.prepared hp).resets hr
    | written hh hr => exact (h.heads hu hh).resets hr

theorem finished (h : Stops c) {lock : WriteLock}
    (hlock : lock = c.self.writeLock ∨ lock = c.self.writeLock.acquire .endStream) :
    Stops ((c.issued .finish).withLock lock) := by
  refine h.event (e := .issued c.self.streamId .finish) rfl rfl rfl fun hs hcalls => ?_
  have hunfinished := hcalls.open rfl
  have hopen : ∀ e ∈ logOf c.self.streamId c.conn.log, e.isEnd = false := fun e he => by
    by_contra hend
    exact hunfinished (hs.ended ⟨e, he, by simpa using hend⟩).1
  have hidle := hs.queue.of_not hunfinished
  have hfinish : ∃ e ∈ logOf c.self.streamId c.conn.log ++ [.issued c.self.streamId .finish],
      e.isFinish = true := ⟨.issued c.self.streamId .finish, by simp, rfl⟩
  have hnext : (lock.owner = .free → lock.waiters = []) ∧ EndsQueue True lock.jobs := by
    rcases hlock with rfl | rfl
    · exact ⟨hs.free, _, hidle, .inl rfl⟩
    · have howner := c.self.writeLock.acquire_owner .endStream
      exact ⟨fun h => absurd h howner.1, _, hidle, .inr ⟨trivial, WriteLock.jobs_acquire hs.free⟩⟩
  constructor
  · exact List.pairwise_append.mpr ⟨hs.silent, List.pairwise_singleton ..,
      fun _ _ e he _ => List.mem_singleton.mp he ▸ rfl⟩
  · exact hnext.1
  · obtain ⟨chunks, hchunks, hjobs⟩ := hnext.2
    exact ⟨chunks, hchunks, hjobs.imp_right fun h => ⟨hfinish, h.2⟩⟩
  · rintro ⟨e, he, hend⟩
    rcases List.mem_append.mp he with he | he
    · rw [hopen e he] at hend
      cases hend
    · rw [List.mem_singleton.mp he] at hend
      cases hend

theorem finish (h : Stops c) (hu : c.self.writeLock.owner = .free →
    c.self.outgoingContentRemaining.any (· ≠ 0) = false → c.Unreset) : Stops (Stream.finish.run c).2 := by
  refine wp_state.mp (wp_mono Stream.finish_wp ?_ ?_) <;> intro _ c' hf <;> cases hf with
  | short _ _ hr => exact (h.finished (.inl rfl)).resets hr
  | ends hremaining ha =>
    refine (h.finished (.inr rfl)).acquires (fun hfree _ => ?_) ha
    refine (hu hfree ?_).grows rfl rfl (.snoc rfl)
    cases hlength : c.self.outgoingContentRemaining with
    | none => rfl
    | some remaining => simp [hremaining remaining hlength]

theorem receives (h : Stops c) {i : Nat} (hr : ReceivesOnly i c c') : Stops c' := by
  have hself : c'.self.sending = c.self.sending := hr.self
  simp only [Stream.sending, Prod.mk.injEq] at hself
  exact h.passive hself.1 hself.2.2.1 (hr.log.mono fun _ he => he.isPassive.1)

end Stops

theorem Ctx.Unreset.receives {c c' : Ctx} {i : Nat} (hu : c.Unreset) (hr : ReceivesOnly i c c') :
    c'.Unreset := by
  have hclosed : c'.conn.closed = c.conn.closed := congrArg (fun t => t.2.2.2.2.2.2) hr.conn
  exact hu.grows hr.acts.self hclosed (hr.log.mono fun _ he => he.isPassive.2)

namespace Stops

variable {c c' : Ctx}

theorem windowUpdate (h : Stops c) {frame : Frame} :
    Stops ((Stream.handleWindowUpdateFrame frame).run c).2 := by
  refine wp_state.mp ?_
  simp only [Stream.handleWindowUpdateFrame, wp_bind, wp_get, wp_zoom]
  refine wp_mono (wp_state.mpr trivial : wp (Window.applyWindowUpdate frame) (fun _ _ => True)
    (fun _ _ => True) _) (fun _ _ _ => ?_) fun _ _ _ => ?_
  · exact h.passive rfl rfl (.snoc (e := .credited ..) ⟨rfl, rfl⟩)
  · exact h.passive rfl rfl .refl

theorem handleFrame (h : Stops c) {frame : Frame} {later : Bool}
    (hu : c.conn.isClient = false → c.self.exceeds c.conn.params.maxHeaderSize frame = true → c.Unreset) :
    Stops ((Stream.handleFrame frame later).run c).2 := by
  by_cases hupdate : frame.type = .windowUpdate
  · rw [Stream.handleFrame_windowUpdate hupdate]
    exact h.windowUpdate
  · by_cases hfits : c.conn.isClient = true ∨ c.self.exceeds c.conn.params.maxHeaderSize frame = false
    · exact h.receives (Stream.handleFrame_receives_of_fits hupdate hfits)
    · simp only [not_or, Bool.not_eq_true, Bool.not_eq_false] at hfits
      have hrefuses : Stream.Refuses (fun c => Stops c ∧ c.Unreset) Stops :=
        { before := fun h hr => ⟨h.1.receives hr, h.2.receives hr⟩
          after := fun h hr => h.receives hr
          le := fun h => h.1
          write := fun h => h.1.refuses h.2
          finish := fun h => h.1.finish fun _ _ => h.2 }
      exact hrefuses.handleFrame hupdate ⟨h, hu hfits.1 hfits.2⟩

theorem reset (h : Stops c) : Stops (Stream.reset.run c).2 :=
  wp_state.mp (Stream.reset_wp (fun _ => h) (h.resets (.inr rfl)))

theorem write (h : Stops c) {chunk : Bytes} {callback : Option Nat} :
    Stops ((Stream.write chunk callback).run c).2 :=
  wp_state.mp (wp_mono Stream.write_wp (fun _ _ hw => h.call hw) fun _ _ hw => h.call hw)

theorem resume (h : Stops c) (hu : c.self.writeLock.writesNext = true → c.Unreset) {flushed : Bool} :
    Stops ((Stream.resume flushed).run c).2 :=
  wp_state.mp (wp_mono (E := fun _ => Stops) Stream.resume_wp (fun _ _ hs => h.slice hu hs) fun _ _ h => h)

end Stops

theorem stable_stopsSending : Stable StopsSending fun _ => True where
  quiet _ _ := trivial
  noise he h hcalls :=
    (h hcalls.of_append).passive rfl fun _ he' => List.mem_singleton.mp he' ▸ he.isPassive
  new := by
    intro c i hasDelegate log requestStartLine _ hlog _
    have hnew : Silence { Stream.new c i hasDelegate with requestStartLine } [] := by
      constructor
      · exact List.Pairwise.nil
      · exact fun _ => rfl
      · exact ⟨[], by simp, .inl rfl⟩
      · simp
    refine hnew.passive rfl fun e he => ?_
    rcases List.mem_append.mp he with he | he
    · exact (hlog e he).isPassive
    · rw [List.mem_singleton.mp he]
      exact ⟨rfl, rfl⟩

/-- RST_STREAM has been received or written on the stream. -/
def System.IsReset (s : System) (i : Nat) : Prop := ∃ e ∈ logOf i s.conn.log, e.isReset = true

/-- While the socket is open, a stream that has been reset is not asked for
headers, does not come to END_STREAM, and has no writer that goes on with a frame. -/
def StaysSilent (s : System) : System.Action → Prop
  | .receive frame _ => s.Reads frame → s.conn.isClient = false → s.conn.closed = false →
      s.IsReset frame.streamId → (s.streamOf frame).exceeds s.conn.params.maxHeaderSize frame = false
  | .writeHeaders i _ _ _ _ => s.conn.closed = false → ¬ s.IsReset i
  | .finish i => s.conn.closed = false → s.IsReset i → ∀ self ∈ s.streams i,
      self.writeLock.owner = .free → self.outgoingContentRemaining.any (· ≠ 0) = true
  | .resume i _ => s.conn.closed = false → s.IsReset i → ∀ self ∈ s.streams i,
      self.writeLock.writesNext = false
  | _ => True

instance (s : System) (i : Nat) : Decidable (s.IsReset i) := inferInstanceAs (Decidable (∃ e ∈ _, _))

instance (s : System) : (a : System.Action) → Decidable (StaysSilent s a)
  | .receive frame _ => inferInstanceAs (Decidable (s.Reads frame → s.conn.isClient = false → _))
  | .writeHeaders i _ _ _ _ => inferInstanceAs (Decidable (s.conn.closed = false → ¬ s.IsReset i))
  | .finish i => inferInstanceAs (Decidable (s.conn.closed = false → s.IsReset i → _))
  | .resume i _ => inferInstanceAs (Decidable (s.conn.closed = false → s.IsReset i → _))
  | .createStream | .upgrade .. | .write .. | .reset .. | .resolve .. | .goawayFlushed | .disconnect =>
    isTrue trivial

theorem System.unreset {s : System} {self : Stream}
    (h : s.conn.closed = false → ¬ s.IsReset self.streamId) : Ctx.Unreset ⟨s.conn, self⟩ := by
  intro hopen e he
  by_contra hreset
  exact h hopen ⟨e, he, by simpa using hreset⟩

/-- Every stream stops sending. -/
structure StopsInvariant (s : System) : Prop where
  wellFormed : s.WellFormed
  streams : s.All StopsSending

theorem StopsInvariant.step {s : System} (h : StopsInvariant s) {a : System.Action}
    (ha : StaysSilent s a) : StopsInvariant (s.step a) := by
  refine ⟨h.wellFormed.step a, ?_⟩
  refine (System.All.step (a := a) stable_stopsSending h.wellFormed h.streams trivial
    (fun _ _ _ _ _ _ _ _ => trivial) ?_ ?_).1
  · rintro frame later c rfl hreads _ hmeets hid hc
    obtain ⟨hclient, hparams, -, -, hclosed⟩ : c.conn.isClient = s.conn.isClient ∧
        c.conn.params = s.conn.params ∧ c.conn.settings = s.conn.settings ∧
          c.conn.nextStreamId = s.conn.nextStreamId ∧ c.conn.closed = s.conn.closed := by
      simpa only [Conn.fixed, Prod.mk.injEq] using hmeets.fixed
    refine Stops.handleFrame hc fun hserver hexceeds hopen e he => ?_
    rw [hmeets.self, hparams] at hexceeds
    by_contra hreset
    obtain ⟨es, hlog, hes⟩ := hmeets.log
    rw [hid, hlog, logOf_append, List.mem_append] at he
    rcases he with he | he
    · have hfits := ha hreads (hclient ▸ hserver) (hclosed ▸ hopen) ⟨e, he, by simpa using hreset⟩
      rw [hexceeds] at hfits
      cases hfits
    · rcases hes e (mem_logOf.mp he).1 with rfl | ⟨_, rfl⟩ | rfl
      · rcases Stream.exceeds_type hexceeds with htype | htype <;> simp [Event.isReset, htype] at hreset
      · exact hreset rfl
      · exact hreset rfl
  · intro i m self hm hself hid hc
    cases a <;> simp only [System.Action.method, reduceCtorEq, Option.some.injEq, Prod.mk.injEq] at hm <;>
      obtain ⟨rfl, rfl⟩ := hm
    case writeHeaders => exact Stops.writeHeaders hc (System.unreset (hid ▸ ha))
    case write => exact Stops.write hc
    case finish =>
      refine Stops.finish hc fun hfree hlength => System.unreset fun hopen hreset => ?_
      have hremaining := ha hopen (hid ▸ hreset) self hself hfree
      rw [hlength] at hremaining
      cases hremaining
    case reset => exact Stops.reset hc
    case resume =>
      refine Stops.resume hc fun hnext => System.unreset fun hopen hreset => ?_
      rw [ha hopen (hid ▸ hreset) self hself] at hnext
      cases hnext
    case resolve => exact Stops.receives hc (Stream.resolveData_receives ⟨s.conn, self⟩ rfl).2

/-- A run in which every stream that is reset also stops its writers. -/
theorem sending_stops {isClient : Bool} {params : Params} {actions : List System.Action}
    (h : Runs.Along System.step StaysSilent (System.start isClient params) actions) {i : Nat} {self : Stream}
    (hself : ((System.start isClient params).run actions).streams i = some self)
    (hcalls : FinishesLast (logOf i ((System.start isClient params).run actions).conn.log)) :
    SilentOnceClosed (logOf i ((System.start isClient params).run actions).conn.log) := by
  have hinv : StopsInvariant ((System.start isClient params).run actions) :=
    Runs.invariant (fun _ _ hs ha => hs.step ha)
      ⟨.start isClient params, by simp [System.All, System.start]⟩ h
  exact (hinv.streams hself hcalls).silent

/-- A request, and an answer whose body waits for credit. -/
def System.blockedAnswer : List System.Action :=
  [.receive ⟨.settings, 0, 0, [0, 4, 0, 0, 0, 0]⟩ false, .receive (System.requestFrame 1 0x5) false,
    .writeHeaders 1 (.response 200) .empty [1, 2, 3] none]

/-- The writer goes on after RST_STREAM when the credit comes. -/
theorem sending_goes_on :
    let log := logOf 1 ((System.start false (.new none .caseless)).run (System.blockedAnswer ++
      [.receive ⟨.rstStream, 0, 1, [0, 0, 0, 8]⟩ false, .receive ⟨.windowUpdate, 0, 1, [0, 0, 0, 9]⟩ false,
        .resume 1 true, .resume 1 true, .resume 1 true])).conn.log
    FinishesLast log ∧ ¬ SilentOnceClosed log := by
  decide +kernel

/-- Without credit it waits on, and `finish` after it. -/
def System.resetActions : List System.Action :=
  System.blockedAnswer ++ [.receive ⟨.rstStream, 0, 1, [0, 0, 0, 8]⟩ false, .finish 1]

theorem sending_stops_reset :
    let log := logOf 1 ((System.start false (.new none .caseless)).run System.resetActions).conn.log
    (∃ e ∈ log, e.isReset = true) ∧ SilentOnceClosed log := by
  obtain ⟨self, hself⟩ : ∃ self,
      ((System.start false (.new none .caseless)).run System.resetActions).streams 1 = some self :=
    Option.isSome_iff_exists.mp (by decide +kernel)
  exact ⟨by decide +kernel, sending_stops (by decide +kernel) hself (by decide +kernel)⟩

end TornadoHttp2
