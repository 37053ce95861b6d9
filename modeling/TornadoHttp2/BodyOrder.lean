import TornadoHttp2.Histories
import TornadoHttp2.Writers
import TornadoHttp2.WriteQueue

/-! The body of a stream is sent in order and complete, and agrees with the
content length, whatever the order in which its writers run. -/

namespace TornadoHttp2

open Prog

namespace Event

def body : Event → Bytes
  | wrote frame => if frame.type = .data then frame.data else []
  | _ => []

def acceptedBody : Event → Bytes
  | accepted _ chunk => chunk
  | _ => []

/-- The events that are neither a call of the application nor a part of the body. -/
def isSilent : Event → Prop
  | issued _ _ => False
  | declared _ _ => False
  | accepted _ _ => False
  | e => e.isData = false ∧ e.isEnd = false

end Event

def bodyOf (log : List Event) : Bytes := log.flatMap Event.body

def acceptedOf (log : List Event) : Bytes := log.flatMap Event.acceptedBody

/-- Where the application stands with a stream. -/
inductive CallPhase
  | idle | opened | closed
  deriving DecidableEq

/-- One `write_headers`, then writes, then at most one `finish`. -/
def CallPhase.next : CallPhase → Event → Option CallPhase
  | phase, .issued _ .writeHeaders => if phase = .idle then some .opened else none
  | phase, .issued _ .finish => if phase = .opened then some .closed else none
  | phase, .accepted _ _ => if phase = .opened then some .opened else none
  | phase, _ => some phase

def callPhase (log : List Event) : Option CallPhase := log.foldlM CallPhase.next .idle

def CallsInOrder (log : List Event) : Prop := (callPhase log).isSome

instance (log : List Event) : Decidable (CallsInOrder log) := inferInstanceAs (Decidable (_ = true))

/-- One frame, which has no data, ends the stream, and no DATA frame comes after it. -/
def EndsLast (log : List Event) : Prop := ∃ before e after, log = before ++ e :: after ∧ e.body = [] ∧
  (∀ e ∈ before, e.isEnd = false) ∧ ∀ e ∈ after, e.isData = false ∧ e.isEnd = false

structure Sending (phase : CallPhase) (s : Stream) (log : List Event) : Prop where
  calls : callPhase log = some phase
  order : s.writeLock.owner ≠ .lost → bodyOf log ++ s.writeLock.pending = acceptedOf log
  sent : bodyOf log <+: acceptedOf log
  free : s.writeLock.owner = .free → s.writeLock.waiters = []
  queue : EndsQueue (phase = .closed) s.writeLock.jobs
  ended : (∀ e ∈ log, e.isEnd = false) ∨
    phase = .closed ∧ s.writeLock = ⟨.free, []⟩ ∧ EndsLast log
  idle : phase = .idle → acceptedOf log = [] ∧ ∀ n, .declared s.streamId n ∉ log
  length {n : Int} : .declared s.streamId n ∈ log → ∃ remaining,
    s.outgoingContentRemaining = some remaining ∧
      (0 ≤ remaining → remaining = n - (acceptedOf log).length) ∧ (acceptedOf log).length ≤ n.toNat
  exact {n : Int} : .declared s.streamId n ∈ log →
    (.endStream ∈ s.writeLock.jobs ∨ ∃ e ∈ log, e.isEnd = true) → ((acceptedOf log).length : Int) = n

/-- What a stream whose calls come in order keeps. -/
def SendsInOrder (self : Stream) (log : List Event) : Prop :=
  CallsInOrder log → ∃ phase, Sending phase self log

section

variable {log log' es : List Event} {e : Event} {phase : CallPhase}

@[simp] theorem bodyOf_append : bodyOf (log ++ log') = bodyOf log ++ bodyOf log' := List.flatMap_append

@[simp] theorem acceptedOf_append : acceptedOf (log ++ log') = acceptedOf log ++ acceptedOf log' :=
  List.flatMap_append

theorem callPhase_append : callPhase (log ++ log') = (callPhase log).bind fun phase =>
    log'.foldlM CallPhase.next phase := List.foldlM_append

theorem CallsInOrder.of_append (h : CallsInOrder (log ++ log')) : CallsInOrder log := by
  rw [CallsInOrder, callPhase_append] at h
  exact Option.isSome_of_isSome_bind h

theorem Event.isSilent.next (h : e.isSilent) : phase.next e = some phase := by
  cases e <;> first | rfl | exact h.elim

theorem Event.isSilent.parts (h : e.isSilent) :
    e.body = [] ∧ e.acceptedBody = [] ∧ e.isData = false ∧ e.isEnd = false := by
  cases e with
  | wrote frame =>
    refine ⟨if_neg fun hdata => ?_, rfl, h⟩
    simp [isSilent, isData, hdata] at h
  | issued | declared | accepted => exact h.elim
  | _ => exact ⟨rfl, rfl, rfl, rfl⟩

theorem Event.ofReceiving.isSilent {i : Nat} (h : e.ofReceiving i) : e.isSilent := by
  cases e with
  | wrote frame => simp [Event.isSilent, isData, isEnd, h.1]
  | called | decoded => exact ⟨rfl, rfl⟩
  | _ => exact h.elim

theorem Event.isNoise.isSilent (h : e.isNoise) : e.isSilent := by
  cases e with
  | wrote frame => rcases h with h | h <;> simp [Event.isSilent, isData, isEnd, h]
  | received | startRequest => exact ⟨rfl, rfl⟩
  | _ => exact h.elim

theorem Event.isRefusal.isSilent (h : e.isRefusal) : e.isSilent := by
  cases e with
  | wrote frame => simp [Event.isSilent, isData, isEnd, show frame.type = .rstStream from h]
  | received => exact ⟨rfl, rfl⟩
  | _ => exact h.elim

theorem headersFrame_isSilent {c : Ctx} {data : Bytes} : (Event.wrote (c.headersFrame data)).isSilent := by
  have hflag : FrameFlag.endHeaders.value &&& FrameFlag.endStream.value = 0 := by decide
  simp [Event.isSilent, Event.isData, Event.isEnd, Ctx.headersFrame, Frame.has, hflag]

theorem bodyOf_silent (h : ∀ e ∈ es, e.isSilent) : bodyOf es = [] :=
  List.flatMap_eq_nil_iff.mpr fun e he => (h e he).parts.1

theorem acceptedOf_silent (h : ∀ e ∈ es, e.isSilent) : acceptedOf es = [] :=
  List.flatMap_eq_nil_iff.mpr fun e he => (h e he).parts.2.1

theorem callPhase_silent (h : ∀ e ∈ es, e.isSilent) : callPhase (log ++ es) = callPhase log := by
  have fold (phase : CallPhase) : es.foldlM CallPhase.next phase = some phase := by
    induction es with
    | nil => rfl
    | cons e es ih =>
      rw [List.foldlM_cons, (h e List.mem_cons_self).next]
      exact ih fun e he => h e (List.mem_cons_of_mem _ he)
  rw [callPhase_append]
  simp [fold]

theorem EndsLast.silent (h : EndsLast log) (hes : ∀ e ∈ es, e.isSilent) : EndsLast (log ++ es) := by
  obtain ⟨before, e, after, rfl, hbody, hbefore, hafter⟩ := h
  refine ⟨before, e, after ++ es, by simp, hbody, hbefore, fun e he => ?_⟩
  exact (List.mem_append.mp he).elim (hafter e) fun he => (hes e he).parts.2.2

end

namespace Sending

variable {phase : CallPhase} {s s' : Stream} {log es : List Event}

theorem silent (h : Sending phase s log) (hid : s'.streamId = s.streamId)
    (hlock : s'.writeLock = s.writeLock)
    (hlength : s'.outgoingContentRemaining = s.outgoingContentRemaining) (hes : ∀ e ∈ es, e.isSilent) :
    Sending phase s' (log ++ es) := by
  have hbody : bodyOf (log ++ es) = bodyOf log := by simp [bodyOf_silent hes]
  have haccepted : acceptedOf (log ++ es) = acceptedOf log := by simp [acceptedOf_silent hes]
  have hdeclared {n : Int} : .declared s'.streamId n ∈ log ++ es ↔ .declared s.streamId n ∈ log := by
    rw [List.mem_append, hid]
    exact or_iff_left fun he => hes _ he
  have hend : (∃ e ∈ log ++ es, e.isEnd = true) ↔ ∃ e ∈ log, e.isEnd = true := by
    refine ⟨fun ⟨e, he, h⟩ => ?_, fun ⟨e, he, h⟩ => ⟨e, List.mem_append_left _ he, h⟩⟩
    rcases List.mem_append.mp he with he | he
    · exact ⟨e, he, h⟩
    · simp [(hes e he).parts.2.2.2] at h
  constructor
  · rw [callPhase_silent hes, h.calls]
  · rw [hlock, hbody, haccepted]
    exact h.order
  · rw [hbody, haccepted]
    exact h.sent
  · rw [hlock]
    exact h.free
  · rw [hlock]
    exact h.queue
  · rw [hlock]
    refine h.ended.imp (fun h e he => ?_) fun ⟨hphase, hfree, hlast⟩ => ⟨hphase, hfree, hlast.silent hes⟩
    exact (List.mem_append.mp he).elim (h e) fun he => (hes e he).parts.2.2.2
  · intro hidle
    rw [haccepted]
    exact ⟨(h.idle hidle).1, fun n hn => (h.idle hidle).2 n (hdeclared.mp hn)⟩
  · intro n hn
    rw [haccepted, hlength]
    exact h.length (hdeclared.mp hn)
  · intro n hn hends
    rw [hlock, hend] at hends
    rw [haccepted]
    exact h.exact (hdeclared.mp hn) hends

theorem congr (h : Sending phase s log) (hid : s'.streamId = s.streamId)
    (hlock : s'.writeLock = s.writeLock)
    (hlength : s'.outgoingContentRemaining = s.outgoingContentRemaining) : Sending phase s' log :=
  List.append_nil log ▸ h.silent hid hlock hlength fun _ he => absurd he List.not_mem_nil

/-- Another lock with the same bytes to write. -/
theorem withLock (h : Sending phase s log) {lock : WriteLock} (hopen : ∀ e ∈ log, e.isEnd = false)
    (horder : lock.owner ≠ .lost → s.writeLock.owner ≠ .lost ∧ lock.pending = s.writeLock.pending)
    (hfree : lock.owner = .free → lock.waiters = []) (hqueue : EndsQueue (phase = .closed) lock.jobs)
    (hend : .endStream ∈ lock.jobs → .endStream ∈ s.writeLock.jobs) :
    Sending phase { s with writeLock := lock } log where
  calls := h.calls
  order hlost := (horder hlost).2 ▸ h.order (horder hlost).1
  sent := h.sent
  free := hfree
  queue := hqueue
  ended := .inl hopen
  idle := h.idle
  length := h.length
  exact hn hends := h.exact hn (hends.imp_left hend)

theorem opened (h : Sending phase s log) {job : Job} {point : YieldPoint}
    (howner : s.writeLock.owner = .writer job point) : ∀ e ∈ log, e.isEnd = false :=
  h.ended.resolve_right fun ⟨_, hfree, _⟩ => by simp [hfree] at howner

/-- The owner goes on with the same job. -/
theorem withOwner (h : Sending phase s log) {job : Job} {point point' : YieldPoint}
    (howner : s.writeLock.owner = .writer job point) :
    Sending phase { s with writeLock := { s.writeLock with owner := .writer job point' } } log := by
  have hjobs : WriteLock.jobs { s.writeLock with owner := .writer job point' } = s.writeLock.jobs := by
    simp only [WriteLock.jobs, howner]
  refine h.withLock (h.opened howner) (fun _ => ⟨by simp [howner], ?_⟩) (by simp) (hjobs ▸ h.queue)
    (hjobs ▸ id)
  rw [WriteLock.pending, WriteLock.pending, hjobs]

/-- The owner is done and has nothing left to write. -/
theorem released (h : Sending phase s log) {job : Job} {point : YieldPoint}
    (howner : s.writeLock.owner = .writer job point) (hbytes : job.bytes = []) :
    Sending phase { s with writeLock := s.writeLock.release } log := by
  obtain ⟨hjobs, hlost, hfree⟩ := WriteLock.jobs_release howner
  refine h.withLock (h.opened howner) (fun _ => ⟨by simp [howner], ?_⟩) hfree
    (hjobs ▸ h.queue).tail.1 fun hmem => ?_
  · simp [WriteLock.pending, hjobs, hbytes]
  · rw [hjobs]
    exact List.mem_cons_of_mem _ hmem

/-- The owner ended without releasing the lock. -/
theorem lost (h : Sending phase s log) {job : Job} {point : YieldPoint}
    (howner : s.writeLock.owner = .writer job point) :
    Sending phase { s with writeLock := { s.writeLock with owner := .lost } } log := by
  have hjobs := WriteLock.jobs_writer howner
  refine h.withLock (h.opened howner) (fun hlost => absurd rfl hlost) nofun (hjobs ▸ h.queue).tail.1
    fun hmem => ?_
  rw [hjobs]
  exact List.mem_cons_of_mem _ hmem

/-- A piece of the owner's chunk is written. -/
theorem writes (h : Sending phase s log) {chunk : Bytes} {callback : Option Nat} {point : YieldPoint}
    (howner : s.writeLock.owner = .writer (.chunk chunk callback) point) {n : Nat} {frame : Frame}
    (htype : frame.type = .data) (hend : frame.has .endStream = false) (hdata : frame.data = chunk.take n) :
    Sending phase { s with writeLock := { s.writeLock with
      owner := .writer (.chunk (chunk.drop n) callback) .flush } } (log ++ [.wrote frame]) := by
  have hjobs := WriteLock.jobs_writer howner
  have hbody : bodyOf (log ++ [.wrote frame]) = bodyOf log ++ chunk.take n := by
    simp [bodyOf, Event.body, htype, hdata]
  have haccepted : acceptedOf (log ++ [.wrote frame]) = acceptedOf log := by
    simp [acceptedOf, Event.acceptedBody]
  have horder : bodyOf log ++ chunk ++ s.writeLock.waiters.flatMap Job.bytes = acceptedOf log := by
    have h := h.order (by simp [howner])
    simpa [WriteLock.pending, hjobs, Job.bytes] using h
  have hsplit : bodyOf log ++ chunk.take n ++
      (chunk.drop n ++ s.writeLock.waiters.flatMap Job.bytes) = acceptedOf log := by
    rw [← horder, List.append_assoc, ← List.append_assoc (chunk.take n), List.take_append_drop,
      List.append_assoc]
  have hopen := h.opened howner
  have hnew : ∀ e ∈ log ++ [.wrote frame], e.isEnd = false :=
    List.forall_mem_append.mpr ⟨hopen, List.forall_mem_singleton.mpr (by simp [Event.isEnd, hend])⟩
  constructor
  · rw [callPhase_append, h.calls]
    rfl
  · rw [hbody, haccepted, ← hsplit]
    exact fun _ => rfl
  · rw [hbody, haccepted, ← hsplit]
    exact List.prefix_append ..
  · simp
  · exact (hjobs ▸ h.queue).tail.1.cons
  · exact .inl hnew
  · rw [haccepted]
    simpa using h.idle
  · intro m hm
    rw [haccepted]
    exact h.length (by simpa using hm)
  · rintro m hm (hmem | ⟨e, he, hend⟩)
    · rw [haccepted]
      refine h.exact (by simpa using hm) (.inl ?_)
      rw [hjobs]
      simpa [WriteLock.jobs] using hmem
    · rw [hnew e he] at hend
      cases hend

/-- The frame that ends the stream is written. -/
theorem ends (h : Sending phase s log) {point : YieldPoint}
    (howner : s.writeLock.owner = .writer .endStream point) {frame : Frame} (hdata : frame.data = []) :
    Sending phase { s with writeLock := s.writeLock.release } (log ++ [.wrote frame]) := by
  obtain ⟨hjobs, -, -⟩ := WriteLock.jobs_release howner
  obtain ⟨hrest, hclosed⟩ := (hjobs ▸ h.queue).tail.2 rfl
  have hwaiters : s.writeLock.waiters = [] :=
    (List.cons.inj ((WriteLock.jobs_writer howner).symm.trans hjobs)).2.trans hrest
  have hrelease : s.writeLock.release = ⟨.free, []⟩ := by simp only [WriteLock.release, hwaiters]
  have hbody : bodyOf (log ++ [.wrote frame]) = bodyOf log := by
    simp [bodyOf, Event.body, hdata]
  have haccepted : acceptedOf (log ++ [.wrote frame]) = acceptedOf log := by
    simp [acceptedOf, Event.acceptedBody]
  have hsent : bodyOf log = acceptedOf log := by
    have horder := h.order (by simp [howner])
    rwa [WriteLock.pending, hjobs, hrest, show [Job.endStream].flatMap Job.bytes = [] from rfl,
      List.append_nil] at horder
  constructor
  · rw [callPhase_append, h.calls]
    rfl
  · rw [hbody, haccepted, hrelease, hsent]
    exact fun _ => List.append_nil _
  · exact (hbody.trans (hsent.trans haccepted.symm)) ▸ List.prefix_refl _
  · exact fun _ => congrArg WriteLock.waiters hrelease
  · rw [hrelease]
    exact ⟨[], by simp, .inl rfl⟩
  · exact .inr ⟨hclosed, hrelease, log, .wrote frame, [], rfl, by simp [Event.body, hdata],
      h.opened howner, by simp⟩
  · rw [haccepted]
    simpa using h.idle
  · intro n hn
    rw [haccepted]
    exact h.length (by simpa using hn)
  · intro n hn _
    rw [haccepted]
    refine h.exact (by simpa using hn) (.inl ?_)
    rw [hjobs]
    exact List.mem_cons_self

/-- A chunk is accepted and comes to the lock. -/
theorem accepts (h : Sending phase s log) {chunk : Bytes} {callback : Option Nat} {counted : Option Int}
    (hcalls : CallsInOrder (log ++ [.accepted s.streamId chunk]))
    (hcounted : counted = s.outgoingContentRemaining.map (· - (chunk.length : Int)))
    (hfits : chunk ≠ [] → ∀ remaining, s.outgoingContentRemaining = some remaining →
      (chunk.length : Int) ≤ remaining)
    {lock : WriteLock} (hlock : chunk = [] ∧ lock = s.writeLock ∨
      lock = s.writeLock.acquire (.chunk chunk callback)) :
    Sending .opened { s with outgoingContentRemaining := counted, writeLock := lock }
      (log ++ [.accepted s.streamId chunk]) := by
  have hphase : phase = .opened := by
    by_contra hne
    rw [CallsInOrder, callPhase_append, h.calls] at hcalls
    simp [CallPhase.next, hne] at hcalls
  subst hphase
  have hopen : ∀ e ∈ log, e.isEnd = false := h.ended.resolve_right nofun
  have hnew : ∀ e ∈ log ++ [.accepted s.streamId chunk], e.isEnd = false :=
    List.forall_mem_append.mpr ⟨hopen, List.forall_mem_singleton.mpr rfl⟩
  have hbody : bodyOf (log ++ [.accepted s.streamId chunk]) = bodyOf log := by
    simp [bodyOf, Event.body]
  have haccepted : acceptedOf (log ++ [.accepted s.streamId chunk]) = acceptedOf log ++ chunk := by
    simp [acceptedOf, Event.acceptedBody]
  have hidle := h.queue.of_not nofun
  have hqueue : .endStream ∉ lock.jobs ∧ (lock.owner = .lost → s.writeLock.owner = .lost) ∧
      (lock.owner ≠ .lost → s.writeLock.owner ≠ .lost) ∧ lock.pending = s.writeLock.pending ++ chunk ∧
        (lock.owner = .free → lock.waiters = []) := by
    rcases hlock with ⟨rfl, rfl⟩ | rfl
    · exact ⟨hidle, id, id, (List.append_nil _).symm, h.free⟩
    · have howner := s.writeLock.acquire_owner (.chunk chunk callback)
      refine ⟨?_, howner.2.mp, fun h => howner.2.not.mp h, ?_, fun h => absurd h howner.1⟩
      · simp [WriteLock.jobs_acquire h.free, hidle]
      · simp [WriteLock.pending, WriteLock.jobs_acquire h.free, Job.bytes]
  obtain ⟨hjobs, -, hlost, hpending, hfree⟩ := hqueue
  constructor
  · rw [callPhase_append, h.calls]
    rfl
  · intro hne
    rw [hbody, haccepted, hpending, ← List.append_assoc, h.order (hlost hne)]
  · rw [hbody, haccepted]
    exact h.sent.trans (List.prefix_append ..)
  · exact hfree
  · exact ⟨lock.jobs, hjobs, .inl rfl⟩
  · exact .inl hnew
  · exact nofun
  · intro n hn
    obtain ⟨remaining, hremaining, hcount, hbound⟩ := h.length (n := n) (by simpa using hn)
    refine ⟨remaining - chunk.length, by simp [hcounted, hremaining], fun hpos => ?_, ?_⟩
    · rw [haccepted, List.length_append]
      have := hcount (by omega)
      omega
    · rw [haccepted, List.length_append]
      by_cases hchunk : chunk = []
      · simpa [hchunk] using hbound
      · have hle := hfits hchunk remaining hremaining
        have := hcount (by omega)
        omega
  · rintro n - (hmem | ⟨e, he, hend⟩)
    · exact absurd hmem hjobs
    · rw [hnew e he] at hend
      cases hend

/-- A chunk that the content length does not allow is counted but not accepted. -/
theorem rejects (h : Sending phase s log) {remaining : Int} {chunk : Bytes}
    (hremaining : s.outgoingContentRemaining = some remaining) (hover : remaining < chunk.length) :
    Sending phase { s with outgoingContentRemaining :=
      s.outgoingContentRemaining.map (· - (chunk.length : Int)) } log where
  calls := h.calls
  order := h.order
  sent := h.sent
  free := h.free
  queue := h.queue
  ended := h.ended
  idle := h.idle
  length hn := by
    obtain ⟨_, _, _, hbound⟩ := h.length hn
    refine ⟨remaining - chunk.length, by simp [hremaining], fun hpos => ?_, hbound⟩
    exact absurd hpos (by omega)
  exact := h.exact

/-- `finish` is called: `lock` is what becomes of the lock. -/
theorem finishes (h : Sending phase s log) (hcalls : CallsInOrder (log ++ [.issued s.streamId .finish]))
    {lock : WriteLock} (hlock : lock = s.writeLock ∨ lock = s.writeLock.acquire .endStream ∧
      ∀ remaining, s.outgoingContentRemaining = some remaining → remaining = 0) :
    Sending .closed { s with writeLock := lock } (log ++ [.issued s.streamId .finish]) := by
  have hphase : phase = .opened := by
    by_contra hne
    rw [CallsInOrder, callPhase_append, h.calls] at hcalls
    simp [CallPhase.next, hne] at hcalls
  subst hphase
  have hopen : ∀ e ∈ log, e.isEnd = false := h.ended.resolve_right nofun
  have hnew : ∀ e ∈ log ++ [.issued s.streamId .finish], e.isEnd = false :=
    List.forall_mem_append.mpr ⟨hopen, List.forall_mem_singleton.mpr rfl⟩
  have hbody : bodyOf (log ++ [.issued s.streamId .finish]) = bodyOf log := by
    simp [bodyOf, Event.body]
  have haccepted : acceptedOf (log ++ [.issued s.streamId .finish]) = acceptedOf log := by
    simp [acceptedOf, Event.acceptedBody]
  have hidle := h.queue.of_not nofun
  have hqueue : EndsQueue (CallPhase.closed = .closed) lock.jobs ∧ (lock.owner ≠ .lost → s.writeLock.owner ≠ .lost) ∧
      lock.pending = s.writeLock.pending ∧ (lock.owner = .free → lock.waiters = []) ∧
        (.endStream ∈ lock.jobs → ∀ remaining, s.outgoingContentRemaining = some remaining →
          remaining = 0) := by
    rcases hlock with rfl | ⟨rfl, hremaining⟩
    · exact ⟨⟨_, hidle, .inl rfl⟩, id, rfl, h.free, fun h => absurd h hidle⟩
    · have howner := s.writeLock.acquire_owner .endStream
      refine ⟨⟨s.writeLock.jobs, hidle, .inr ⟨rfl, WriteLock.jobs_acquire h.free⟩⟩,
        fun h => howner.2.not.mp h, ?_, fun h => absurd h howner.1, fun _ => hremaining⟩
      simp [WriteLock.pending, WriteLock.jobs_acquire h.free, Job.bytes]
  obtain ⟨hjobs, hlost, hpending, hfree, hzero⟩ := hqueue
  constructor
  · rw [callPhase_append, h.calls]
    rfl
  · intro hne
    rw [hbody, haccepted, hpending, h.order (hlost hne)]
  · rw [hbody, haccepted]
    exact h.sent
  · exact hfree
  · exact hjobs
  · exact .inl hnew
  · exact nofun
  · intro n hn
    rw [haccepted]
    exact h.length (by simpa using hn)
  · rintro n hn (hmem | ⟨e, he, hend⟩)
    · obtain ⟨remaining, hremaining, hcount, -⟩ := h.length (n := n) (by simpa using hn)
      have hz := hzero hmem remaining hremaining
      have := hcount hz.ge
      rw [haccepted]
      omega
    · rw [hnew e he] at hend
      cases hend

/-- `write_headers` is called, and a content length may be declared. -/
theorem heads (h : Sending phase s log)
    (hcalls : CallsInOrder (log ++ [.issued s.streamId .writeHeaders])) (length : Option Int) :
    Sending .opened { s with outgoingContentRemaining := length.or s.outgoingContentRemaining }
      (log ++ [.issued s.streamId .writeHeaders] ++
        (length.map fun n => Event.declared s.streamId n).toList) := by
  have hphase : phase = .idle := by
    by_contra hne
    rw [CallsInOrder, callPhase_append, h.calls] at hcalls
    simp [CallPhase.next, hne] at hcalls
  subst hphase
  obtain ⟨hempty, hnone⟩ := h.idle rfl
  have hopen : ∀ e ∈ log, e.isEnd = false := h.ended.resolve_right nofun
  rw [List.append_assoc]
  generalize hes : [Event.issued s.streamId .writeHeaders] ++
    (length.map fun n => Event.declared s.streamId n).toList = es
  have hnew : ∀ e ∈ log ++ es, e.isEnd = false := by
    intro e he
    rcases List.mem_append.mp he with he | he
    · exact hopen e he
    · rw [← hes] at he
      cases length <;> simp at he <;> rcases he with rfl | rfl <;> rfl
  have hbody : bodyOf (log ++ es) = bodyOf log := by
    rw [bodyOf_append, ← hes]
    cases length <;> simp [bodyOf, Event.body]
  have haccepted : acceptedOf (log ++ es) = acceptedOf log := by
    rw [acceptedOf_append, ← hes]
    cases length <;> simp [acceptedOf, Event.acceptedBody]
  have hidle := h.queue.of_not nofun
  constructor
  · rw [callPhase_append, h.calls, ← hes]
    cases length <;> rfl
  · rw [hbody, haccepted]
    exact h.order
  · rw [hbody, haccepted]
    exact h.sent
  · exact h.free
  · exact ⟨_, hidle, .inl rfl⟩
  · exact .inl hnew
  · exact nofun
  · intro n hn
    have hlength : length = some n := by
      rcases List.mem_append.mp hn with hn | hn
      · exact absurd hn (hnone n)
      · rw [← hes] at hn
        cases length with
        | none => simp at hn
        | some m => simpa [eq_comm] using hn
    rw [haccepted, hempty, hlength]
    exact ⟨n, rfl, fun _ => by simp, Nat.zero_le _⟩
  · rintro n - (hmem | ⟨e, he, hend⟩)
    · exact absurd hmem hidle
    · rw [hnew e he] at hend
      cases hend

end Sending

abbrev SendsBody (c : Ctx) : Prop := Own SendsInOrder (fun _ => True) c

namespace SendsBody

variable {c c' : Ctx}

theorem silent (h : SendsBody c) (hid : c'.self.streamId = c.self.streamId)
    (hlock : c'.self.writeLock = c.self.writeLock)
    (hlength : c'.self.outgoingContentRemaining = c.self.outgoingContentRemaining)
    (hlog : Grows Event.isSilent c.conn.log c'.conn.log) : SendsBody c' := by
  refine ⟨fun hcalls => ?_, trivial⟩
  obtain ⟨es, hlog, hes⟩ := hlog
  rw [hid, hlog, logOf_append] at hcalls ⊢
  obtain ⟨phase, hsending⟩ := h.1 hcalls.of_append
  exact ⟨phase, hsending.silent hid hlock hlength fun e he => hes e (mem_logOf.mp he).1⟩

/-- A step of the lock on which the log does not depend. -/
theorem withLock (h : SendsBody c) {lock : WriteLock}
    (hlock : ∀ {phase log}, Sending phase c.self log → Sending phase { c.self with writeLock := lock } log) :
    SendsBody (c.withLock lock) :=
  ⟨fun hcalls => (h.1 hcalls).imp fun _ => hlock, trivial⟩

theorem logged (h : SendsBody c) {e : Event} (he : e.isSilent) : SendsBody (c.logged e) :=
  h.silent rfl rfl rfl (.snoc he)

theorem resets (h : SendsBody c) (hr : c.Resets c') : SendsBody c' := by
  rcases hr with rfl | rfl
  · exact h
  · exact h.logged (e := .wrote c.resetFrame) ⟨rfl, rfl⟩

theorem calledBack (h : SendsBody c) : ∀ {callback}, SendsBody (c.calledBack callback)
  | none => h
  | some _ => h.logged (e := .callback ..) ⟨rfl, rfl⟩

/-- A step that adds events of the stream to the log. -/
theorem events (h : SendsBody c) (es : List Event) (hes : ∀ e ∈ es, e.streamId = c.self.streamId)
    (hid : c'.self.streamId = c.self.streamId) (hlog : c'.conn.log = c.conn.log ++ es)
    (hs : ∀ {phase log}, Sending phase c.self log → CallsInOrder (log ++ es) →
      ∃ phase', Sending phase' c'.self (log ++ es)) : SendsBody c' := by
  have hown : logOf c.self.streamId es = es := List.filter_eq_self.mpr fun e he => decide_eq_true (hes e he)
  refine ⟨fun hcalls => ?_, trivial⟩
  rw [hid, hlog, logOf_append, hown] at hcalls ⊢
  obtain ⟨phase, hsending⟩ := h.1 hcalls.of_append
  exact hs hsending hcalls

theorem event (h : SendsBody c) {e : Event} (he : e.streamId = c.self.streamId)
    (hid : c'.self.streamId = c.self.streamId) (hlog : c'.conn.log = c.conn.log ++ [e])
    (hs : ∀ {phase log}, Sending phase c.self log → CallsInOrder (log ++ [e]) →
      ∃ phase', Sending phase' c'.self (log ++ [e])) : SendsBody c' :=
  h.events [e] (fun _ h => List.mem_singleton.mp h ▸ he) hid hlog hs

theorem withOwner (h : SendsBody c) {job : Job} {point point' : YieldPoint}
    (howner : c.self.writeLock.owner = .writer job point) : SendsBody (c.withOwner (.writer job point')) :=
  h.withLock fun hs => hs.withOwner howner

theorem slice (h : SendsBody c) (hs : Slice c c') : SendsBody c' := by
  cases hs with
  | idle => exact h
  | failed howner hr => exact (h.withLock fun hs => hs.lost howner : SendsBody (c.withOwner .lost)).resets hr
  | finished howner =>
    exact (h.withLock fun hs => hs.released howner rfl : SendsBody c.released).calledBack
  | waits howner => exact h.withOwner howner
  | waitsParent howner => exact h.withOwner howner
  | @takes _ _ _ _ taken howner =>
    have howned : SendsBody (c.withOwner (.writer _ (.parent taken))) := h.withOwner howner
    exact howned.silent rfl rfl rfl
      (.snoc (e := .consumed ..) ⟨rfl, rfl⟩)
  | @debits _ _ amount howner =>
    have howned : SendsBody (c.withOwner (.writer _ (.consume amount))) := h.withOwner howner
    exact howned.silent rfl rfl rfl
      (.snoc (e := .consumed ..) ⟨rfl, rfl⟩)
  | @writes chunk callback amount howner =>
    have hend : (c.pieceFrame (chunk.take amount.toNat)).has .endStream = false := by
      simp [Frame.has, Ctx.pieceFrame]
    exact h.event (e := .wrote (c.pieceFrame (chunk.take amount.toNat))) rfl rfl rfl fun hs _ =>
      ⟨_, hs.writes howner rfl hend rfl⟩
  | ends howner =>
    exact h.event (e := .wrote c.endStreamFrame) rfl rfl rfl fun hs _ => ⟨_, hs.ends howner rfl⟩
  | @aborts _ c₁ howner hr =>
    have hr' := h.resets hr
    have howner' : c₁.self.writeLock.owner = c.self.writeLock.owner := by rcases hr with rfl | rfl <;> rfl
    exact hr'.withLock fun hs => hs.released (howner'.trans howner) rfl

/-- A chunk is accepted and comes to the lock. -/
theorem accepts (h : SendsBody c) (chunk : Bytes) (callback : Option Nat) {lock : WriteLock}
    (hfits : chunk ≠ [] → ∀ remaining, c.self.outgoingContentRemaining = some remaining →
      (chunk.length : Int) ≤ remaining)
    (hlock : chunk = [] ∧ lock = c.self.writeLock ∨ lock = c.self.writeLock.acquire (.chunk chunk callback)) :
    SendsBody (((c.counted chunk).logged (.accepted c.self.streamId chunk)).withLock lock) :=
  h.event (e := .accepted c.self.streamId chunk) rfl rfl rfl fun hs hcalls =>
    ⟨_, hs.accepts hcalls rfl hfits hlock⟩

theorem acquires (h : SendsBody (c.withLock (c.self.writeLock.acquire job))) (ha : Acquires c job c') :
    SendsBody c' := by
  cases ha with
  | granted hfree hs =>
    rw [WriteLock.acquire, if_pos hfree] at h
    exact h.slice hs
  | queued hbusy =>
    rw [WriteLock.acquire, if_neg hbusy] at h
    exact h

theorem call (h : SendsBody c) {chunk : Bytes} {callback : Option Nat}
    (hw : Writes c chunk callback c') : SendsBody c' := by
  cases hw with
  | rejected hchunk hremaining hover hr =>
    have hcounted : SendsBody (c.counted chunk) :=
      ⟨fun hcalls => (h.1 hcalls).imp fun _ hs => hs.rejects hremaining hover, trivial⟩
    exact hcounted.resets hr
  | empty hchunk =>
    have haccepts := h.accepts [] callback (fun hne => absurd rfl hne)
      (.inl ⟨rfl, rfl⟩)
    have hcounted : c.counted [] = c := by
      rcases c with ⟨conn, self⟩
      simp only [Ctx.counted, List.length_nil, Nat.cast_zero, sub_zero, Option.map_id']
    rw [hcounted] at haccepts
    exact haccepts.calledBack
  | accepted hchunk hfits ha =>
    exact (h.accepts chunk callback (fun _ => hfits) (.inr rfl)).acquires ha

theorem prepared (h : SendsBody c) (hp : Prepared (c.issued .writeHeaders) c') : SendsBody c' := by
  cases hp with
  | undeclared requestStartLine hpackEncoder =>
    refine h.event (e := .issued c.self.streamId .writeHeaders) rfl rfl rfl fun hs hcalls => ⟨.opened, ?_⟩
    have heads := hs.heads hcalls none
    rw [Option.map_none, Option.toList_none, List.append_nil] at heads
    exact heads.congr rfl rfl rfl
  | declared length requestStartLine hpackEncoder =>
    refine h.events ([.issued c.self.streamId .writeHeaders] ++ [.declared c.self.streamId length])
      (by simp [Event.streamId]) rfl (by simp [Ctx.prepared, Ctx.declared, Ctx.issued, Ctx.logged])
      fun hs hcalls => ⟨.opened, ?_⟩
    rw [← List.append_assoc] at hcalls ⊢
    exact (hs.heads hcalls.of_append (some length)).congr rfl rfl rfl

theorem finishes (h : SendsBody c) (hf : Finishes c c') : SendsBody c' := by
  cases hf with
  | short hremaining hshort hr =>
    refine SendsBody.resets (c := c.issued .finish) ?_ hr
    exact h.event (e := .issued c.self.streamId .finish) rfl rfl rfl fun hs hcalls =>
      ⟨_, hs.finishes hcalls (.inl rfl)⟩
  | ends hremaining ha =>
    refine SendsBody.acquires (c := c.issued .finish) ?_ ha
    exact h.event (e := .issued c.self.streamId .finish) rfl rfl rfl fun hs hcalls =>
      ⟨_, hs.finishes hcalls (.inr ⟨rfl, hremaining⟩)⟩

theorem receives (h : SendsBody c) {i : Nat} (hr : ReceivesOnly i c c') : SendsBody c' := by
  have hself : c'.self.sending = c.self.sending := hr.self
  simp only [Stream.sending, Prod.mk.injEq] at hself
  exact h.silent hself.1 hself.2.2.1 hself.2.2.2.1 (hr.log.mono fun _ he => he.isSilent)

theorem writeHeaders {startLine : StartLine Bytes} {headers : HTTPHeaders Bytes} {chunk : Bytes}
    {callback : Option Nat} (h : SendsBody c) :
    SendsBody ((Stream.writeHeaders startLine headers chunk callback).run c).2 := by
  refine wp_state.mp (wp_mono Stream.writeHeaders_wp ?_ ?_) <;> intro _ c' hc' <;> cases hc' with
  | failed hp hr => exact (h.prepared hp).resets hr
  | written hheads hr =>
    obtain @⟨data, _, _, _, hp, _, hw⟩ := hheads
    exact (((h.prepared hp).logged (e := .wrote (c.headersFrame data)) headersFrame_isSilent).call hw).resets hr

theorem finish (h : SendsBody c) : SendsBody (Stream.finish.run c).2 :=
  wp_state.mp (wp_mono Stream.finish_wp (fun _ _ hf => h.finishes hf) fun _ _ hf => h.finishes hf)

theorem write (h : SendsBody c) {chunk : Bytes} {callback : Option Nat} :
    SendsBody ((Stream.write chunk callback).run c).2 :=
  wp_state.mp (wp_mono Stream.write_wp (fun _ _ hw => h.call hw) fun _ _ hw => h.call hw)

theorem reset (h : SendsBody c) : SendsBody (Stream.reset.run c).2 :=
  wp_state.mp (Stream.reset_wp (fun _ => h) (h.resets (.inr rfl)))

theorem resume (h : SendsBody c) {flushed : Bool} : SendsBody ((Stream.resume flushed).run c).2 :=
  wp_state.mp (wp_mono (E := fun _ => SendsBody) Stream.resume_wp (fun _ _ hs => h.slice hs) fun _ _ h => h)

theorem method (h : SendsBody c) {a : System.Action} {i : Nat} {m : OnStream Unit}
    (ha : a.method = some (i, m)) : SendsBody (m.run c).2 :=
  Stream.method_preserves (fun _ _ hc hr => hc.receives hr) (fun _ _ _ _ _ hc => hc.writeHeaders)
    (fun _ _ _ hc => hc.write) (fun _ hc => hc.finish) (fun _ hc => hc.reset) (fun _ _ hc => hc.resume) ha h

theorem handleWindowUpdateFrame (h : SendsBody c) {frame : Frame} :
    SendsBody ((Stream.handleWindowUpdateFrame frame).run c).2 := by
  refine wp_state.mp ?_
  simp only [Stream.handleWindowUpdateFrame, wp_bind, wp_get, wp_zoom]
  refine wp_mono (wp_state.mpr ?_ : wp (Window.applyWindowUpdate frame) (fun _ _ => True) (fun _ _ => True) _)
    (fun _ _ _ => ?_) fun _ _ _ => ?_
  · trivial
  · exact h.silent rfl rfl rfl (.snoc (e := .credited ..) ⟨rfl, rfl⟩)
  · exact h.silent rfl rfl rfl .refl

theorem handleFrame (h : SendsBody c) {frame : Frame} {later : Bool} :
    SendsBody ((Stream.handleFrame frame later).run c).2 :=
  Stream.handleFrame_preserves (fun _ _ hc hr => hc.receives hr) (fun _ hc => hc.writeHeaders)
    (fun _ hc => hc.finish) (fun _ _ hc => hc.handleWindowUpdateFrame) h

end SendsBody

theorem stable_sendsInOrder : Stable SendsInOrder fun _ => True where
  quiet _ _ := trivial
  noise he h hcalls := by
    obtain ⟨phase, hs⟩ := h hcalls.of_append
    exact ⟨phase, hs.silent rfl rfl rfl fun e' he' => List.mem_singleton.mp he' ▸ he.isSilent⟩
  new := by
    intro c i hasDelegate log requestStartLine _ hlog _
    have hes : ∀ e ∈ log ++ [.opened i (c.setting .initialWindowSize)], e.isSilent := by
      intro e he
      rcases List.mem_append.mp he with he | he
      · exact (hlog e he).isSilent
      · rw [List.mem_singleton.mp he]
        exact ⟨rfl, rfl⟩
    have hnew : Sending .idle { Stream.new c i hasDelegate with requestStartLine } [] := by
      constructor
      · rfl
      · exact fun _ => rfl
      · exact List.prefix_refl _
      · exact fun _ => rfl
      · exact ⟨[], by simp, .inl rfl⟩
      · exact .inl (by simp)
      · exact fun _ => ⟨rfl, by simp⟩
      · simp
      · simp
    exact ⟨_, hnew.silent rfl rfl rfl hes⟩

/-- Every stream sends in order. -/
structure BodyInvariant (s : System) : Prop where
  wellFormed : s.WellFormed
  streams : s.All SendsInOrder

theorem BodyInvariant.run (isClient : Bool) (params : Params) (actions : List System.Action) :
    BodyInvariant ((System.start isClient params).run actions) := by
  refine actions.foldlRecOn System.step ⟨.start isClient params, by simp [System.All, System.start]⟩
    fun s hs a _ => ?_
  have hstep := System.All.step (a := a) stable_sendsInOrder hs.wellFormed hs.streams trivial
    (fun _ _ _ _ _ _ _ _ => trivial) (fun _ _ _ _ _ _ _ _ hc => SendsBody.handleFrame hc)
    (fun _ _ _ ha _ _ hc => SendsBody.method hc ha)
  exact ⟨hs.wellFormed.step a, hstep.1⟩

/-- Only one frame ends the stream. -/
theorem EndsLast.split {log before after : List Event} {e : Event} (h : EndsLast log)
    (hlog : log = before ++ e :: after) (he : e.isEnd = true) :
    bodyOf before = bodyOf log ∧ ∀ e ∈ after, e.isData = false ∧ e.isEnd = false := by
  obtain ⟨before', e', after', rfl, hbody, hbefore, hafter⟩ := h
  have hsame : before' = before ∧ e' :: after' = e :: after := by
    rcases List.append_eq_append_iff.mp hlog with ⟨es, rfl, htail⟩ | ⟨es, rfl, htail⟩
    · rcases es with _ | ⟨_, es⟩
      · exact ⟨by simp, htail⟩
      · obtain ⟨rfl, rfl⟩ := List.cons.inj htail
        have hend := (hafter e (by simp)).2
        rw [he] at hend
        cases hend
    · rcases es with _ | ⟨_, es⟩
      · exact ⟨by simp, htail.symm⟩
      · obtain ⟨rfl, rfl⟩ := List.cons.inj htail
        have hend := hbefore e (by simp)
        rw [he] at hend
        cases hend
  obtain ⟨rfl, hcons⟩ := hsame
  obtain ⟨rfl, rfl⟩ := List.cons.inj hcons
  have hrest : bodyOf after' = [] := List.flatMap_eq_nil_iff.mpr fun e he => by
    have hdata := (hafter e he).1
    cases e <;> simp_all [Event.body, Event.isData]
  refine ⟨?_, hafter⟩
  rw [bodyOf_append, ← List.singleton_append, bodyOf_append, hrest]
  simp [bodyOf, hbody]

/-- The content length that is in force after `write_headers`. A server's call
for which there has been no request raises before there is one. -/
inductive Stream.LengthInForce (self : Stream) : (isClient : Bool) → StartLine Bytes → HTTPHeaders Bytes → Int → Prop
  | head {path : Option Bytes} {startLine : StartLine Bytes} {headers : HTTPHeaders Bytes}
      (hrequest : self.requestStartLine = some (some (ascii "HEAD"), path)) :
    LengthInForce self false startLine headers 0
  | notModified {headers : HTTPHeaders Bytes} (hrequest : self.requestStartLine.isSome = true) :
    LengthInForce self false (.response 304) headers 0
  | response {method path : Option Bytes} {code n : Int} {headers : HTTPHeaders Bytes}
      (hrequest : self.requestStartLine = some (method, path)) (hhead : method ≠ some (ascii "HEAD"))
      (hcode : code ≠ 304) (hcontains : headers.contains (ascii "Content-Length") = true)
      (hlength : headers.optional.getInt (ascii "Content-Length") = .ok n) :
    LengthInForce self false (.response code) headers n
  | request {startLine : StartLine Bytes} {n : Int} {headers : HTTPHeaders Bytes}
      (hcontains : headers.contains (ascii "Content-Length") = true)
      (hlength : headers.optional.getInt (ascii "Content-Length") = .ok n) :
    LengthInForce self true startLine headers n

namespace Stream

variable {c : Ctx} {startLine : StartLine Bytes} {headers : HTTPHeaders Bytes} {chunk : Bytes}
  {callback : Option Nat} {n : Int}

theorem setOutgoingContent_run (h : c.self.LengthInForce c.conn.isClient startLine headers n) :
    (setOutgoingContent startLine headers).run c = (.ok (), c.declared n) := by
  generalize hclient : c.conn.isClient = isClient at h
  have bodiless {b : Bool} (hb : (isBodiless startLine).run c = (.ok b, c)) :
      (setOutgoingContent startLine headers).run c = (if b then declare 0
        else if headers.contains (ascii "Content-Length") then do
          let n ← ofExcept (headers.optional.getInt (ascii "Content-Length"))
          declare n
        else pure ()).run c := by
    rw [setOutgoingContent, bind_ok hb]
  cases h with
  | head hrequest =>
    rw [bodiless (b := true) (by rw [isBodiless.eq_def, run_get_bind, hclient, hrequest]; rfl)]
    rfl
  | notModified hrequest =>
    obtain ⟨⟨method, path⟩, hrequest⟩ := Option.isSome_iff_exists.mp hrequest
    rw [bodiless (isBodiless_run hclient hrequest), if_pos (by simp)]
    rfl
  | response hrequest hhead hcode hcontains hlength =>
    rw [bodiless (isBodiless_run hclient hrequest), if_neg (by simp [hhead, hcode]), if_pos hcontains, hlength]
    rfl
  | request hcontains hlength =>
    have hb : (isBodiless startLine).run c = (.ok false, c) := by
      rw [isBodiless.eq_def, run_get_bind, hclient]
      rfl
    rw [bodiless hb, if_neg Bool.false_ne_true, if_pos hcontains, hlength]
    rfl

/-- The content length is set before the call can fail. -/
theorem writeHeaders_declares (h : c.self.LengthInForce c.conn.isClient startLine headers n) :
    .declared c.self.streamId n ∈ ((writeHeaders startLine headers chunk callback).run c).2.conn.log := by
  have hrest : Sends c.self.streamId (do
      let pseudoHeaders ← pseudoHeaderList startLine
      let regularHeaders ← regularHeaderList headers.getAll
      let data ← encodeHeaders (pseudoHeaders ++ regularHeaders)
      Ctx.writeFrame ⟨.headers, FrameFlag.endHeaders.value, c.self.streamId, data⟩
      Stream.write chunk callback) :=
    .bind keepsSending_sends.pseudoHeaderList fun _ => .bind KeepsSending.regularHeaderList fun _ =>
      .bind (fun _ hc => ⟨hc, rfl, rfl, .refl⟩) fun _ =>
        .bind (Ctx.writeFrame_sends ⟨rfl, .inl rfl⟩) fun _ => write_sends
  have hset : (setOutgoingContent startLine headers).run (c.issued .writeHeaders) =
      (.ok (), (c.issued .writeHeaders).declared n) := setOutgoingContent_run h
  have hmem : Event.declared c.self.streamId n ∈ ((c.issued .writeHeaders).declared n).conn.log :=
    List.mem_append_right _ (List.mem_singleton_self _)
  obtain ⟨es, hlog, -⟩ := (hrest _ rfl : _ ∧ SendsOnly _ ((c.issued .writeHeaders).declared n) _).2.log
  rw [writeHeaders]
  suffices hwp : wp (resetOnError _) (fun _ c' => Event.declared c.self.streamId n ∈ c'.conn.log)
      (fun _ c' => Event.declared c.self.streamId n ∈ c'.conn.log) c from wp_state.mp hwp
  refine resetOnError_wp ?_
  rw [wp_bind, wp_get, wp_bind, wp_emit, wp_bind]
  refine (wp_of_ok hset).mpr (wp_mono (wp_state.mpr (hlog ▸ List.mem_append_left es hmem)) (fun _ _ h => h) ?_)
  rintro _ c₁ h₁ _ (rfl | rfl)
  · exact h₁
  · exact List.mem_append_left _ h₁

end Stream

/-- A content length in force has been recorded, whatever has happened since. -/
theorem System.declared_of_inForce {isClient : Bool} {params : Params} {before after : List System.Action} {i : Nat}
    {self : Stream} {startLine : StartLine Bytes} {headers : HTTPHeaders Bytes} {chunk : Bytes}
    {callback : Option Nat} {n : Int} (hself : ((System.start isClient params).run before).streams i = some self)
    (h : self.LengthInForce isClient startLine headers n) :
    .declared i n ∈ logOf i ((System.start isClient params).run
      (before ++ .writeHeaders i startLine headers chunk callback :: after)).conn.log := by
  have hw := (BodyInvariant.run isClient params before).wellFormed
  have hclient : ((System.start isClient params).run before).conn.isClient = isClient :=
    System.run_isClient isClient params before
  obtain ⟨es, hes⟩ := System.run_extends
    (hw.step (.writeHeaders i startLine headers chunk callback)) after
  have hrun : (System.start isClient params).run (before ++ .writeHeaders i startLine headers chunk callback :: after) =
      (((System.start isClient params).run before).step (.writeHeaders i startLine headers chunk callback)).run after :=
    List.foldl_append ..
  rw [hrun, ← hes, logOf, List.filter_append]
  refine List.mem_append_left _ (List.mem_filter.mpr ⟨?_, by simp [Event.streamId]⟩)
  rw [System.step_stream (m := Stream.writeHeaders startLine headers chunk callback) rfl hself]
  rw [← hclient] at h
  exact hw.streamId hself ▸ Stream.writeHeaders_declares (c := ⟨_, self⟩) h

/-- The body is sent in order, complete, and as long as `write_headers` has said. -/
theorem body_in_order {isClient : Bool} {params : Params} {actions : List System.Action} {i : Nat}
    {self : Stream} (hself : ((System.start isClient params).run actions).streams i = some self)
    (hcalls : CallsInOrder (logOf i ((System.start isClient params).run actions).conn.log)) :
    let log := logOf i ((System.start isClient params).run actions).conn.log
    bodyOf log <+: acceptedOf log ∧
    (∀ before e after, log = before ++ e :: after → e.isEnd = true →
      bodyOf before = acceptedOf log ∧ ∀ e ∈ after, e.isData = false ∧ e.isEnd = false) ∧
    ∀ before startLine headers chunk callback after, actions =
      before ++ .writeHeaders i startLine headers chunk callback :: after →
      ∀ self n, ((System.start isClient params).run before).streams i = some self →
        self.LengthInForce isClient startLine headers n →
          ((bodyOf log).length : Int) ≤ max 0 n ∧ ((∃ e ∈ log, e.isEnd = true) → ((bodyOf log).length : Int) = n) := by
  intro log
  have hinv := BodyInvariant.run isClient params actions
  obtain ⟨phase, hs⟩ := hinv.streams hself hcalls
  have hid := hinv.wellFormed.streamId hself
  have complete {e : Event} (he : e ∈ log) (hend : e.isEnd = true) :
      bodyOf log = acceptedOf log ∧ EndsLast log := by
    rcases hs.ended with hopen | ⟨-, hlock, hlast⟩
    · rw [hopen e he] at hend
      cases hend
    · have horder := hs.order (by simp [hlock])
      rw [hlock] at horder
      exact ⟨by simpa [WriteLock.pending, WriteLock.jobs] using horder, hlast⟩
  refine ⟨hs.sent, fun before e after hlog hend => ?_, ?_⟩
  · obtain ⟨hbody, hlast⟩ := complete (hlog ▸ by simp) hend
    obtain ⟨hbefore, hafter⟩ := hlast.split hlog hend
    exact ⟨hbefore.trans hbody, hafter⟩
  · rintro before startLine headers chunk callback after rfl self₀ n hself₀ hlength
    have hn : Event.declared self.streamId n ∈ log := hid.symm ▸ System.declared_of_inForce hself₀ hlength
    refine ⟨?_, fun hends => ?_⟩
    · obtain ⟨_, _, _, hbound⟩ := hs.length hn
      have hsent : (bodyOf log).length ≤ n.toNat := hs.sent.length_le.trans hbound
      omega
    · obtain ⟨e, he, hend⟩ := hends
      rw [(complete he hend).1]
      exact hs.exact hn (.inr ⟨e, he, hend⟩)

/-- Five bytes in two chunks, of which the first window lets three through. -/
def System.responseActions : List System.Action :=
  [.receive ⟨.settings, 0, 0, [0, 4, 0, 0, 0, 3]⟩ false, .receive (System.requestFrame 1 0x5) false,
    .writeHeaders 1 (.response 200) ⟨[(ascii "Content-Length", [ascii "5"])]⟩ [1, 2] none] ++
  List.replicate 3 (.resume 1 true) ++ [.write 1 [3, 4, 5] none] ++ List.replicate 3 (.resume 1 true) ++
  [.finish 1, .receive ⟨.windowUpdate, 0, 1, [0, 0, 0, 9]⟩ false] ++ List.replicate 5 (.resume 1 true)

theorem body_in_order_response :
    let log := logOf 1 ((System.start false (.new none .caseless)).run System.responseActions).conn.log
    (∃ e ∈ log, e.isEnd = true) ∧ bodyOf log = [1, 2, 3, 4, 5] ∧ bodyOf log <+: acceptedOf log ∧
      ((bodyOf log).length : Int) ≤ max 0 5 ∧ ((∃ e ∈ log, e.isEnd = true) → ((bodyOf log).length : Int) = 5) := by
  obtain ⟨self, hself⟩ : ∃ self,
      ((System.start false (.new none .caseless)).run System.responseActions).streams 1 = some self :=
    Option.isSome_iff_exists.mp (by decide +kernel)
  obtain ⟨self₀, hself₀, hrequest⟩ : ∃ self₀,
      ((System.start false (.new none .caseless)).run (System.responseActions.take 2)).streams 1 = some self₀ ∧
        self₀.requestStartLine = some (some (ascii "GET"), some (ascii "/")) :=
    Option.map_eq_some_iff.mp (by decide +kernel)
  obtain ⟨hbody, -, hlength⟩ := body_in_order hself (by decide +kernel)
  exact ⟨by decide +kernel, by decide +kernel, hbody, hlength _ _ _ _ _ _ rfl _ _ hself₀
    (.response hrequest (by decide) (by decide) (by decide) (by decide))⟩

/-- A length that `int` accepts. -/
def System.negativeAnnounced : HTTPHeaders Bytes := ⟨[(ascii "Content-Length", [ascii "-5"])]⟩

/-- No bytes are more than a negative number of them. -/
theorem System.not_body_within_announced :
    let before := [Action.receive (requestFrame 1 0x5) false]
    let s := (start false (.new none .caseless)).run
      (before ++ [.writeHeaders 1 (.response 200) negativeAnnounced [] none])
    CallsInOrder (logOf 1 s.conn.log) ∧
      (∃ self, ((start false (.new none .caseless)).run before).streams 1 = some self ∧
        self.LengthInForce false (.response 200) negativeAnnounced (-5)) ∧
      ¬ ((bodyOf (logOf 1 s.conn.log)).length : Int) ≤ -5 := by
  obtain ⟨self, hself, hrequest⟩ : ∃ self,
      ((start false (.new none .caseless)).run [.receive (requestFrame 1 0x5) false]).streams 1 = some self ∧
        self.requestStartLine = some (some (ascii "GET"), some (ascii "/")) :=
    Option.map_eq_some_iff.mp (by decide +kernel)
  exact ⟨by decide +kernel, ⟨self, hself, .response hrequest (by decide) (by decide) (by decide) (by decide)⟩,
    by decide +kernel⟩

end TornadoHttp2
