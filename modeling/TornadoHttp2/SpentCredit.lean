import TornadoHttp2.CreditSafety

/-! What the writers of a stream have taken from the windows they have written, or
they hold it: only a writer that fails drops what it holds. -/

namespace TornadoHttp2

open Prog

/-- Of what was taken, all but `own` and `parent` has been written. -/
structure Spent (i : Nat) (log : List Event) (own parent : Int) : Prop where
  own : total Event.dataBytes log + own = total (Event.debit (some i)) log
  parent : total Event.dataBytes log + parent = total (Event.debit none) log

def SpendsAll (self : Stream) (log : List Event) : Prop := self.writeLock.owner ≠ .lost →
  Spent self.streamId log (ownPiece self.writeLock.owner) (parentPiece self.writeLock.owner)

/-- Nothing is taken and nothing written. -/
def Event.isFree (e : Event) : Prop := e.dataBytes = 0 ∧ ∀ w, e.debit w = 0

theorem Event.isNeutral.isFree {e : Event} (h : e.isNeutral) : e.isFree := ⟨h.dataBytes, fun _ => h.debit⟩

section

variable {i : Nat} {log : List Event} {own parent : Int}

theorem Spent.free (h : Spent i log own parent) {es : List Event} (hes : ∀ e ∈ es, e.isFree) :
    Spent i (log ++ es) own parent := by
  have hdata : total Event.dataBytes es = 0 := total_eq_zero fun e he => (hes e he).1
  have hdebit (w : Option Nat) : total (Event.debit w) es = 0 := total_eq_zero fun e he => (hes e he).2 w
  constructor
  · rw [total_append, total_append, hdata, hdebit, add_zero, add_zero]
    exact h.own
  · rw [total_append, total_append, hdata, hdebit, add_zero, add_zero]
    exact h.parent

theorem Spent.takes (h : Spent i log own parent) {asked taken : Int} :
    Spent i (log ++ [.consumed none i asked taken]) own (parent + taken) := by
  obtain ⟨hown, hparent⟩ := h
  constructor
  · simpa [Event.dataBytes, Event.debit] using hown
  · simp only [total_append, total_singleton, Event.dataBytes, Event.debit, if_true]
    omega

theorem Spent.debits (h : Spent i log own parent) {asked taken : Int} :
    Spent i (log ++ [.consumed (some i) i asked taken]) (own + taken) parent := by
  obtain ⟨hown, hparent⟩ := h
  constructor
  · simp only [total_append, total_singleton, Event.dataBytes, Event.debit, if_true]
    omega
  · simpa [Event.dataBytes, Event.debit] using hparent

theorem Spent.writes (h : Spent i log own parent) {frame : Frame} (hdata : frame.type = .data) :
    Spent i (log ++ [.wrote frame]) (own - frame.data.length) (parent - frame.data.length) := by
  obtain ⟨hown, hparent⟩ := h
  constructor <;> simp only [total_append, total_singleton, Event.dataBytes, Event.debit, hdata, if_true] <;> omega

end

/-- The owner holds nothing that it has taken. -/
structure Owner.Empty (owner : Owner) : Prop where
  own : ownPiece owner = 0
  parent : parentPiece owner = 0

theorem Owner.Empty.lock (job : Job) : (Owner.writer job .lock).Empty := by cases job <;> exact ⟨rfl, rfl⟩

theorem WriteLock.release_empty (lock : WriteLock) : lock.release.owner.Empty := by
  rw [release]
  rcases lock.waiters with _ | ⟨job, _⟩
  · exact ⟨rfl, rfl⟩
  · exact .lock job

abbrev SpendsOwn (c : Ctx) : Prop := Own SpendsAll (fun _ => True) c

namespace SpendsOwn

variable {c c' : Ctx} {job : Job} {chunk : Bytes} {callback : Option Nat} {amount : Int}

theorem free (h : SpendsOwn c) (hid : c'.self.streamId = c.self.streamId)
    (howner : c'.self.writeLock.owner = c.self.writeLock.owner) (hlog : Grows Event.isFree c.conn.log c'.conn.log) :
    SpendsOwn c' := by
  refine ⟨fun hlost => ?_, trivial⟩
  obtain ⟨es, hlog, hes⟩ := hlog
  rw [howner] at hlost ⊢
  rw [hid, hlog, logOf_append]
  exact (h.1 hlost).free fun e he => hes e (mem_logOf.mp he).1

theorem logged (h : SpendsOwn c) {e : Event} (he : e.isFree) : SpendsOwn (c.logged e) := h.free rfl rfl (.snoc he)

theorem resets (h : SpendsOwn c) (hr : c.Resets c') : SpendsOwn c' := by
  rcases hr with rfl | rfl
  · exact h
  · refine h.logged (Event.isNeutral.isFree (e := .wrote c.resetFrame) ?_)
    exact nofun

theorem calledBack (h : SpendsOwn c) : SpendsOwn (c.calledBack callback) := by
  cases callback with
  | none => exact h
  | some token => exact h.logged ⟨rfl, fun _ => rfl⟩

theorem lost (c : Ctx) : SpendsOwn (c.withOwner .lost) := ⟨fun h => absurd rfl h, trivial⟩

theorem withLock (h : SpendsOwn c) (hlost : c.self.writeLock.owner ≠ .lost) (hempty : c.self.writeLock.owner.Empty)
    {lock : WriteLock} (hempty' : lock.owner.Empty) : SpendsOwn (c.withLock lock) := by
  refine ⟨fun _ => ?_, trivial⟩
  have hspent := h.1 hlost
  rw [hempty.own, hempty.parent] at hspent
  change Spent _ _ (ownPiece lock.owner) (parentPiece lock.owner)
  rw [hempty'.own, hempty'.parent]
  exact hspent

theorem event {e : Event} (he : e.streamId = c.self.streamId) (hid : c'.self.streamId = c.self.streamId)
    (hlog : c'.conn.log = c.conn.log ++ [e]) (h : Spent c.self.streamId (logOf c.self.streamId c.conn.log ++ [e])
      (ownPiece c'.self.writeLock.owner) (parentPiece c'.self.writeLock.owner)) : SpendsOwn c' := by
  refine ⟨fun _ => ?_, trivial⟩
  rw [hid, hlog, logOf_snoc he]
  exact h

theorem debits (h : SpendsOwn c) (howner : c.self.writeLock.owner = .writer (.chunk chunk callback) (.parent amount)) :
    SpendsOwn (((c.debited amount).logged (.consumed (some c.self.streamId) c.self.streamId chunk.length
      amount)).withOwner (.writer (.chunk chunk callback) (.consume amount))) := by
  have hspent := h.1 (by rw [howner]; exact nofun)
  rw [howner] at hspent
  have hdebited : Spent c.self.streamId (logOf c.self.streamId c.conn.log ++
      [.consumed (some c.self.streamId) c.self.streamId chunk.length amount]) (0 + amount) amount := hspent.debits
  rw [zero_add] at hdebited
  exact event (c := c) rfl rfl rfl hdebited

theorem writes (h : SpendsOwn c) (howner : c.self.writeLock.owner = .writer (.chunk chunk callback) (.consume amount))
    (hlength : ((chunk.take amount.toNat).length : Int) = amount) :
    SpendsOwn ((c.logged (.wrote (c.pieceFrame (chunk.take amount.toNat)))).withOwner
      (.writer (.chunk (chunk.drop amount.toNat) callback) .flush)) := by
  have hspent := h.1 (by rw [howner]; exact nofun)
  rw [howner] at hspent
  have hwritten : Spent c.self.streamId (logOf c.self.streamId c.conn.log ++
    [.wrote (c.pieceFrame (chunk.take amount.toNat))])
      (amount - (chunk.take amount.toNat).length) (amount - (chunk.take amount.toNat).length) := hspent.writes rfl
  rw [hlength, sub_self] at hwritten
  exact event (c := c) rfl rfl rfl hwritten

/-- A slice of a writer that holds nothing when it begins. -/
theorem slice (h : SpendsOwn c) (hempty : c.self.writeLock.owner.Empty) (hs : Slice c c') : SpendsOwn c' := by
  have held {job : Job} {point : YieldPoint} (howner : c.self.writeLock.owner = .writer job point) :
      c.self.writeLock.owner ≠ .lost := by
    rw [howner]
    exact nofun
  cases hs with
  | idle => exact h
  | failed _ hr => exact (lost c).resets hr
  | finished howner => exact (h.withLock (held howner) hempty c.self.writeLock.release_empty).calledBack
  | waits howner => exact h.withLock (held howner) hempty ⟨rfl, rfl⟩
  | waitsParent howner => exact h.withLock (held howner) hempty ⟨rfl, rfl⟩
  | @takes chunk callback _ amount taken howner =>
    have hspent := h.1 (held howner)
    rw [hempty.own, hempty.parent] at hspent
    have htaken : Spent c.self.streamId (logOf c.self.streamId c.conn.log ++
      [.consumed none c.self.streamId amount taken]) 0
        (0 + taken) := hspent.takes
    rw [zero_add] at htaken
    exact event (c := c) rfl rfl rfl htaken
  | debits howner => exact h.debits howner
  | @writes chunk callback amount howner =>
    have hnone : amount = 0 := by simpa [howner, ownPiece] using hempty.own
    exact h.writes howner (by simp [hnone])
  | ends howner =>
    have hended : SpendsOwn (c.logged (.wrote c.endStreamFrame)) :=
      h.logged (Event.isNeutral.isFree (e := .wrote c.endStreamFrame) fun _ => rfl)
    exact hended.withLock (held howner) hempty c.self.writeLock.release_empty
  | @aborts _ c₁ howner hr =>
    have hsame : c₁.self.writeLock = c.self.writeLock := by rcases hr with rfl | rfl <;> rfl
    exact (h.resets hr).withLock (hsame ▸ held howner) (hsame ▸ hempty) c₁.self.writeLock.release_empty

theorem acquires (h : SpendsOwn c) (ha : Acquires c job c') : SpendsOwn c' := by
  cases ha with
  | granted hfree hs =>
    have hgranted : SpendsOwn (c.withOwner (.writer job .lock)) := by
      refine h.withLock ?_ ?_ (.lock job) <;> rw [hfree]
      · exact nofun
      · exact ⟨rfl, rfl⟩
    exact hgranted.slice (.lock job) hs
  | queued => exact h.free rfl rfl .refl

theorem call (h : SpendsOwn c) (hw : Writes c chunk callback c') : SpendsOwn c' := by
  have hcounted : SpendsOwn (c.counted chunk) := h.free rfl rfl .refl
  cases hw with
  | rejected _ _ _ hr => exact hcounted.resets hr
  | empty => exact (h.logged (e := .accepted ..) ⟨rfl, fun _ => rfl⟩).calledBack
  | accepted _ _ ha => exact (hcounted.logged (e := .accepted ..) ⟨rfl, fun _ => rfl⟩).acquires ha

theorem issued (h : SpendsOwn c) {call : Call} : SpendsOwn (c.issued call) :=
    h.logged (e := .issued ..) ⟨rfl, fun _ => rfl⟩

theorem prepared (h : SpendsOwn c) (hp : Prepared c c') : SpendsOwn c' := by
  cases hp with
  | undeclared => exact h.free rfl rfl .refl
  | declared => exact h.free rfl rfl (.snoc (e := .declared ..) ⟨rfl, fun _ => rfl⟩)

theorem writesHeaders (h : SpendsOwn c) {startLine : StartLine Bytes} {headers : HTTPHeaders Bytes}
    (hw : WritesHeaders c startLine headers chunk callback c') : SpendsOwn c' := by
  cases hw with
  | failed hp hr => exact (h.issued.prepared hp).resets hr
  | written hheads hr =>
    obtain @⟨data, _, _, _, hp, _, hwrite⟩ := hheads
    have hheaders := (h.issued.prepared hp).logged (Event.isNeutral.isFree (e := .wrote (c.headersFrame data)) nofun)
    exact (hheaders.call hwrite).resets hr

theorem finishes (h : SpendsOwn c) (hf : Finishes c c') : SpendsOwn c' := by
  cases hf with
  | short _ _ hr => exact h.issued.resets hr
  | ends _ ha => exact h.issued.acquires ha

theorem receives (h : SpendsOwn c) {i : Nat} (hr : ReceivesOnly i c c') : SpendsOwn c' := by
  have hself : c'.self.sending = c.self.sending := hr.self
  simp only [Stream.sending, Prod.mk.injEq] at hself
  exact h.free hself.1 (by rw [hself.2.2.1]) (hr.log.mono fun _ he => he.isNeutral.isFree)

/-- What a writer holds fits its chunk, so it writes all of it. -/
theorem resume (h : SpendsOwn c) (hfits : PieceFits c.self.writeLock.owner c.self.window.size) {flushed : Bool} :
    SpendsOwn ((Stream.resume flushed).run c).2 := by
  have hslice (hempty : c.self.writeLock.owner.Empty) : SpendsOwn ((Stream.resume flushed).run c).2 :=
    h.slice hempty (wp_state.mp (Stream.resume_wp (E := fun _ c' => Slice c c')))
  rcases howner : c.self.writeLock.owner with _ | ⟨⟨chunk, callback⟩ | _, point⟩ | _
  · exact hslice (howner ▸ ⟨rfl, rfl⟩)
  · cases point with
    | parent amount =>
      have hrun : ((Stream.resume flushed).run c).2 = ((c.debited amount).logged
          (.consumed (some c.self.streamId) c.self.streamId chunk.length amount)).withOwner
            (.writer (.chunk chunk callback) (.consume amount)) := by
        rw [Stream.resume, run_get_bind, howner]
        rfl
      rw [hrun]
      exact h.debits howner
    | consume amount =>
      rw [howner] at hfits
      have hlength : ((chunk.take amount.toNat).length : Int) = amount := by
        rw [List.length_take]
        obtain ⟨hpos, hle⟩ := hfits
        omega
      refine (wp_state (P := SpendsOwn)).mp ?_
      have hfailed : wp (do
          Stream.setOwner .lost
          catching Stream.reset fun _ => pure ()) (fun _ => SpendsOwn) (fun _ => SpendsOwn) c := by
        rw [wp_bind]
        exact Stream.tryReset_wp fun c' hr => (lost c).resets hr
      rw [Stream.resume, wp_bind, wp_get, howner]
      simp only [Stream.resumeChunk, wp_catching, wp_bind, wp_get, Ctx.writeFrame_wp]
      split
      · exact hfailed
      · split
        · exact hfailed
        · exact h.writes howner hlength
    | _ => exact hslice (howner ▸ ⟨rfl, rfl⟩)
  · exact hslice (howner ▸ ⟨rfl, rfl⟩)
  · exact hslice (howner ▸ ⟨rfl, rfl⟩)

theorem method (h : SpendsOwn c) (hfits : PieceFits c.self.writeLock.owner c.self.window.size) {a : System.Action}
    {i : Nat} {m : OnStream Unit} (ha : a.method = some (i, m)) : SpendsOwn (m.run c).2 := by
  cases a <;> simp only [System.Action.method, reduceCtorEq, Option.some.injEq, Prod.mk.injEq] at ha <;>
    obtain ⟨-, rfl⟩ := ha
  case writeHeaders => exact h.writesHeaders (wp_state.mp Stream.writeHeaders_wp)
  case write => exact h.call (wp_state.mp Stream.write_wp)
  case finish => exact h.finishes (wp_state.mp Stream.finish_wp)
  case reset => exact wp_state.mp (Stream.reset_wp (fun _ => h) (h.resets (.inr rfl)))
  case resume => exact h.resume hfits
  case resolve => exact h.receives (Stream.resolveData_receives c rfl).2

theorem handleFrame (h : SpendsOwn c) {frame : Frame} {later : Bool} :
    SpendsOwn ((Stream.handleFrame frame later).run c).2 := by
  refine Stream.handleFrame_preserves (I := SpendsOwn) (fun _ _ hc hr => hc.receives hr)
    (fun _ hc => hc.writesHeaders (wp_state.mp Stream.writeHeaders_wp))
      (fun _ hc => hc.finishes (wp_state.mp Stream.finish_wp))
    (fun _ c hc => ?_) h
  have hkeeps : Keeps SpendsOwn Anything (Stream.handleWindowUpdateFrame frame) := by
    refine .get_bind fun c _ => .bind (fun c hc => ⟨hc.free rfl rfl .refl, trivial⟩) fun amount c hc => ⟨?_, trivial⟩
    exact hc.free rfl rfl (.snoc ⟨rfl, fun _ => rfl⟩)
  exact (hkeeps c hc).1

end SpendsOwn

theorem stable_spendsAll : Stable SpendsAll fun _ => True where
  quiet _ _ := trivial
  noise he h hlost := (h hlost).free fun e' he' => List.mem_singleton.mp he' ▸ he.isNeutral.isFree
  new {c i hasDelegate log} _ _ hlog _ := by
    have hnone : Spent i [] 0 0 := ⟨rfl, rfl⟩
    have hfree : ∀ e ∈ log ++ [.opened i (c.setting .initialWindowSize)], e.isFree := by
      intro e he
      rcases List.mem_append.mp he with he | he
      · exact (hlog e he).isNeutral.isFree
      · exact List.mem_singleton.mp he ▸ ⟨rfl, fun _ => rfl⟩
    exact hnone.free hfree

theorem FlowInvariant.spends {Q : Conn → Prop} {s : System} (hflow : FlowInvariant Q s) (h : s.All SpendsAll)
    (a : System.Action) : (s.step a).All SpendsAll :=
  (h.step (a := a) stable_spendsAll hflow.wellFormed trivial (fun _ _ _ _ _ _ _ _ => trivial)
    (fun _ _ _ _ _ _ _ _ hc => SpendsOwn.handleFrame hc)
    fun _ _ _ ha hself _ hc => SpendsOwn.method hc (hflow.streams hself).2 ha).1

end TornadoHttp2
