import TornadoHttp2.BodyDelivery
import TornadoHttp2.CreditBalance
import TornadoHttp2.Wakeups
import TornadoHttp2.Workload

/-! Two ends that have nothing left to do: nothing is on its way, no future is
unresolved, and no writer gets any further. A writer that is not done by then waits for
credit that the other end has withheld. -/

namespace TornadoHttp2

open Prog

namespace System

variable {s : System} {i : Nat} {self : Stream}

theorem sleeps_of_resume (hself : s.streams i = some self) (hfits : PieceFits self.writeLock.owner self.window.size)
    (h : s.step (.resume i true) = s) : self.writeLock.owner.Sleeps s.conn.window self.window := by
  by_contra hsleeps
  have hlowers : Ctx.Lowers true ⟨s.conn, self⟩ ((Stream.resume true).run ⟨s.conn, self⟩).2 :=
    Stream.resume_lowers hfits hsleeps
  rw [step_stream rfl hself] at h
  have hconn : ((Stream.resume true).run ⟨s.conn, self⟩).2.conn = s.conn := congrArg System.conn h
  have hsame : ((Stream.resume true).run ⟨s.conn, self⟩).2.self = self := by
    have hstream : (s.setStream i ((Stream.resume true).run ⟨s.conn, self⟩).2).streams i = s.streams i := by rw [h]
    rw [setStream_self, hself, Option.some.injEq] at hstream
    exact hstream
  obtain ⟨-, hlt | ⟨-, hlt⟩⟩ := hlowers
  · rw [Ctx.work, Ctx.work, hconn, hsame] at hlt
    exact lt_irrefl _ hlt
  · rw [Ctx.rank, Ctx.rank, hconn, hsame] at hlt
    exact lt_irrefl _ hlt

/-- A writer that sleeps holds nothing, and the window that it waits at is used up. -/
theorem waits_of_sleeps (hsleeps : self.writeLock.owner.Sleeps s.conn.window self.window)
    (hkept : Kept s.conn.window self.window self.writeLock)
    (hparks : Stream.Parks s.conn.window self.window self.writeLock) :
    self.writeLock.owner.Empty ∧ (self.writeLock = ⟨.free, []⟩ ∨
      (∃ job since, self.writeLock.owner = .writer job (.cond since)) ∧ self.window.size ≤ 0 ∨
      (∃ job amount since, self.writeLock.owner = .writer job (.parentCond amount since)) ∧
      s.conn.window.size ≤ 0) := by
  rw [Stream.Parks] at hparks
  rcases howner : self.writeLock.owner with _ | ⟨⟨chunk, callback⟩ | _, point⟩ | _
  · refine ⟨⟨rfl, rfl⟩, .inl ?_⟩
    rw [← hkept.free howner, ← howner]
  · rw [howner] at hsleeps hparks
    cases point with
    | cond since =>
      have hwaits : self.window.Waits since := hparks
      have hblocked := Window.blocked_iff.mp (hwaits.blocked (Nat.le_antisymm hwaits.le hsleeps))
      exact ⟨⟨rfl, rfl⟩, .inr (.inl ⟨⟨_, _, rfl⟩, hblocked.1⟩)⟩
    | parentCond amount since =>
      have hwaits : s.conn.window.Waits since := hparks
      have hblocked := Window.blocked_iff.mp (hwaits.blocked (Nat.le_antisymm hwaits.le hsleeps))
      exact ⟨⟨rfl, rfl⟩, .inr (.inr ⟨⟨_, _, _, rfl⟩, hblocked.1⟩)⟩
    | _ => exact absurd hsleeps id
  · rw [howner] at hsleeps
    exact absurd hsleeps id
  · exact absurd howner hkept.owner

/-- As long as no writer holds anything, all that was taken has been written. -/
theorem spent_of_empty (hw : s.WellFormed) (hspends : s.All SpendsAll)
    (hempty : ∀ i self, s.streams i = some self → self.writeLock.owner ≠ .lost ∧ self.writeLock.owner.Empty) (i : Nat) :
    total (Event.debit none) (logOf i s.conn.log) = total Event.dataBytes (logOf i s.conn.log) := by
  have idle (hidle : ∀ e ∈ logOf i s.conn.log, e.isFree) :
      total (Event.debit none) (logOf i s.conn.log) = total Event.dataBytes (logOf i s.conn.log) := by
    rw [total_eq_zero fun e he => (hidle e he).2 none, total_eq_zero fun e he => (hidle e he).1]
  by_cases hi : i = 0
  · refine idle fun e he => ?_
    have hconn := hw.ofConn e (mem_logOf.mp he).1 ((mem_logOf.mp he).2.trans hi)
    cases e with
    | wrote frame => exact ⟨if_neg hconn.2, fun _ => rfl⟩
    | received | decoded | credited => exact ⟨rfl, fun _ => rfl⟩
    | _ => exact hconn.elim
  · cases hself : s.streams i with
    | none => exact idle fun e he => (hw.absent hi hself e (mem_logOf.mp he).1 (mem_logOf.mp he).2).isNeutral.isFree
    | some self =>
      obtain ⟨hlost, hown, hparent⟩ := hempty i self hself
      have hspent := (hspends hself hlost).parent
      rw [hparent, add_zero] at hspent
      exact hspent.symm

end System

namespace Network

/-- Nothing is left to do but what the application may begin. -/
structure AtRest (n : Network) : Prop where
  goesOn (b : Bool) : (n.ends b).GoesOn
  arrived (b : Bool) : n.wire b = []
  resolved {b : Bool} {i : Nat} {self : Stream} : (n.ends b).streams i = some self → self.pendingCredits = []
  resumed (b : Bool) (i : Nat) : (n.ends b).step (.resume i true) = n.ends b

/-- Where all locks are free there is no writer left. -/
theorem AtRest.of_free {n : Network} (hon : ∀ b, (n.ends b).GoesOn) (hwire : ∀ b, n.wire b = [])
    (hfree : ∀ b i self, (n.ends b).streams i = some self →
      self.pendingCredits = [] ∧ self.writeLock.owner = .free) : AtRest n where
  goesOn := hon
  arrived := hwire
  resolved hself := (hfree _ _ _ hself).1
  resumed b i := by
    cases hself : (n.ends b).streams i with
    | none => exact System.step_absent rfl hself
    | some self =>
      have hidle : ((Stream.resume true).run ⟨(n.ends b).conn, self⟩).2 = ⟨(n.ends b).conn, self⟩ := by
        rw [Stream.resume, run_get_bind, (hfree b i self hself).2]
        rfl
      rw [System.step_stream rfl hself, hidle, System.setStream_same hself]

theorem AtRest.owed {n : Network} (h : AtRest n) (b : Bool) (i : Nat) : (n.ends b).owed i = 0 := by
  rw [System.owed]
  cases hself : (n.ends b).streams i with
  | none => rfl
  | some self =>
    rw [Option.elim_some, h.resolved hself]
    rfl

section

variable {params : Bool → Params} {actions : List Action} (h : AtRest ((start params).run actions))

include h

theorem AtRest.exact (b : Bool) : (((start params).run actions).ends b).Exact :=
    Network.exact params actions b (h.goesOn b)

/-- A writer that is not done waits at a window that is used up. -/
theorem AtRest.waits {b : Bool} {i : Nat} {self : Stream}
    (hself : (((start params).run actions).ends b).streams i = some self) :
    self.writeLock.owner.Empty ∧ (self.writeLock = ⟨.free, []⟩ ∨
      (∃ job since, self.writeLock.owner = .writer job (.cond since)) ∧ self.window.size ≤ 0 ∨
      (∃ job amount since, self.writeLock.owner = .writer job (.parentCond amount since)) ∧
        (((start params).run actions).ends b).conn.window.size ≤ 0) := by
  obtain ⟨steps, hsteps⟩ := ends_run params actions b
  have hparks : (((start params).run actions).ends b).WritersPark := by
    rw [hsteps]
    exact .run ..
  have hfits := (((settled params actions).balances b).flow.streams hself).2
  have hsleeps := System.sleeps_of_resume hself hfits (h.resumed b i)
  exact System.waits_of_sleeps hsleeps ((h.exact b).locks.stream hself) (hparks.stream hself)

theorem AtRest.inHand (b : Bool) : (((start params).run actions).ends b).inHand none = 0 ∧
    ∀ i self, (((start params).run actions).ends b).streams i = some self →
      (((start params).run actions).ends b).inHand (some i) = 0 := by
  have hsettled := settled params actions
  have hw := (hsettled.balances b).flow.wellFormed
  have hempty (i : Nat) (self : Stream) (hself : (((start params).run actions).ends b).streams i = some self) :
      self.writeLock.owner ≠ .lost ∧ self.writeLock.owner.Empty :=
        ⟨((h.exact b).locks.stream hself).owner, (h.waits hself).1⟩
  refine ⟨?_, fun i self hself => ?_⟩
  · have hspent := System.spent_of_empty hw (h.exact b).spends hempty
    have hall : total (Event.debit none) (((start params).run actions).ends b).conn.log =
        total Event.dataBytes (((start params).run actions).ends b).conn.log :=
      le_antisymm (total_le_of_logOf fun i => (hspent i).le) (total_le_of_logOf fun i => (hspent i).ge)
    rw [System.inHand, hall, total_dataBytes, sub_self]
  · obtain ⟨hlost, hown, -⟩ := hempty i self hself
    have hspent := ((h.exact b).spends hself hlost).own
    rw [hown, add_zero, hw.streamId hself, total_dataBytes_logOf, total_debit_logOf] at hspent
    rw [System.inHand, hspent, sub_self]

theorem AtRest.windows (b : Bool) :
    (((start params).run actions).ends b).conn.window.size +
    (((start params).run actions).ends !b).withheld none = 65535 ∧
      ∀ i self, (((start params).run actions).ends b).streams i = some self →
        self.window.size + (((start params).run actions).ends !b).withheld (some i) = 65535 := by
  have hsettled := settled params actions
  have hwire (w : Option Nat) : sumOf (Frame.load w) (((start params).run actions).wire !b) = 0 ∧
      sumOf (Frame.increment w) (((start params).run actions).wire b) = 0 := by
    rw [h.arrived, h.arrived]
    exact ⟨rfl, rfl⟩
  obtain ⟨hconn, hstreams⟩ := h.inHand b
  refine ⟨?_, fun i self hself => ?_⟩
  · obtain ⟨I, -, hsum⟩ := hsettled.conn_accounted h.goesOn h.exact b
    have howed : ∑ i ∈ I, (((start params).run actions).ends !b).owed i = 0 := Finset.sum_eq_zero fun i _ => h.owed _ i
    rw [hconn, howed, (hwire none).1, (hwire none).2] at hsum
    omega
  · have hsum := hsettled.stream_accounted h.goesOn h.exact hself
    rw [hstreams i self hself, h.owed, (hwire (some i)).1, (hwire (some i)).2] at hsum
    omega

theorem AtRest.stands {b : Bool} {i : Nat} {self : Stream}
    (hself : (((start params).run actions).ends b).streams i = some self) :
    self.writeLock = ⟨.free, []⟩ ∨
      (∃ job since, self.writeLock.owner = .writer job (.cond since)) ∧
        (((start params).run actions).ends !b).withheld (some i) = 65535 ∨
      (∃ job amount since, self.writeLock.owner = .writer job (.parentCond amount since)) ∧
        (((start params).run actions).ends !b).withheld none = 65535 := by
  obtain ⟨hconn, hstreams⟩ := h.windows b
  have hstream := hstreams i self hself
  have hflow := ((settled params actions).balances b).flow
  rcases (h.waits hself).2 with hfree | ⟨howner, hsize⟩ | ⟨howner, hsize⟩
  · exact .inl hfree
  · have hempty : self.window.size = 0 := le_antisymm hsize (hflow.streams hself).1.nonneg
    rw [hempty, zero_add] at hstream
    exact .inr (.inl ⟨howner, hstream⟩)
  · have hempty : (((start params).run actions).ends b).conn.window.size = 0 := le_antisymm hsize hflow.conn.2
    rw [hempty, zero_add] at hconn
    exact .inr (.inr ⟨howner, hconn⟩)

end

/-- Where nothing is left to do, a window lacks exactly what the other end withholds, and
a writer is done unless it waits at a window of which all is withheld. -/
theorem standstill (params : Bool → Params) (actions : List Action)
    (b : Bool) (h : AtRest ((start params).run actions)) :
    let n := (start params).run actions
    (n.ends b).conn.window.size = 65535 - (n.ends !b).withheld none ∧
    ∀ i self, (n.ends b).streams i = some self → self.window.size = 65535 - (n.ends !b).withheld (some i) ∧
      (self.writeLock = ⟨.free, []⟩ ∨
        (∃ job since, self.writeLock.owner = .writer job (.cond since)) ∧ (n.ends !b).withheld (some i) = 65535 ∨
        (∃ job amount since, self.writeLock.owner = .writer job (.parentCond amount since)) ∧
        (n.ends !b).withheld none = 65535) := by
  intro n
  obtain ⟨hconn, hstreams⟩ := h.windows b
  exact ⟨eq_sub_of_add_eq hconn, fun i self hself => ⟨eq_sub_of_add_eq (hstreams i self hself), h.stands hself⟩⟩

/-- A body in two pieces and its end, and all that follows from them. -/
def settledActions : List Action := postActions ++ List.replicate 8 (.deliver true false) ++
    List.replicate 2 (.deliver false false)

theorem atRest_settled : AtRest ((start fun _ => .new none .caseless).run settledActions) := by
  have hlog (c : Bool) : ∀ e ∈ (((start fun _ => .new none .caseless).run settledActions).ends c).conn.log,
      e.streamId ≤ 1 := by
    cases c <;> decide +kernel
  refine .of_free (fun c => goesOn_of_log _ _ c ?_ ?_ fun e he => ?_) (fun c => ?_) fun c i self hself => ?_
  · cases c <;> decide +kernel
  · cases c <;> decide +kernel
  · exact Nat.lt_of_le_of_lt (hlog c e he) (by decide)
  · cases c <;> decide +kernel
  · obtain ⟨e, he, hid⟩ := (settled _ settledActions).known (b := c) (i := i) (by rw [hself]; rfl)
    have hne : i ≠ 0 := (settled _ settledActions).known_ne hself
    obtain rfl : i = 1 := by
      have := hlog c e he
      omega
    have hfree : ((((start fun _ => .new none .caseless).run settledActions).ends c).streams 1).all
        fun self => self.pendingCredits = [] ∧ self.writeLock.owner = .free := by
      cases c <;> decide +kernel
    rw [hself, Option.all_some] at hfree
    exact of_decide_eq_true hfree

theorem standstill_settled : ∃ self,
    (((start fun _ => .new none .caseless).run settledActions).ends true).streams 1 = some self ∧
    self.window.size = 65535 - (((start fun _ => .new none .caseless).run settledActions).ends false).withheld
      (some 1) ∧ self.writeLock.owner = .free := by
  obtain ⟨self, hself⟩ : ∃ self,
      (((start fun _ => .new none .caseless).run settledActions).ends true).streams 1 = some self :=
    Option.isSome_iff_exists.mp (by decide +kernel)
  have hfree : ((((start fun _ => .new none .caseless).run settledActions).ends true).streams 1).map
      (·.writeLock.owner) = some .free := by
    decide +kernel
  rw [hself, Option.map_some, Option.some.injEq] at hfree
  exact ⟨self, hself, ((standstill _ _ true atRest_settled).2 1 self hself).1, hfree⟩

end Network

/-! Bodies. -/

theorem length_bodyOf (log : List Event) : ((bodyOf log).length : Int) = total Event.dataBytes log := by
  induction log with
  | nil => rfl
  | cons e log ih =>
    rw [← List.singleton_append, bodyOf_append, List.length_append, total_append, Nat.cast_add, ih, total_singleton]
    refine congrArg (· + total Event.dataBytes log) ?_
    cases e with
    | wrote frame =>
      rw [Event.dataBytes]
      by_cases hdata : frame.type = .data <;> simp [bodyOf, Event.body, hdata]
    | _ => rfl

/-- What the delegate of a stream has been handed. -/
theorem System.length_delivered (s : System) (i : Nat) :
    ((delivered (s.callsOn i)).length : Int) = total (Event.handed (some i)) s.conn.log := by
  have own (log : List Event) (h : ∀ e ∈ log, e.streamId = i) :
      ((delivered (delegateCalls log)).length : Int) = total (Event.handed (some i)) log := by
    induction log with
    | nil => rfl
    | cons e log ih =>
      obtain ⟨hid, hlog⟩ := List.forall_mem_cons.mp h
      have hone : ((delivered (delegateCalls [e])).length : Int) = e.handed (some i) := by
        cases e with
        | called j call =>
          obtain rfl : j = i := hid
          cases call with
          | dataReceived chunk => simp [delegateCalls, delivered, Event.delegateCall, DelegateCall.body, Event.handed]
          | _ => rfl
        | _ => rfl
      have hsplit : delegateCalls (e :: log) = delegateCalls [e] ++ delegateCalls log :=
        @List.filterMap_append _ _ [e] log _
      rw [hsplit, delivered, List.flatMap_append, List.length_append, Nat.cast_add]
      change ((delivered (delegateCalls [e])).length : Int) + ((delivered (delegateCalls log)).length : Int) = _
      rw [hone, ih hlog, ← List.singleton_append, total_append, total_singleton]
  have hall : total (Event.handed (some i)) (logOf i s.conn.log) = total (Event.handed (some i)) s.conn.log :=
    total_logOf fun e he => by
      cases e with
      | called j call =>
        cases call with
        | dataReceived chunk => exact if_neg fun h => he h.symm
        | _ => rfl
      | _ => rfl
  rw [callsOn, own _ fun e he => (mem_logOf.mp he).2, hall]

namespace Network

/-- What has been written of a stream has arrived, and has been handed over unless it
was withheld. -/
theorem AtRest.length_delivered {params : Bool → Params}
    {actions : List Action} (h : AtRest ((start params).run actions)) (b : Bool)
    (i : Nat) : ((delivered ((((start params).run actions).ends !b).callsOn i)).length : Int) +
      (((start params).run actions).ends !b).withheld (some i) =
        ((bodyOf (logOf i (((start params).run actions).ends b).conn.log)).length : Int) := by
  have hdata := sums_exact (settled params actions).sound (h.goesOn !b).loop (Frame.load (some i))
  rw [h.arrived, Bool.not_not] at hdata
  rw [System.length_delivered, length_bodyOf, total_dataBytes_logOf, ← hdata, System.withheld]
  change _ = _ + (0 : Int)
  omega

/-- Where nothing is left to do, all of a body has been delivered unless some of it, or
all credit of the connection, was withheld. -/
theorem delivered_at_rest (params : Bool → Params) (actions : List Action) (b : Bool) (i : Nat) (self : Stream)
    (h : AtRest ((start params).run actions)) (hself : (((start params).run actions).ends b).streams i = some self)
    (hcalls : CallsInOrder (logOf i (((start params).run actions).ends b).conn.log))
    (hown : (((start params).run actions).ends !b).withheld (some i) = 0)
    (hconn : (((start params).run actions).ends !b).withheld none ≠ 65535) :
    delivered ((((start params).run actions).ends !b).callsOn i) =
      acceptedOf (logOf i (((start params).run actions).ends b).conn.log) := by
  obtain ⟨steps, hsteps⟩ := ends_run params actions b
  have hheading : HeadingInvariant (((start params).run actions).ends b) := by
    rw [hsteps]
    exact .run ..
  have hfree : self.writeLock = ⟨.free, []⟩ := by
    rcases h.stands hself with hfree | ⟨-, hall⟩ | ⟨-, hall⟩
    · exact hfree
    · rw [hown] at hall
      cases hall
    · exact absurd hall hconn
  obtain ⟨phase, hsending⟩ := (hheading.streams hself).sends hcalls
  have hwritten : bodyOf (logOf i (((start params).run actions).ends b).conn.log) =
      acceptedOf (logOf i (((start params).run actions).ends b).conn.log) := by
    have horder := hsending.order (by rw [hfree]; exact nofun)
    rw [hfree] at horder
    exact (List.append_nil _).symm.trans horder
  have hlength := h.length_delivered b i
  rw [hown, add_zero, hwritten, Nat.cast_inj] at hlength
  refine List.IsPrefix.eq_of_length ?_ hlength
  cases hself' : (((start params).run actions).ends !b).streams i with
  | none =>
    rw [handed_absent params actions (!b) hself']
    exact List.nil_prefix
  | some self' =>
    have hhanded := handed_on params actions (!b) hself'
    rw [Bool.not_not] at hhanded
    exact (hhanded hcalls).1

theorem delivered_at_rest_settled :
    delivered ((((start fun _ => .new none .caseless).run settledActions).ends false).callsOn 1) = [1, 2, 3] := by
  obtain ⟨self, hself⟩ : ∃ self,
      (((start fun _ => .new none .caseless).run settledActions).ends true).streams 1 = some self :=
    Option.isSome_iff_exists.mp (by decide +kernel)
  have hbody :
      acceptedOf (logOf 1 (((start fun _ => .new none .caseless).run settledActions).ends true).conn.log) =
        [1, 2, 3] := by
    decide +kernel
  rw [← hbody]
  exact delivered_at_rest _ settledActions true 1 self atRest_settled hself
    (by decide +kernel) (by decide +kernel) (by decide +kernel)

end Network

end TornadoHttp2
