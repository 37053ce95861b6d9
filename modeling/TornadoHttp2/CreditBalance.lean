import TornadoHttp2.CreditConservation
import TornadoHttp2.HandedCredit
import TornadoHttp2.LockRelease
import TornadoHttp2.SentFrames
import TornadoHttp2.SpentCredit

/-! Credit between two ends to the byte. While both ends go on, the only credit that
does not come back is that of DATA that no delegate was handed. -/

namespace TornadoHttp2

open Prog

/-! What a sender is credited with, exactly. -/

structure Frame.Refills (frame : Frame) (window : Window) : Prop where
  accepts : window.accepts frame
  length : frame.data.length = 4
  reserved : unpackBytes frame.data < 2 ^ 31

theorem Frame.Refills.credits {frame : Frame} {window : Window} (h : frame.Refills window) :
    wp (Window.applyWindowUpdate frame) (fun amount _ => amount = unpackBytes frame.data)
      (fun _ _ => unpackBytes frame.data = 0) window := by
  have hword : unpackWord frame.data = .ok (unpackBytes frame.data) := if_pos h.length
  have hmask : unpackBytes frame.data &&& 0x7fffffff = unpackBytes frame.data := by
    rw [show (0x7fffffff : Nat) = 2 ^ 31 - 1 from rfl, Nat.and_two_pow_sub_one_eq_mod, Nat.mod_eq_of_lt h.reserved]
  have raises {α : Type} {w : Window} {code : ErrorCode}
    {message : String} {Q : α → Window → Prop} {p : Prop} (hp : p) :
      wp (Window.raiseError code message) Q (fun _ _ => p) w := by
    rw [Window.raiseError, wp_bind, wp_get]
    cases w.streamId <;> exact hp
  have haccepts := h.accepts (unpackBytes frame.data) (by rw [hword]; rfl)
  rw [hmask] at haccepts
  rw [Window.applyWindowUpdate, hword]
  dsimp only
  rw [hmask, wp_bind, wp_when]
  refine ⟨fun hzero => ?_, fun _ => ?_⟩
  · exact raises hzero
  · simp only [Window.adjust, wp_bind, wp_modify, wp_get, wp_when]
    exact ⟨fun hover => absurd hover (not_lt.mpr haccepts), fun _ => rfl⟩

/-- The credit of a frame that has been handled. -/
def Credits (frame : Frame) (log log' : List Event) : Prop :=
  ∀ w, w ≠ some 0 → total (Event.credit w) log' = total (Event.credit w) log + frame.increment w

section

variable {frame : Frame} {log : List Event}

theorem Credits.nothing (h : unpackBytes frame.data = 0) : Credits frame log log := by
  intro w _
  rw [Frame.increment, h]
  simp

theorem Credits.whole {window : Option Nat} (htype : frame.type = .windowUpdate) (hid : frame.streamId = window.getD 0)
    (hwindow : window ≠ some 0) : Credits frame log (log ++ [.credited window (unpackBytes frame.data)]) := by
  intro w hw
  rw [total_append, total_singleton, Event.credit, Frame.increment]
  refine congrArg (total _ log + ·) (if_congr ?_ rfl rfl)
  rw [hid, and_iff_right htype]
  cases window <;> cases w <;> simp_all [eq_comm]

end

theorem Conn.handleFrame_credits {frame : Frame} {c : Conn}
    (htype : frame.type = .windowUpdate) (hid : frame.streamId = 0)
    (h : frame.Refills c.window) : Credits frame c.log ((handleFrame frame).run c).2.log := by
  have hcredits := h.credits
  rw [handleFrame, htype]
  dsimp only
  rw [handleWindowUpdateFrame, run_bind, run_zoom]
  rcases hrun : (Window.applyWindowUpdate frame).run c.window with ⟨e | amount, window⟩
  · exact .nothing ((wp_of_error hrun).mp hcredits)
  · obtain rfl : amount = unpackBytes frame.data := (wp_of_ok hrun).mp hcredits
    exact .whole htype hid fun h => by cases h

theorem Stream.handleFrame_credits {frame : Frame} {later : Bool} {c : Ctx} (htype : frame.type = .windowUpdate)
    (hid : frame.streamId = c.self.streamId) (hne : frame.streamId ≠ 0) (h : frame.Refills c.self.window) :
    Credits frame c.conn.log ((handleFrame frame later).run c).2.conn.log := by
  have hcredits := h.credits
  rw [handleFrame_windowUpdate htype, handleWindowUpdateFrame, run_get_bind, run_bind, run_zoom]
  rcases hrun : (Window.applyWindowUpdate frame).run c.self.window with ⟨e | amount, window⟩
  · exact .nothing ((wp_of_error hrun).mp hcredits)
  · obtain rfl : amount = unpackBytes frame.data := (wp_of_ok hrun).mp hcredits
    refine .whole htype hid fun h => hne ?_
    rw [hid]
    exact Option.some.inj h

namespace System

variable {s s' : System} {frame : Frame} {later : Bool} {a : Action} {r : Except PyException Unit}

/-- The windows take the whole increment of a frame. -/
structure Refilled (s : System) (frame : Frame) : Prop where
  conn : frame.streamId = 0 → frame.Refills s.conn.window
  stream {self : Stream} : frame.streamId ≠ 0 → s.streams frame.streamId = some self → frame.Refills self.window
  absent : frame.streamId ≠ 0 → s.streams frame.streamId = none → unpackBytes frame.data = 0

theorem Dispatched.credits (hw : s.WellFormed) (htype : frame.type = .windowUpdate) (h : s.Refilled frame)
    (hd : Dispatched s frame later r s') : Credits frame s.conn.log s'.conn.log := by
  cases hd with
  | conn hid => exact Conn.handleFrame_credits htype hid (h.conn hid)
  | @stream self hid hself => 
    exact Stream.handleFrame_credits (c := ⟨s.conn, self⟩) htype (hw.streamId hself).symm hid (h.stream hid hself)
  | accepted _ _ _ hheaders => cases htype.symm.trans hheaders
  | invalid hid hself => exact .nothing (h.absent hid hself)
  | ignored hid hself => exact .nothing (h.absent hid hself)
  | past hid hself => exact .nothing (h.absent hid hself)
  | future hid hself => exact .nothing (h.absent hid hself)

theorem total_mono {f : Event → Int} (hf : ∀ e, 0 ≤ f e) {log log' : List Event} (h : log <+: log') :
    total f log ≤ total f log' := by
  obtain ⟨es, rfl⟩ := h
  rw [total_append]
  have hnonneg : 0 ≤ total f es := total_nonneg fun e _ => hf e
  omega

theorem credit_nonneg (w : Option Nat) (e : Event) : 0 ≤ e.credit w := by
  cases e with
  | credited window amount =>
    rw [Event.credit]
    split <;> omega
  | _ => exact le_refl _

theorem step_credits (hw : s.WellFormed) (hloop : (s.step a).loop = .running)
    (hupdate : ∀ frame later, a = .receive frame later → frame.type = .windowUpdate → s.Refilled frame) {w : Option Nat}
    (hwindow : w ≠ some 0) : total (Event.credit w) (s.step a).conn.log =
      total (Event.credit w) s.conn.log + sumOf (Frame.increment w) (s.reads a) := by
  have hmost := step_credit hw a w
  have hgrown := total_mono (credit_nonneg w) (log_extends hw a)
  by_cases h : ∃ frame later, a = .receive frame later ∧ frame.type = .windowUpdate
  · obtain ⟨frame, later, rfl, htype⟩ := h
    have hreads := Reads.of_running hloop
    obtain ⟨s₁, hh, ha⟩ := step_outcome hreads.1 frame later
    rw [hreads.reads, sumOf_singleton, ha.credit w]
    generalize s.outcome frame later = r at hh
    cases hh with
    | oversized hsize => exact absurd hreads.2.1 (not_le.mpr hsize)
    | interrupted _ hblock => exact absurd (hblock.symm.trans hreads.2.2) nofun
    | passed _ _ hd =>
      have hlogged : total (Event.credit w) (s.logged (.received frame)).conn.log = total (Event.credit w) s.conn.log :=
        total_append.trans (add_zero _)
      rw [← hlogged]
      have hrefilled := hupdate frame later rfl htype
      have hlater : (s.logged (.received frame)).Refilled frame := ⟨hrefilled.conn, hrefilled.stream, hrefilled.absent⟩
      exact hd.credits (hw.logged (e := .received frame) (.inr (.inl trivial))) htype hlater w hwindow
  · have hnone : sumOf (Frame.increment w) (s.reads a) = 0 := by
      cases a with
      | receive frame later =>
        have hother : frame.increment w = 0 := Frame.increment_of_ne fun htype => h ⟨frame, later, rfl, htype⟩
        rw [reads]
        split
        · rw [sumOf_singleton, hother]
        · rfl
      | _ => rfl
    omega

/-- The loop reads on, the socket is open, and every stream id fits its field. -/
structure GoesOn (s : System) : Prop where
  loop : s.loop = .running
  opened : s.conn.closed = false
  ids {i : Nat} : (s.streams i).isSome → i < 2 ^ 31

theorem GoesOn.of_step (hw : s.WellFormed) (h : (s.step a).GoesOn) : s.GoesOn where
  loop := running_of_step h.loop
  opened := open_of_step hw h.opened
  ids hi := h.ids (stream_step hi a)

/-- The books of an end that goes on, to the byte. -/
structure Exact (s : System) : Prop where
  spends : s.All SpendsAll
  credited {w : Option Nat} (hw : w ≠ some 0) : total (Event.credit w) s.conn.log = s.readSum (Frame.increment w)
  even {w : Option Nat} (hw : w ≠ some 0) : s.Even w
  locks : s.LocksKept

theorem Exact.start (isClient : Bool) (params : Params) : (System.start isClient params).Exact where
  spends := fun _ _ h => by cases h
  credited _ := rfl
  even _ := ⟨∅, fun _ _ => rfl, rfl⟩
  locks := ⟨rfl, by simp [System.start]⟩

/-- A writer that can write what it holds does not fail. -/
theorem GoesOn.breaksWrite (h : s.GoesOn) (hw : s.WellFormed)
    (hpieces : ∀ i self, s.streams i = some self → ownPiece self.writeLock.owner < 2 ^ 31) :
    s.breaksWrite a = false := by
  cases a with
  | resume i flushed =>
    rw [System.breaksWrite]
    cases hself : s.streams i with
    | none => rfl
    | some self =>
      have hid : self.streamId < 2 ^ 31 := by
        rw [hw.streamId hself]
        exact h.ids (by rw [hself]; rfl)
      have hpiece := hpieces i self hself
      rw [Option.any_some, h.opened]
      rcases howner : self.writeLock.owner with _ | ⟨⟨chunk, callback⟩ | _, point⟩ | _
      · rfl
      · rw [howner] at hpiece
        cases point with
        | consume amount =>
          have hpiece' : amount < 2 ^ 31 := hpiece
          have hlength : (chunk.take amount.toNat).length < 2 ^ 31 := by
            rw [List.length_take]
            omega
          simp only [Owner.fails, Bool.false_or, Bool.or_eq_false_iff, decide_eq_false_iff_not, not_le]
          exact ⟨hid, hlength⟩
        | _ => rfl
      · rfl
      · rfl
  | _ => rfl

theorem Exact.step (h : s.Exact) {Q : Conn → Prop} (hflow : FlowInvariant Q s)
    (hpayable : s.Payable) (hon : (s.step a).GoesOn)
    (hpieces : ∀ i self, s.streams i = some self → ownPiece self.writeLock.owner < 2 ^ 31)
    (hframe : ∀ frame later, a = .receive frame later → frame.streamId < 2 ^ 31)
    (hupdate : ∀ frame later, a = .receive frame later → frame.type = .windowUpdate → s.Refilled frame) :
    (s.step a).Exact where
  spends := hflow.spends h.spends a
  credited hw := by
    rw [step_credits hflow.wellFormed hon.loop hupdate hw,
      h.credited hw, readSum, readSum, step_received hflow.wellFormed, sumOf_append]
  even hw := by
    have hbefore := hon.of_step hflow.wellFormed
    exact (h.even hw).step hw hpayable hbefore.opened (fun i self hself => hbefore.ids (by rw [hself]; rfl)) hframe
  locks := h.locks.step ((hon.of_step hflow.wellFormed).breaksWrite hflow.wellFormed hpieces)

/-- On one stream, only its own futures owe anything. -/
theorem Even.stream {i : Nat} (h : s.Even (some i)) :
    total (Event.handed (some i)) s.conn.log = total (Event.grants (some i)) s.conn.log + s.owed i := by
  obtain ⟨I, hout, hsum⟩ := h
  have howed : ∑ j ∈ I, s.owedOn (some i) j = if i ∈ I then s.owed i else 0 := Finset.sum_ite_eq I i s.owed
  rw [hsum, howed]
  split
  · rfl
  · rename_i hi
    rw [hout i hi]

/-- What its writers have taken from a window and not written yet. -/
def inHand (s : System) (w : Option Nat) : Int := total (Event.debit w) s.conn.log - s.writtenSum (Frame.load w)

/-- What has been read as DATA and was handed to no delegate. -/
def withheld (s : System) (w : Option Nat) : Int := s.readSum (Frame.load w) - total (Event.handed w) s.conn.log

end System

namespace Network

variable {n : Network} {b : Bool} {frame : Frame} {rest : List Frame}

theorem increment_le (hwire : n.wire b = frame :: rest) {w : Option Nat} {m : Int}
    (h : sumOf (Frame.increment w) (n.wire b) ≤ m) : frame.increment w ≤ m := by
  have hrest : 0 ≤ sumOf (Frame.increment w) rest := sumOf_nonneg fun _ => Frame.increment_nonneg
  have hsplit : sumOf (Frame.increment w) (n.wire b) = frame.increment w + sumOf (Frame.increment w) rest := by
    rw [hwire, sumOf, List.map_cons, List.sum_cons, sumOf]
  omega

theorem Settled.known_ne (h : Settled n) {i : Nat} {self : Stream}
    (hself : (n.ends b).streams i = some self) : i ≠ 0 := by
  rintro rfl
  cases (h.balances b).books.wellFormed.zero.symm.trans hself

theorem Settled.opened (h : Settled n) {i : Nat} {self : Stream} (hself : (n.ends b).streams i = some self) :
    total Event.initialSize (logOf i (n.ends b).conn.log) = (65535 : Nat) := by
  have hopened : total Event.initialSize (logOf i (n.ends b).conn.log) = (n.ends b).conn.setting .initialWindowSize :=
    (h.balances b).sizes.opened hself
  rw [hopened, (h.balances b).initial]
  rfl

theorem Settled.known (h : Settled n) {i : Nat} (hi : ((n.ends b).streams i).isSome) :
    ∃ e ∈ (n.ends b).conn.log, e.streamId = i := by
  obtain ⟨self, hself⟩ := Option.isSome_iff_exists.mp hi
  by_contra hnone
  have hlog : logOf i (n.ends b).conn.log = [] :=
    List.filter_eq_nil_iff.mpr fun e he hid => hnone ⟨e, he, of_decide_eq_true hid⟩
  have hopened := h.opened hself
  rw [hlog] at hopened
  cases hopened

/-- Nothing comes back to a stream that there is not. -/
theorem Settled.absent (h : Settled n) (b : Bool) {i : Nat} (hi : i ≠ 0) (hnone : (n.ends b).streams i = none) :
    sumOf (Frame.increment (some i)) (n.wire b) ≤ 0 := by
  have hupdates := increments_split h.sound b (some i)
  have hreturned := (h.balances !b).books.stream hi
  have hdata := loads_split h.sound b (some i)
  have howed := System.owed_nonneg (s := n.ends !b) i
  have hread : 0 ≤ (n.ends b).readSum (Frame.increment (some i)) := sumOf_nonneg fun _ => Frame.increment_nonneg
  have hload : 0 ≤ sumOf (Frame.load (some i)) (n.wire !b) := sumOf_nonneg fun _ => Frame.load_nonneg
  have hwritten : (n.ends b).writtenSum (Frame.load (some i)) = 0 := by
    rw [← total_dataBytes_logOf]
    refine total_eq_zero fun e he => Event.isNeutral.dataBytes (Event.isRefusal.isNeutral ?_)
    exact (h.balances b).books.wellFormed.absent hi hnone e (mem_logOf.mp he).1 (mem_logOf.mp he).2
  omega

/-- What a writer holds has come out of its window. -/
theorem Settled.piece_le (h : Settled n) {i : Nat} {self : Stream} (hself : (n.ends b).streams i = some self) :
    ownPiece self.writeLock.owner ≤ 65535 := by
  have hwindow : _ ≤ (65535 : Int) := h.stream b hself
  have hnonneg := ((h.balances b).flow.streams hself).1.nonneg
  have howed := System.owed_nonneg (s := n.ends !b) i
  have hload : 0 ≤ sumOf (Frame.load (some i)) (n.wire !b) := sumOf_nonneg fun _ => Frame.load_nonneg
  have hincrement : 0 ≤ sumOf (Frame.increment (some i)) (n.wire b) := sumOf_nonneg fun _ => Frame.increment_nonneg
  omega

/-- A WINDOW_UPDATE of the other end is taken whole. -/
theorem Settled.refilled (h : Settled n) (hwire : n.wire b = frame :: rest) (hreads : (n.ends b).Reads frame)
    (htype : frame.type = .windowUpdate) (hlength : frame.data.length = 4) : (n.ends b).Refilled frame := by
  have haccepts := h.accepts hwire false
  have hload (w : Option Nat) : 0 ≤ sumOf (Frame.load w) (n.wire !b) := sumOf_nonneg fun _ => Frame.load_nonneg
  have hunpacked {w : Option Nat} (hid : frame.streamId = w.getD 0) : frame.increment w =
    unpackBytes frame.data := if_pos ⟨htype, hid⟩
  refine ⟨fun hid => ⟨haccepts.2 hreads htype hid, hlength, ?_⟩,
    fun {self} hid hself => ⟨haccepts.1 hreads htype self hself, hlength, ?_⟩, fun hid hnone => ?_⟩
  · have hwindow : _ ≤ (65535 : Int) := h.conn b ∅
    have hnonneg := (h.balances b).flow.conn.2
    have hbound : frame.increment none ≤ 65535 := by
      refine increment_le hwire ?_
      rw [Finset.sum_empty] at hwindow
      have := hload none
      omega
    rw [hunpacked (w := none) hid] at hbound
    omega
  · have hwindow : _ ≤ (65535 : Int) := h.stream b hself
    have hnonneg := ((h.balances b).flow.streams hself).1.nonneg
    have hpiece := (pieces_nonneg ((h.balances b).flow.streams hself).2).1
    have howed := System.owed_nonneg (s := n.ends !b) frame.streamId
    have hbound : frame.increment (some frame.streamId) ≤ 65535 := by
      refine increment_le hwire ?_
      have := hload (some frame.streamId)
      omega
    rw [hunpacked (w := some frame.streamId) rfl] at hbound
    omega
  · have hbound := increment_le hwire (h.absent b hid hnone)
    rw [hunpacked (w := some frame.streamId) rfl] at hbound
    omega

section

variable (params : Bool → Params) (actions : List Action) (b : Bool)

theorem proper_on_wire (hmem : frame ∈ ((start params).run actions).wire b) : frame.Proper := by
  obtain ⟨refused, hsent, -⟩ := ((sound params actions).carries b).history
  obtain ⟨steps, hsteps⟩ := ends_run params actions !b
  have hwritten := System.written_proper (!b) (params !b) steps frame
  rw [← hsteps] at hwritten
  refine hwritten ?_
  change frame ∈ System.party.sent _
  rw [← hsent]
  exact List.mem_append_right _ hmem

theorem payable : (((start params).run actions).ends b).Payable := by
  obtain ⟨steps, hsteps⟩ := ends_run params actions b
  rw [hsteps]
  exact steps.foldlRecOn System.step (.start b (params b)) fun _ h a _ => h.step a

/-- An end that goes on has kept its books to the byte. -/
theorem exact (h : (((start params).run actions).ends b).GoesOn) : (((start params).run actions).ends b).Exact := by
  refine run_invariant params actions b (Q := fun _ s => s.GoesOn → s.Exact) (fun b _ => .start b (params b)) ?_ ?_ h
  · intro earlier c a ih ha hon
    have hsettled := settled params earlier
    have hflow := (hsettled.balances c).flow
    have hown := System.Action.isOwn_iff.mp ha
    refine (ih c (hon.of_step hflow.wellFormed)).step hflow (payable params earlier c) hon (fun i self hself => ?_)
      (fun frame later h => absurd h (hown frame later)) fun frame later h => absurd h (hown frame later)
    exact Int.lt_of_le_of_lt (hsettled.piece_le hself) (by decide)
  · intro earlier c frame rest later ih hwire _ hon
    have hsettled := settled params earlier
    have hflow := (hsettled.balances c).flow
    have hproper := proper_on_wire params earlier c (hwire ▸ List.mem_cons_self)
    refine (ih c (hon.of_step hflow.wellFormed)).step hflow
      (payable params earlier c) hon (fun i self hself => ?_) ?_ ?_
    · exact Int.lt_of_le_of_lt (hsettled.piece_le hself) (by decide)
    · rintro _ _ ⟨⟩
      exact hproper.packs.streamId
    · rintro _ _ ⟨⟩ htype
      have hregular := hproper.regular
      rw [Frame.Regular, htype] at hregular
      exact hsettled.refilled hwire (System.Reads.of_running hon.loop) htype hregular

end

theorem goesOn_of_log (params : Bool → Params) (actions : List Action) (b : Bool)
    (hloop : (((start params).run actions).ends b).loop = .running)
    (hopen : (((start params).run actions).ends b).conn.closed = false)
    (hlog : ∀ e ∈ (((start params).run actions).ends b).conn.log, e.streamId < 2 ^ 31) :
    (((start params).run actions).ends b).GoesOn := by
  refine ⟨hloop, hopen, fun hi => ?_⟩
  obtain ⟨e, he, rfl⟩ := (settled params actions).known hi
  exact hlog e he

/-- While an end listens, what it has not read is on its way. -/
theorem sums_exact (h : Duplex.Sound System.party n) {b : Bool} (hloop : (n.ends b).loop = .running) (f : Frame → Int) :
    (n.ends b).readSum f + sumOf f (n.wire b) = (n.ends !b).writtenSum f := by
  have hall := (h.carries b).all (decide_eq_true hloop)
  rw [System.readSum, System.writtenSum, ← sumOf_append]
  exact congrArg (sumOf f) hall

/-- What comes back to a window is what its debits have paid for, less what is withheld. -/
theorem returns_exact (h : Duplex.Sound System.party n)
    (hon : ∀ c, (n.ends c).GoesOn) (hexact : ∀ c, (n.ends c).Exact) {w : Option Nat}
    (hw : w ≠ some 0) : total (Event.credit w) (n.ends b).conn.log - total (Event.debit w) (n.ends b).conn.log +
      (n.ends b).inHand w + sumOf (Frame.load w) (n.wire !b) + (n.ends !b).withheld w +
        (total (Event.handed w) (n.ends !b).conn.log - total (Event.grants w) (n.ends !b).conn.log) +
          sumOf (Frame.increment w) (n.wire b) = 0 := by
  have hcredited := (hexact b).credited hw
  have hupdates := sums_exact h (hon b).loop (Frame.increment w)
  have hdata := sums_exact h (hon !b).loop (Frame.load w)
  rw [Bool.not_not] at hdata
  rw [System.inHand, System.withheld, System.total_grants]
  omega

theorem Settled.conn_accounted (h : Settled n) (hon : ∀ c, (n.ends c).GoesOn)
    (hexact : ∀ c, (n.ends c).Exact) (b : Bool) :
    ∃ I : Finset Nat, (∀ i ∉ I, (n.ends !b).owed i = 0) ∧
      (n.ends b).conn.window.size + (n.ends b).inHand none + sumOf (Frame.load none)
      (n.wire !b) + (n.ends !b).withheld none +
        ∑ i ∈ I, (n.ends !b).owed i + sumOf (Frame.increment none) (n.wire b) = 65535 := by
  have hreturns := @returns_exact n b h.sound hon hexact none nofun
  obtain ⟨I, hout, hsum⟩ := (hexact !b).even (w := none) nofun
  have howed : ∑ i ∈ I, (n.ends !b).owedOn none i = ∑ i ∈ I, (n.ends !b).owed i :=
    Finset.sum_congr rfl fun i _ => if_pos rfl
  have hsize : _ = (65535 : Int) + _ - _ := (h.balances b).flow.conn.1
  refine ⟨I, hout, ?_⟩
  omega

theorem Settled.stream_accounted (h : Settled n) (hon : ∀ c, (n.ends c).GoesOn)
    (hexact : ∀ c, (n.ends c).Exact) {i : Nat}
    {self : Stream} (hself : (n.ends b).streams i = some self) :
    self.window.size + (n.ends b).inHand (some i) + sumOf (Frame.load (some i)) (n.wire !b) +
    (n.ends !b).withheld (some i) +
      (n.ends !b).owed i + sumOf (Frame.increment (some i)) (n.wire b) = 65535 := by
  have hwindow : some i ≠ some 0 := fun hi => h.known_ne hself (Option.some.inj hi)
  have hreturns := @returns_exact n b h.sound hon hexact (some i) hwindow
  have howed := ((hexact !b).even hwindow).stream
  have hsize := ((h.balances b).flow.streams hself).1.size
  have hopened := h.opened hself
  rw [(h.balances b).books.wellFormed.streamId hself, total_credit_logOf, total_debit_logOf, hopened] at hsize
  omega

/-- Writers write no more than they have taken. -/
theorem Settled.inHand_nonneg (h : Settled n) (b : Bool) : 0 ≤ (n.ends b).inHand none ∧
    ∀ i self, (n.ends b).streams i = some self → 0 ≤ (n.ends b).inHand (some i) := by
  refine ⟨?_, fun i self hself => ?_⟩
  · have hpaid : total Event.dataBytes (n.ends b).conn.log ≤ total (Event.debit none) (n.ends b).conn.log :=
      total_le_of_logOf fun i => ((h.balances b).flow.logOf i).1
    rw [total_dataBytes] at hpaid
    exact sub_nonneg.mpr hpaid
  · obtain ⟨haccounts, hfits⟩ := (h.balances b).flow.streams hself
    have hpiece := (pieces_nonneg hfits).1
    have hpaid := haccounts.data
    rw [(h.balances b).books.wellFormed.streamId hself, total_debit_logOf, total_dataBytes_logOf] at hpaid
    rw [System.inHand]
    omega

/-- No more is handed over than has been read. -/
theorem Settled.withheld_nonneg (h : Settled n) (hexact : ∀ c, (n.ends c).Exact)
    (b : Bool) {w : Option Nat} (hw : w ≠ some 0) :
    0 ≤ (n.ends b).withheld w := by
  have heven := (hexact b).even hw
  rw [System.withheld]
  cases w with
  | none =>
    obtain ⟨I, -, hsum⟩ := heven
    have howed : ∑ i ∈ I, (n.ends b).owedOn none i = ∑ i ∈ I, (n.ends b).owed i :=
      Finset.sum_congr rfl fun i _ => if_pos rfl
    have hbooks := (h.balances b).books.conn I
    rw [← System.total_grants] at hbooks
    omega
  | some i =>
    have hsum := heven.stream
    have hbooks := (h.balances b).books.stream fun hi => hw (congrArg some hi)
    rw [← System.total_grants] at hbooks
    omega

/-- Between two ends that go on, no credit is lost but what was withheld. -/
theorem credit_accounted (params : Bool → Params) (actions : List Action) (b : Bool)
    (h : ∀ c, (((start params).run actions).ends c).GoesOn) :
    let n := (start params).run actions
    (0 ≤ (n.ends b).inHand none ∧ 0 ≤ (n.ends !b).withheld none ∧ ∃ I : Finset Nat, (∀ i ∉ I, (n.ends !b).owed i = 0) ∧
      (n.ends b).conn.window.size + (n.ends b).inHand none + sumOf (Frame.load none)
      (n.wire !b) + (n.ends !b).withheld none +
        ∑ i ∈ I, (n.ends !b).owed i + sumOf (Frame.increment none) (n.wire b) = 65535) ∧
    ∀ i self, (n.ends b).streams i = some self → 0 ≤ (n.ends b).inHand (some i) ∧ 0 ≤ (n.ends !b).withheld (some i) ∧
      self.window.size + (n.ends b).inHand (some i) + sumOf (Frame.load (some i)) (n.wire !b) +
      (n.ends !b).withheld (some i) +
        (n.ends !b).owed i + sumOf (Frame.increment (some i)) (n.wire b) = 65535 := by
  intro n
  have hsettled : Settled n := settled params actions
  have hexact (c : Bool) : (n.ends c).Exact := exact params actions c (h c)
  obtain ⟨hconn, hstreams⟩ := hsettled.inHand_nonneg b
  refine ⟨⟨hconn, hsettled.withheld_nonneg hexact _ nofun, hsettled.conn_accounted h hexact b⟩, fun i self hself => ?_⟩
  have hwindow : some i ≠ some 0 := fun hi => hsettled.known_ne hself (Option.some.inj hi)
  exact ⟨hstreams i self hself, hsettled.withheld_nonneg hexact _ hwindow, hsettled.stream_accounted h hexact hself⟩

/-- A request whose body the delegate of the server has and has not paid back. -/
def postedActions : List Action :=
  [.act true .createStream,
    .act true (.writeHeaders 1 (.request (ascii "POST") (ascii "/")) .empty [1, 2, 3] none)] ++
    List.replicate 3 (.act true (.resume 1 true)) ++ List.replicate 3 (.deliver false true)

theorem credit_accounted_posted : ∃ self,
    (((start fun _ => .new none .caseless).run postedActions).ends true).streams 1 = some self ∧
    self.window.size = 65532 ∧ (((start fun _ => .new none .caseless).run postedActions).ends false).owed 1 = 3 ∧
    self.window.size + (((start fun _ => .new none .caseless).run postedActions).ends true).inHand (some 1) +
      sumOf (Frame.load (some 1)) (((start fun _ => .new none .caseless).run postedActions).wire false) +
        (((start fun _ => .new none .caseless).run postedActions).ends false).withheld (some 1) +
          (((start fun _ => .new none .caseless).run postedActions).ends false).owed 1 +
            sumOf (Frame.increment (some 1))
              (((start fun _ => .new none .caseless).run postedActions).wire true) = 65535 := by
  have hon (c : Bool) : (((start fun _ => .new none .caseless).run postedActions).ends c).GoesOn := by
    refine goesOn_of_log _ _ c ?_ ?_ ?_ <;> cases c <;> decide +kernel
  obtain ⟨self, hself⟩ : ∃ self,
      (((start fun _ => .new none .caseless).run postedActions).ends true).streams 1 = some self :=
    Option.isSome_iff_exists.mp (by decide +kernel)
  have hsize : ((((start fun _ => .new none .caseless).run postedActions).ends true).streams 1).map
      (·.window.size) = some 65532 := by
    decide +kernel
  rw [hself, Option.map_some, Option.some.injEq] at hsize
  exact ⟨self, hself, hsize, by decide +kernel, ((credit_accounted _ _ true hon).2 1 self hself).2.2⟩

end Network

end TornadoHttp2
