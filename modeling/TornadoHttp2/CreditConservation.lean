import TornadoHttp2.CreditBooks
import TornadoHttp2.InitialWindowSize
import TornadoHttp2.Network

/-! Credit between two ends. What a window holds, what DATA on its way has taken
from it, what the other end still owes and what WINDOW_UPDATE frames on their way
bring back never come to more than the window had at first. -/

namespace TornadoHttp2

section

variable {f : Frame → Int} {s : System}

theorem total_dataBytes : total Event.dataBytes s.conn.log = s.writtenSum (Frame.load none) := by
  refine System.total_filterMap (fun e => ?_) _
  cases e with
  | wrote frame => exact if_congr (by simp) rfl rfl
  | _ => rfl

theorem total_dataBytes_logOf {i : Nat} :
    total Event.dataBytes (logOf i s.conn.log) = s.writtenSum (Frame.load (some i)) := by
  have hall : total (fun e : Event => e.frame.elim 0 (Frame.load (some i))) s.conn.log =
      s.writtenSum (Frame.load (some i)) :=
    System.total_filterMap (fun _ => rfl) _
  have hown : total (fun e : Event => e.frame.elim 0 (Frame.load (some i))) (logOf i s.conn.log) =
      total (fun e : Event => e.frame.elim 0 (Frame.load (some i))) s.conn.log :=
    total_logOf fun e he => by
      cases e with
      | wrote frame => exact if_neg fun h => he h.2.symm
      | _ => rfl
  rw [← hall, ← hown]
  refine congrArg List.sum (List.map_congr_left fun e he => ?_)
  cases e with
  | wrote frame =>
    have hid : frame.streamId = i := (mem_logOf.mp he).2
    exact if_congr (by simp [hid]) rfl rfl
  | _ => rfl

end

namespace Network

variable {n : Network} {b : Bool}

/-- What one end has written, the other has read, or it is on its way. -/
theorem sums_split (h : Duplex.Sound System.party n) {f : Frame → Int} (hf : ∀ frame, 0 ≤ f frame) :
    (n.ends b).readSum f + sumOf f (n.wire b) ≤ (n.ends !b).writtenSum f := by
  obtain ⟨refused, hsent, -⟩ := (h.carries b).history
  have hnonneg : 0 ≤ sumOf f refused := sumOf_nonneg hf
  have hwritten : (n.ends !b).writtenSum f = sumOf f (System.party.sent (n.ends !b)) := rfl
  have hread : (n.ends b).readSum f = sumOf f (System.party.taken (n.ends b)) := rfl
  rw [hwritten, ← hsent, hread, sumOf_append, sumOf_append]
  omega

theorem increments_split (h : Duplex.Sound System.party n) (b : Bool) (w : Option Nat) :
    (n.ends b).readSum (Frame.increment w) + sumOf (Frame.increment w)
    (n.wire b) ≤ (n.ends !b).writtenSum (Frame.increment w) :=
  sums_split h fun _ => Frame.increment_nonneg

theorem loads_split (h : Duplex.Sound System.party n) (b : Bool) (w : Option Nat) :
    (n.ends !b).readSum (Frame.load w) + sumOf (Frame.load w) (n.wire !b) ≤ (n.ends b).writtenSum (Frame.load w) := by
  have hsplit := @sums_split n (!b) h (Frame.load w) fun _ => Frame.load_nonneg
  rwa [Bool.not_not] at hsplit

/-- The windows of an end as long as the other sends no INITIAL_WINDOW_SIZE. -/
structure Balances (s : System) : Prop where
  flow : FlowInvariant ConnBalanced s
  sizes : SizeInvariant s
  books : s.KeepsBooks
  initial : s.conn.setting .initialWindowSize = Setting.initialWindowSize.default

/-- The books of the two ends of a link. -/
structure Settled (n : Network) : Prop where
  sound : Duplex.Sound System.party n
  balances (b : Bool) : Balances (n.ends b)

/-- Nothing comes back to the window of the connection that was not taken from it. -/
theorem Settled.conn (h : Settled n) (b : Bool) (I : Finset Nat) :
    (n.ends b).conn.window.size + sumOf (Frame.load none) (n.wire !b) + ∑ i ∈ I, (n.ends !b).owed i +
      sumOf (Frame.increment none) (n.wire b) ≤ Setting.initialWindowSize.default := by
  have hsize := (h.balances b).flow.conn.1
  have hcredited := (h.balances b).books.credited none
  have hupdates := increments_split h.sound b none
  have hreturned := (h.balances !b).books.conn I
  have hdata := loads_split h.sound b none
  have hpaid : total Event.dataBytes (n.ends b).conn.log ≤ total (Event.debit none) (n.ends b).conn.log :=
    total_le_of_logOf fun i => ((h.balances b).flow.logOf i).1
  rw [total_dataBytes] at hpaid
  omega

/-- The same for the window of a stream, and what its writer has in hand. -/
theorem Settled.stream (h : Settled n) (b : Bool) {i : Nat} {self : Stream} (hself : (n.ends b).streams i = some self) :
    self.window.size + ownPiece self.writeLock.owner + sumOf (Frame.load (some i)) (n.wire !b) + (n.ends !b).owed i +
      sumOf (Frame.increment (some i)) (n.wire b) ≤ Setting.initialWindowSize.default := by
  have hi : i ≠ 0 := by
    rintro rfl
    cases (h.balances b).books.wellFormed.zero.symm.trans hself
  obtain ⟨hsize, -, -, hpaid, -⟩ := ((h.balances b).flow.streams hself).1
  have hcredited := (h.balances b).books.credited (some i)
  have hupdates := increments_split h.sound b (some i)
  have hreturned := (h.balances !b).books.stream hi
  have hdata := loads_split h.sound b (some i)
  have hopened : total Event.initialSize (logOf i (n.ends b).conn.log) = (n.ends b).conn.setting .initialWindowSize :=
    (h.balances b).sizes.opened hself
  have hid := (h.balances b).books.wellFormed.streamId hself
  rw [hid, total_credit_logOf, total_debit_logOf, hopened, (h.balances b).initial] at hsize
  rw [hid, total_debit_logOf, total_dataBytes_logOf] at hpaid
  omega

theorem Balances.start (isClient : Bool) (params : Params) : Balances (System.start isClient params) where
  flow := .start ⟨rfl, Int.natCast_nonneg 65535⟩
  sizes := ⟨.start trivial, by simp [System.All, System.start]⟩
  books := .run isClient params []
  initial := rfl

theorem Balances.step {s : System} (h : Balances s) {a : System.Action} (haccepts : AcceptsUpdates s a)
    (hsettings : ∀ frame later, a = .receive frame later → s.Applies frame →
      announced .initialWindowSize Setting.initialWindowSize.default frame.data = Setting.initialWindowSize.default) :
    Balances (s.step a) where
  flow := by
    refine h.flow.step haccepts.1 ?_
    rintro frame later c rfl hreads hid ⟨_, _, _, rfl, -⟩ hc
    exact connHandleFrame_balanced hc fun htype => haccepts.2 hreads htype hid
  sizes := by
    refine h.sizes.step ⟨haccepts.1, ?_⟩
    cases a with
    | receive frame later =>
      intro hreads htype hid hack
      rw [announcedWindowSize_eq, h.initial]
      exact .inr (hsettings frame later rfl ⟨hreads, hid, htype, hack⟩)
    | _ => trivial
  books := h.books.step a
  initial := by
    rw [System.step_setting h.books.wellFormed]
    cases a with
    | receive frame later =>
      rw [System.settingAfter, h.initial]
      split
      · exact hsettings frame later rfl ‹_›
      · rfl
    | _ => exact h.initial

/-- A WINDOW_UPDATE that is next on the way does not take its window past the size
that it had at first. -/
theorem Settled.accepts (h : Settled n) {frame : Frame}
    {rest : List Frame} (hwire : n.wire b = frame :: rest) (later : Bool) :
    AcceptsUpdates (n.ends b) (.receive frame later) := by
  have hgrant {w : Option Nat} {window : Window} (htype : frame.type = .windowUpdate) (hid : frame.streamId = w.getD 0)
      (hsize : window.size + sumOf (Frame.increment w) (n.wire b) ≤ Setting.initialWindowSize.default) :
      window.accepts frame := by
    intro word hword
    have hunpacked : word = unpackBytes frame.data := by
      rw [unpackWord] at hword
      split at hword
      · exact (Option.some.inj hword).symm
      · cases hword
    have hrest : 0 ≤ sumOf (Frame.increment w) rest := sumOf_nonneg fun _ => Frame.increment_nonneg
    have hincrement : frame.increment w = unpackBytes frame.data := if_pos ⟨htype, hid⟩
    have hmask : word &&& 0x7fffffff ≤ word := Nat.and_le_left
    have hsplit : sumOf (Frame.increment w) (n.wire b) = frame.increment w + sumOf (Frame.increment w) rest := by
      rw [hwire, sumOf, List.map_cons, List.sum_cons, sumOf]
    rw [hsplit, hincrement, ← hunpacked] at hsize
    have hdefault : (Setting.initialWindowSize.default : Int) ≤ maxWindowSize := by decide
    omega
  have hload (w : Option Nat) : 0 ≤ sumOf (Frame.load w) (n.wire !b) := sumOf_nonneg fun _ => Frame.load_nonneg
  refine ⟨fun _ htype self hself => ?_, fun _ htype hid => ?_⟩
  · have hwindow := h.stream b hself
    have howed := System.owed_nonneg (s := n.ends !b) frame.streamId
    have hpiece := (pieces_nonneg ((h.balances b).flow.streams hself).2).1
    have hnonneg := hload (some frame.streamId)
    exact hgrant (w := some frame.streamId) htype rfl (by omega)
  · have hwindow := h.conn b ∅
    have hnonneg := hload none
    rw [Finset.sum_empty] at hwindow
    exact hgrant (w := none) htype hid (by omega)

theorem settled (params : Bool → Params) (actions : List Action) : Settled ((start params).run actions) := by
  refine ⟨sound params actions, fun b => ?_⟩
  refine run_invariant params actions b (Q := fun _ => Balances) (fun b => .start b (params b)) ?_ ?_
  · intro earlier c a ih ha
    have hown := System.Action.isOwn_iff.mp ha
    refine (ih c).step ?_ fun frame later h => absurd h (hown frame later)
    cases a with
    | receive frame later => exact absurd rfl (hown frame later)
    | _ => exact ⟨trivial, trivial⟩
  · intro earlier c frame rest later ih hwire _
    have hsettled : Settled ((start params).run earlier) := ⟨sound params earlier, ih⟩
    refine (ih c).step (hsettled.accepts hwire later) ?_
    rintro frame' later' ⟨⟩ happlies
    rcases settings_on_wire params earlier c (hwire ▸ List.mem_cons_self) happlies.2.2.1 with rfl | rfl
    · exact announced_settingsFrame (by decide) _ _
    · exact absurd happlies.2.2.2 (by decide)

/-- Credit is conserved between two ends of this program. The size of a window at
one end, the DATA on its way from there, what the other end still owes for DATA
that it has read, and the increments on their way back are at most the size that
every window has at first. -/
theorem credit_conserved (params : Bool → Params) (actions : List Action) (b : Bool) :
    let n := (start params).run actions
    (∀ I : Finset Nat, 0 ≤ (n.ends b).conn.window.size ∧
      (n.ends b).conn.window.size + sumOf (Frame.load none) (n.wire !b) + ∑ i ∈ I, (n.ends !b).owed i +
        sumOf (Frame.increment none) (n.wire b) ≤ 65535) ∧
    ∀ i self, (n.ends b).streams i = some self → 0 ≤ self.window.size ∧
      self.window.size + sumOf (Frame.load (some i)) (n.wire !b) + (n.ends !b).owed i +
        sumOf (Frame.increment (some i)) (n.wire b) ≤ 65535 := by
  intro n
  have hsettled : Settled n := settled params actions
  refine ⟨fun I => ⟨(hsettled.balances b).flow.conn.2, hsettled.conn b I⟩, fun i self hself => ?_⟩
  obtain ⟨haccounts, hfits⟩ := (hsettled.balances b).flow.streams hself
  have hwindow : _ ≤ (65535 : Int) := hsettled.stream b hself
  have hpiece := (pieces_nonneg hfits).1
  exact ⟨haccounts.nonneg, by omega⟩

end Network

end TornadoHttp2
