import TornadoHttp2.CreditBooks

/-! Credit for what a delegate gets. As long as the socket is open, what has been
handed to a delegate has been given back, or a future still owes it. -/

namespace TornadoHttp2

open Prog Ctx

/-- What a delegate gets of a body. -/
def Event.handed (window : Option Nat) : Event → Int
  | called streamId (.dataReceived chunk) => if window.getD streamId = streamId then chunk.length else 0
  | _ => 0

/-- What the futures of the stream owe to a window. -/
def Ctx.owing (w : Option Nat) (c : Ctx) : Int :=
  if w.getD c.self.streamId = c.self.streamId then (c.self.pendingCredits.sum : Nat) else 0

/-- What was handed over and will not be given back. -/
def Ctx.unreturned (w : Option Nat) (c : Ctx) : Int :=
  total (Event.handed w) c.conn.log - total (Event.grants w) c.conn.log - c.owing w

/-- Nothing is handed over, given back or owed. -/
structure Uncharged (c c' : Ctx) : Prop where
  self : c'.self.streamId = c.self.streamId
  pending : c'.self.pendingCredits = c.self.pendingCredits
  log : Grows (fun e => ∀ w, e.handed w = 0 ∧ e.grants w = 0) c.conn.log c'.conn.log

instance : Std.Refl Uncharged := ⟨fun _ => ⟨rfl, rfl, .refl⟩⟩

instance : IsTrans Ctx Uncharged :=
  ⟨fun _ _ _ h h' => ⟨h'.self.trans h.self, h'.pending.trans h.pending, h.log.trans h'.log⟩⟩

/-- What is handed over is given back or owed. -/
structure Evens (c c' : Ctx) : Prop where
  unreturned {w : Option Nat} (hw : w ≠ some 0) : c'.unreturned w = c.unreturned w

instance : Std.Refl Evens := ⟨fun _ => ⟨fun _ => rfl⟩⟩

instance : IsTrans Ctx Evens := ⟨fun _ _ _ h h' => ⟨fun hw => (h'.unreturned hw).trans (h.unreturned hw)⟩⟩

section

variable {c c' : Ctx} {i : Nat} {w : Option Nat} {e : Event}

theorem Event.ofSending.handed (h : e.ofSending i) : e.handed w = 0 := by
  cases e with
  | called => exact h.elim
  | _ => rfl

theorem Uncharged.evens (h : Uncharged c c') : Evens c c' := by
  refine ⟨fun {w} _ => ?_⟩
  obtain ⟨es, hlog, hes⟩ := h.log
  rw [Ctx.unreturned, Ctx.unreturned, Ctx.owing, Ctx.owing, h.self, h.pending, hlog, total_append, total_append,
    total_eq_zero fun e he => (hes e he w).1, total_eq_zero fun e he => (hes e he w).2, add_zero, add_zero]

theorem Uncharged.logged (he : ∀ w, e.handed w = 0 ∧ e.grants w = 0) : Uncharged c (c.logged e) := ⟨rfl, rfl, .snoc he⟩

theorem SendsOnly.uncharged (h : SendsOnly i c c') : Uncharged c c' where
  self := congrArg Prod.fst h.self
  pending := congrArg (fun t => t.2.2.2.2.2.2.2) h.self
  log := h.log.mono fun _ he _ => ⟨he.handed, he.grants⟩

theorem Ctx.unreturned_withPending (pending : List Nat) :
    unreturned w ⟨c.conn, { c.self with pendingCredits := pending }⟩ =
    c.unreturned w + if w.getD c.self.streamId = c.self.streamId then
      ((c.self.pendingCredits.sum : Nat) : Int) - (pending.sum : Nat)
      else 0 := by
  simp only [unreturned, owing]
  split <;> omega

/-- The two frames of `_send_window_update` give a window back what was handed over. -/
theorem grants_pair {amount : Nat} (hamount : amount < 2 ^ 32) (hi : i ≠ 0) (hw : w ≠ some 0) :
    (Event.wrote ⟨.windowUpdate, 0, 0, packBytes 4 amount⟩).grants w +
      (Event.wrote ⟨.windowUpdate, 0, i, packBytes 4 amount⟩).grants w = if w.getD i = i then
        (amount : Int) else 0 := by
  have hpacked : ((unpackBytes (packBytes 4 amount) : Nat) : Int) = amount := by rw [unpackBytes_packBytes hamount]
  rw [Event.grants, Event.grants, Frame.increment, Frame.increment, hpacked]
  cases w with
  | none => simp [hi]
  | some j =>
    have hj : (0 : Nat) ≠ j := fun h => hw (by rw [h])
    simp [hj, eq_comm]

end

namespace Stream

variable {i : Nat} {frame : Frame} {later : Bool}

abbrev Online (i : Nat) (c : Ctx) : Prop := c.self.streamId = i ∧ c.conn.closed = false

theorem callDelegate_uncharged {call : DelegateCall} (h : ∀ i w, (Event.called i call).handed w = 0) :
    Keeps (fun _ => True) Uncharged (callDelegate call) :=
  .get_bind fun _ _ => .bind .check fun _ => fun _ _ => ⟨trivial, .logged fun w => ⟨h _ w, rfl⟩⟩

theorem keepsReceiving_uncharged : KeepsReceiving (fun _ => True) Uncharged where
  set f h := fun c _ => ⟨trivial, congrArg (fun t => t.1.1) (h c.self), congrArg (fun t => t.2.2) (h c.self), .refl⟩
  frames _ := fun _ _ => ⟨trivial, rfl, rfl, .refl⟩
  decode _ := .bind (fun _ _ => ⟨trivial, .logged fun _ => ⟨rfl, rfl⟩⟩) fun _ => .get_bind fun c _ => by
    rcases c.conn.hpackDecoder.decode c.conn.huffmanTree _ with ⟨_ | _, _, _⟩
    · exact .bind (fun _ _ => ⟨trivial, rfl, rfl, .refl⟩) fun _ => .raise _
    · exact .bind (fun _ _ => ⟨trivial, rfl, rfl, .refl⟩) fun _ => .pure _
  headers _ _ := callDelegate_uncharged fun _ _ => rfl
  finish := callDelegate_uncharged fun _ _ => rfl
  close := callDelegate_uncharged fun _ _ => rfl

theorem evens_of_acts {α : Type} {m : OnStream α} (hm : ∀ c : Ctx, c.self.streamId = i → Evens c (m.run c).2)
    (hid : Keeps (fun c : Ctx => c.self.streamId = i) (Acts i) m) : Keeps (Online i) Evens m := by
  rintro c ⟨hself, hopen⟩
  obtain ⟨hself', hacts⟩ := hid c hself
  have hclosed : (m.run c).2.conn.closed = c.conn.closed := congrArg (fun t => t.2.2.2.2) hacts.conn
  exact ⟨⟨hself', hclosed.trans hopen⟩, hm c hself⟩

theorem evens_of_receives {α : Type} {m : OnStream α} (hm : Keeps (fun _ => True) Uncharged m) (hr : Receives i m) :
    Keeps (Online i) Evens m :=
  evens_of_acts (fun c _ => (hm c trivial).2.evens) (hr.mono fun _ _ => ReceivesOnly.acts)

theorem evens_of_sends {m : OnStream Unit} (hs : Sends i m) : Keeps (Online i) Evens m :=
  evens_of_acts (fun c hself => (hs c hself).2.uncharged.evens) (hs.mono fun _ _ => SendsOnly.acts)

theorem keepsReceiving_evens : KeepsReceiving (Online i) Evens where
  set f h := evens_of_receives (keepsReceiving_uncharged.set f h) (keepsReceiving_receives.set f h)
  frames f := evens_of_receives (keepsReceiving_uncharged.frames f) (keepsReceiving_receives.frames f)
  decode data := evens_of_receives (keepsReceiving_uncharged.decode data) (keepsReceiving_receives.decode data)
  headers startLine headers :=
    evens_of_receives (keepsReceiving_uncharged.headers startLine headers)
      (keepsReceiving_receives.headers startLine headers)
  finish := evens_of_receives keepsReceiving_uncharged.finish keepsReceiving_receives.finish
  close := evens_of_receives keepsReceiving_uncharged.close keepsReceiving_receives.close

theorem sendWindowUpdate_run {amount : Nat} (hamount : amount < 2 ^ 32) {c : Ctx} (hopen : c.conn.closed = false)
    (hid : c.self.streamId < 2 ^ 31) : (sendWindowUpdate amount).run c =
      (.ok (), (c.logged (.wrote ⟨.windowUpdate, 0, 0, packBytes 4 amount⟩)).logged
        (.wrote ⟨.windowUpdate, 0, c.self.streamId, packBytes 4 amount⟩)) := by
  have hpacked : (packBytes 4 amount).length < 2 ^ 31 := by
    rw [show (packBytes 4 amount).length = 4 from rfl]
    decide
  rw [sendWindowUpdate, run_get_bind, run_check_of_neg (not_le.mpr hamount),
    bind_ok (writeFrame_run hpacked (Nat.two_pow_pos 31) hopen)]
  exact writeFrame_run hpacked hid hopen

theorem sendWindowUpdate_unreturned {amount : Nat} (hamount : amount < 2 ^ 32) {c : Ctx} (hopen : c.conn.closed = false)
    (hi : c.self.streamId ≠ 0) (hid : c.self.streamId < 2 ^ 31) {w : Option Nat} (hw : w ≠ some 0) :
    ((sendWindowUpdate amount).run c).2.unreturned w =
      c.unreturned w - if w.getD c.self.streamId = c.self.streamId then (amount : Int) else 0 := by
  rw [sendWindowUpdate_run hamount hopen hid, ← grants_pair hamount hi hw]
  simp only [Ctx.unreturned, Ctx.owing, Ctx.logged, total_append, total_singleton, Event.handed]
  omega

section

variable (hi : i ≠ 0) (hid : i < 2 ^ 31)

include hi hid

theorem deliverData_evens {data : Bytes} (hlength : data.length < 2 ^ 32) :
    Keeps (Online i) Evens (deliverData later data) := by
  rintro c ⟨rfl, hopen⟩
  have hacts := (@deliverData_receives _ later data c rfl).2.acts
  have hclosed : ((deliverData later data).run c).2.conn.closed = c.conn.closed :=
    congrArg (fun t => t.2.2.2.2) hacts.conn
  refine ⟨⟨hacts.self, hclosed.trans hopen⟩, ⟨fun {w} hw => ?_⟩⟩
  refine (wp_state (P := fun c' : Ctx => c'.unreturned w = c.unreturned w)).mp ?_
  have hcalled : (c.logged (.called c.self.streamId (.dataReceived data))).unreturned w =
      c.unreturned w + if w.getD c.self.streamId = c.self.streamId then (data.length : Int) else 0 := by
    simp only [Ctx.unreturned, Ctx.owing, Ctx.logged, total_append, total_singleton, Event.handed, Event.grants]
    omega
  rw [deliverData, wp_bind, callDelegate, wp_bind, wp_get, wp_bind, wp_check]
  refine ⟨fun _ => rfl, fun _ => ?_⟩
  rw [wp_emit]
  cases later with
  | true =>
    rw [if_pos rfl, setSelf, wp_modify]
    change Ctx.unreturned w ⟨_, { (c.logged _).self with pendingCredits := c.self.pendingCredits ++ [data.length] }⟩ = _
    rw [Ctx.unreturned_withPending (c := c.logged _), hcalled, List.sum_append, List.sum_singleton, Nat.cast_add]
    change _ + _ + (if w.getD c.self.streamId = c.self.streamId then (c.self.pendingCredits.sum : Int) - _ else 0) = _
    split <;> omega
  | false =>
    refine wp_state.mpr ?_
    refine (@sendWindowUpdate_unreturned _ hlength (c.logged _) hopen hi hid w hw).trans ?_
    rw [hcalled]
    exact add_sub_cancel_right _ _

theorem handleFrame_evens (hlength : frame.data.length < 2 ^ 32) :
    Keeps (Online i) Evens (handleFrame frame later) := by
  refine keepsReceiving_evens.handleFrame (evens_of_sends writeHeaders_sends)
    (evens_of_sends finish_sends) (fun _ => ?_) fun _ => ?_
  · refine evens_of_acts (fun c _ => ?_) (handleWindowUpdateFrame_acts frame)
    have hkeeps : Keeps (fun _ : Ctx => True) Uncharged (handleWindowUpdateFrame frame) :=
      .get_bind fun _ _ => .bind (fun _ _ => ⟨trivial, rfl, rfl, .refl⟩) fun _ =>
        fun _ _ => ⟨trivial, .logged fun _ => ⟨rfl, rfl⟩⟩
    exact (hkeeps c trivial).2.evens
  · refine handleDataFrame_keeps keepsReceiving_evens.set (fun f hpadding _ => ?_) keepsReceiving_evens.finish
    exact deliverData_evens hi hid (Nat.lt_of_le_of_lt (withoutPadding_length hpadding) hlength)

omit hi hid in
theorem resolveData_evens {k : Nat} {c : Ctx} (hi : c.self.streamId ≠ 0) (hid : c.self.streamId < 2 ^ 31)
    (hpending : ∀ n ∈ c.self.pendingCredits, n < 2 ^ 32) (hopen : c.conn.closed = false) :
    Evens c ((resolveData k).run c).2 := by
  refine ⟨fun {w} hw => ?_⟩
  rw [resolveData, run_get_bind]
  cases hk : c.self.pendingCredits[k]? with
  | none => rfl
  | some amount =>
    obtain ⟨hlt, hget⟩ := List.getElem?_eq_some_iff.mp hk
    have hsum : (c.self.pendingCredits.eraseIdx k).sum + amount = c.self.pendingCredits.sum := by
      rw [← (List.getElem_cons_eraseIdx_perm hlt).sum_eq, List.sum_cons, hget, add_comm]
    have herased : Ctx.unreturned w ⟨c.conn, { c.self with pendingCredits := c.self.pendingCredits.eraseIdx k }⟩ =
        c.unreturned w + if w.getD c.self.streamId = c.self.streamId then (amount : Int) else 0 := by
      rw [Ctx.unreturned_withPending, ← hsum, Nat.cast_add, add_sub_cancel_left]
    dsimp only
    rw [setSelf, run_modify_bind]
    rw [@sendWindowUpdate_unreturned amount (hpending amount (List.mem_of_getElem? hk))
      ⟨c.conn, { c.self with pendingCredits := c.self.pendingCredits.eraseIdx k }⟩ hopen hi hid w hw, herased]
    exact add_sub_cancel_right _ _

omit hi hid in
theorem method_evens {a : System.Action} {m : OnStream Unit}
    (ha : a.method = some (i, m)) {c : Ctx} (hi : c.self.streamId ≠ 0)
    (hid : c.self.streamId < 2 ^ 31) (hpending : ∀ n ∈ c.self.pendingCredits, n < 2 ^ 32)
    (hopen : c.conn.closed = false) :
    Evens c (m.run c).2 := by
  rcases method_sends ha with hsends | ⟨k, rfl⟩
  · exact (hsends c.self.streamId c rfl).2.uncharged.evens
  · exact resolveData_evens hi hid hpending hopen

end

end Stream

namespace System

variable {s s' : System} {w : Option Nat} {a : Action} {frame : Frame} {later : Bool}

/-- What the futures of a stream still give back to a window. -/
def owedOn (s : System) (w : Option Nat) (i : Nat) : Int := if w.getD i = i then s.owed i else 0

/-- What has been handed over has been given back or is owed. -/
def Even (s : System) (w : Option Nat) : Prop := ∃ I : Finset Nat, (∀ i ∉ I, s.owed i = 0) ∧
  total (Event.handed w) s.conn.log = total (Event.grants w) s.conn.log + ∑ i ∈ I, s.owedOn w i

theorem Even.same (h : s.Even w) (hstreams : s'.streams = s.streams)
    (hhanded : total (Event.handed w) s'.conn.log = total (Event.handed w) s.conn.log)
    (hgrants : total (Event.grants w) s'.conn.log = total (Event.grants w) s.conn.log) : s'.Even w := by
  obtain ⟨I, hout, hsum⟩ := h
  have howed : s'.owed = s.owed := funext fun i => by rw [owed, owed, hstreams]
  refine ⟨I, howed ▸ hout, ?_⟩
  rw [hhanded, hgrants, hsum]
  simp only [owedOn, howed]

theorem Even.update (h : s.Even w) {j : Nat} {self : Stream}
    (hstreams : s'.streams = Function.update s.streams j (some self))
    (hbalance : total (Event.handed w) s'.conn.log - total (Event.grants w) s'.conn.log -
        (if w.getD j = j then (self.pendingCredits.sum : Nat) else 0 : Int) =
      total (Event.handed w) s.conn.log - total (Event.grants w) s.conn.log - s.owedOn w j) : s'.Even w := by
  obtain ⟨I, hout, hsum⟩ := h
  have howed {i : Nat} (hi : i ≠ j) : s'.owed i = s.owed i := by rw [owed, owed, hstreams, Function.update_of_ne hi]
  have hself : s'.owedOn w j = (if w.getD j = j then (self.pendingCredits.sum : Nat) else 0 : Int) := by
    rw [owedOn, owed, hstreams, Function.update_self, Option.elim_some]
  refine ⟨insert j I, fun i hi => ?_, ?_⟩
  · obtain ⟨hne, hmem⟩ := not_or.mp (Finset.mem_insert.not.mp hi)
    rw [howed hne]
    exact hout i hmem
  · have hbefore : ∑ i ∈ insert j I, s.owedOn w i = ∑ i ∈ I, s.owedOn w i :=
      Finset.sum_insert_of_eq_zero_if_notMem fun hj => by rw [owedOn, hout j hj, ite_self]
    have hrest : ∑ i ∈ (insert j I).erase j, s'.owedOn w i = ∑ i ∈ (insert j I).erase j, s.owedOn w i :=
      Finset.sum_congr rfl fun i hi => by rw [owedOn, owedOn, howed (Finset.ne_of_mem_erase hi)]
    rw [← Finset.add_sum_erase _ _ (Finset.mem_insert_self j I)] at hbefore ⊢
    rw [hrest, hself]
    omega

/-- A method of a stream that evens out what it hands over. -/
theorem Even.setStream (h : s.Even w) (hw : w ≠ some 0) {i : Nat} {self : Stream} (hself : s.streams i = some self)
    (hid : self.streamId = i) {c : Ctx} (hc : c.self.streamId = i) (heven : Evens ⟨s.conn, self⟩ c) :
    (s.setStream i c).Even w := by
  have hbalance := heven.unreturned hw
  rw [Ctx.unreturned, Ctx.unreturned, Ctx.owing, Ctx.owing, hc, hid] at hbalance
  refine h.update rfl (hbalance.trans ?_)
  rw [owedOn, owed, hself, Option.elim_some]

theorem Even.withStream (h : s.Even w) {self : Stream} (hnone : s.streams self.streamId = none)
    (hpending : self.pendingCredits = []) : (s.withStream self).Even w := by
  refine h.update (j := self.streamId) rfl ?_
  rw [owedOn, owed_of_none hnone, hpending, System.withStream,
    System.logged, total_append, total_append, total_singleton, total_singleton, ite_self]
  change _ + 0 - (_ + 0) - (if _ then ((0 : Nat) : Int) else 0) = _
  rw [Nat.cast_zero, ite_self, add_zero, add_zero]

theorem Even.logged (h : s.Even w) {e : Event} (he : e.handed w = 0 ∧ e.grants w = 0) : (s.logged e).Even w := by
  refine h.same rfl ?_ ?_ <;> rw [System.logged, total_append, total_singleton]
  · rw [he.1, add_zero]
  · rw [he.2, add_zero]

/-- The frames of stream 0 neither hand anything over nor give credit back. -/
theorem connHandleFrame_even (frame : Frame) (c : Conn) (w : Option Nat) :
    total (Event.handed w) ((Conn.handleFrame frame).run c).2.log = total (Event.handed w) c.log ∧
      total (Event.grants w) ((Conn.handleFrame frame).run c).2.log = total (Event.grants w) c.log := by
  have hlogged {log : List Event} {e : Event} (he : e.handed w = 0 ∧ e.grants w = 0)
      (h : total (Event.handed w) log = total (Event.handed w) c.log ∧
        total (Event.grants w) log = total (Event.grants w) c.log) :
      total (Event.handed w) (log ++ [e]) = total (Event.handed w) c.log ∧
        total (Event.grants w) (log ++ [e]) = total (Event.grants w) c.log := by
    rw [total_append, total_append, total_singleton, total_singleton, he.1, he.2, add_zero, add_zero]
    exact h
  have hkeeps : Keeps (fun c' : Conn => total (Event.handed w) c'.log = total (Event.handed w) c.log ∧
      total (Event.grants w) c'.log = total (Event.grants w) c.log) Anything (Conn.handleFrame frame) := by
    refine Conn.handleFrame_keeps (fun _ f _ htype _ h =>
      ⟨hlogged ⟨rfl, Frame.increment_of_ne fun hupdate => ?_⟩ h, trivial⟩)
      (fun _ _ _ h _ => ⟨h, trivial⟩) (fun _ h => ⟨h, trivial⟩)
      fun _ => .bind (fun _ h => ⟨h, trivial⟩) fun _ => fun _ h => ⟨hlogged ⟨rfl, rfl⟩ h, trivial⟩
    rcases htype with htype | htype <;> cases hupdate.symm.trans htype
  exact (hkeeps c ⟨rfl, rfl⟩).1

theorem Even.handled (h : s.Even w) (hw : w ≠ some 0) {self : Stream} (hself : s.streams frame.streamId = some self)
    (hid : self.streamId = frame.streamId) (hne : frame.streamId ≠ 0) (hlt : frame.streamId < 2 ^ 31)
    (hlength : frame.data.length < 2 ^ 32) (hopen : s.conn.closed = false) : (s.handled frame later self).Even w := by
  have hacts := (Stream.handleFrame_acts frame later ⟨s.conn, self⟩ hid).1
  have heven : Evens ⟨s.conn, self⟩ (s.atStream frame later self).2 :=
    (Stream.handleFrame_evens hne hlt hlength ⟨s.conn, self⟩ ⟨hid, hopen⟩).2
  have hstream : (s.setStream frame.streamId (s.atStream frame later self).2).Even w :=
    h.setStream hw hself hid hacts heven
  exact hstream.same rfl rfl rfl

theorem Even.answered (h : s.Even w) {r : Except PyException Unit} (ha : Answered s r s') : s'.Even w := by
  cases ha with
  | nothing => exact h
  | reset => exact h.logged ⟨rfl, Frame.increment_of_ne nofun⟩
  | @goaway code message =>
    have hlogged := h.logged (e := .wrote (goawayFrame code 0 message)) ⟨rfl, Frame.increment_of_ne nofun⟩
    exact hlogged.same rfl rfl rfl
  | ended => exact h.same rfl rfl rfl

/-- While the socket is open, no step hands over what is never given back. -/
theorem Even.step (h : s.Even w) (hw : w ≠ some 0) (hs : s.Payable) (hopen : s.conn.closed = false)
    (hids : ∀ i self, s.streams i = some self → i < 2 ^ 31)
    (hframe : ∀ frame later, a = .receive frame later → frame.streamId < 2 ^ 31) : (s.step a).Even w := by
  have hstep := step_cases s a
  revert hstep
  generalize s.step a = s'
  intro hstep
  cases hstep with
  | @received frame later r s₁ _ hloop hh ha =>
    refine Even.answered ?_ ha
    have hreceived : (s.logged (.received frame)).Even w := h.logged ⟨rfl, rfl⟩
    cases hh with
    | oversized => exact h
    | interrupted => exact hreceived
    | passed hsize _ hd =>
      have hlength := hs.length hsize
      have hlt := hframe frame later rfl
      cases hd with
      | conn =>
        obtain ⟨hhanded, hgrants⟩ := connHandleFrame_even frame (s.logged (.received frame)).conn w
        exact hreceived.same rfl hhanded hgrants
      | stream hid hself => exact hreceived.handled hw hself (hs.wellFormed.streamId hself) hid hlt hlength hopen
      | accepted hid hself =>
        have hopened : ((s.logged (.received frame)).withStream (.new s.conn frame.streamId true)).Even w :=
          hreceived.withStream hself rfl
        have hstarted := hopened.logged (e := .startRequest frame.streamId) ⟨rfl, rfl⟩
        have haccepted : ((s.logged (.received frame)).accepted frame).Even w := hstarted.same rfl rfl rfl
        exact haccepted.handled hw accepted_self rfl hid hlt hlength hopen
      | _ => exact hreceived
  | created =>
    have hnone : s.streams s.conn.nextStreamId = none := by
      simpa using (hs.wellFormed.ownIds rfl).not.mpr (by omega)
    have hnext : Even { s with conn := { s.conn with nextStreamId := s.conn.nextStreamId + 2 } } w := h.same rfl rfl rfl
    exact hnext.withStream hnone rfl
  | upgraded _ hself => exact h.withStream hself rfl
  | closed => exact h.same rfl rfl rfl
  | @method _ i m self ha hself =>
    have hid := hs.wellFormed.streamId hself
    have hne : self.streamId ≠ 0 := by
      rintro hzero
      cases (hid ▸ hzero ▸ hs.wellFormed.zero : s.streams i = none).symm.trans hself
    have hacts := (Stream.method_acts ha ⟨s.conn, self⟩ hid).1
    refine h.setStream hw hself hid hacts ?_
    exact Stream.method_evens ha hne (hid ▸ hids i self hself) (hs.pending i self hself) hopen
  | idle => exact h

end System

end TornadoHttp2
