import TornadoHttp2.FlowAccounts
import TornadoHttp2.ProtocolErrors
import TornadoHttp2.WindowBounds
import Mathlib.Algebra.BigOperators.Group.Finset.Piecewise

/-! The credit that goes back to the peer for the DATA frames it has sent. It is
returned for what the delegate gets, now or when its future is resolved: what is
padding, what is refused and what nobody has asked for is lost. -/

namespace TornadoHttp2

open Prog Ctx

namespace Event

/-- The credit that a DATA frame takes, padding included. -/
def spent : Event → Int
  | received frame => if frame.type = .data then frame.data.length else 0
  | _ => 0

/-- The credit that is given back for the connection. -/
def returned : Event → Int
  | wrote frame => if frame.type = .windowUpdate ∧ frame.streamId = 0 then unpackBytes frame.data else 0
  | _ => 0

theorem spent_of_not_ofLoop {e : Event} (h : ¬ e.ofLoop) : e.spent = 0 := by
  cases e with
  | received => exact absurd trivial h
  | _ => rfl

theorem returned_of_ne {frame : Frame} (h : frame.type ≠ .windowUpdate) : (wrote frame).returned = 0 :=
  if_neg fun hupdate => h hupdate.1

end Event

theorem unpackBytes_packBytes {n : Nat} (h : n < 2 ^ 32) : unpackBytes (packBytes 4 n) = n := by
  simp only [packBytes, unpackBytes, List.foldl_cons, List.foldl_nil, UInt8.toNat_ofNat', Nat.shiftRight_eq_div_pow]
  omega

/-- What has been returned or will be once the futures of the stream are resolved. -/
def Ctx.settled (c : Ctx) : Int := total Event.returned c.conn.log + (c.self.pendingCredits.sum : Nat)

/-- Nothing is returned and nothing will be. -/
structure Unpaid (c c' : Ctx) : Prop where
  pending : c'.self.pendingCredits = c.self.pendingCredits
  returned : total Event.returned c'.conn.log = total Event.returned c.conn.log

instance : Std.Refl Unpaid := ⟨fun _ => ⟨rfl, rfl⟩⟩

instance : IsTrans Ctx Unpaid :=
  ⟨fun _ _ _ h h' => ⟨h'.pending.trans h.pending, h'.returned.trans h.returned⟩⟩

theorem Unpaid.settled {c c' : Ctx} (h : Unpaid c c') : c'.settled = c.settled := by
  rw [Ctx.settled, Ctx.settled, h.pending, h.returned]

theorem Unpaid.logged {c : Ctx} {e : Event} (he : e.returned = 0) : Unpaid c (c.logged e) :=
  ⟨rfl, by rw [Ctx.logged, total_append, total_singleton, he, add_zero]⟩

theorem SendsOnly.unpaid {i : Nat} {c c' : Ctx} (h : SendsOnly i c c') : Unpaid c c' := by
  obtain ⟨es, hlog, hes⟩ := h.log
  refine ⟨congrArg (fun t => t.2.2.2.2.2.2.2) h.self, ?_⟩
  rw [hlog, total_append]
  refine add_eq_left.mpr (total_eq_zero fun e he => ?_)
  cases e with
  | wrote frame =>
    refine Event.returned_of_ne fun hupdate => ?_
    rcases (hes _ he).2 with htype | htype | hframe
    · cases hupdate.symm.trans htype
    · cases hupdate.symm.trans htype
    · rw [hframe] at hupdate
      cases hupdate
  | _ => rfl

namespace Stream

variable {c : Ctx} {frame : Frame} {later : Bool}

theorem callDelegate_unpaid {call : DelegateCall} : Keeps (fun _ => True) Unpaid (callDelegate call) :=
  .get_bind fun _ _ => .bind .check fun _ => fun _ _ => ⟨trivial, .logged rfl⟩

theorem keepsReceiving_unpaid : KeepsReceiving (fun _ => True) Unpaid where
  set _ h := fun c _ => ⟨trivial, congrArg (fun t => t.2.2) (h c.self), rfl⟩
  frames _ := fun _ _ => ⟨trivial, rfl, rfl⟩
  decode _ := .bind (fun _ _ => ⟨trivial, .logged rfl⟩) fun _ => .get_bind fun c _ => by
    rcases c.conn.hpackDecoder.decode c.conn.huffmanTree _ with ⟨_ | _, _, _⟩
    · exact .bind (fun _ _ => ⟨trivial, rfl, rfl⟩) fun _ => .raise _
    · exact .bind (fun _ _ => ⟨trivial, rfl, rfl⟩) fun _ => .pure _
  headers _ _ := callDelegate_unpaid
  finish := callDelegate_unpaid
  close := callDelegate_unpaid

/-- Only DATA frames give credit back. -/
theorem handleFrame_unpaid (htype : frame.type ≠ .data) : Unpaid c ((handleFrame frame later).run c).2 := by
  have hkeeps : Keeps (fun _ => True) Unpaid (handleFrame frame later) := by
    refine keepsReceiving_unpaid.handleFrame (fun c _ => ⟨trivial, (writeHeaders_sends c rfl).2.unpaid⟩)
      (fun c _ => ⟨trivial, (finish_sends c rfl).2.unpaid⟩) (fun _ => ?_) fun hdata => absurd hdata htype
    exact .get_bind fun _ _ => .bind (fun _ _ => ⟨trivial, rfl, rfl⟩) fun _ => fun _ _ => ⟨trivial, .logged rfl⟩
  exact (hkeeps c trivial).2

/-- What a DATA frame gives back to the peer. -/
def repaid (s : Stream) (frame : Frame) : Nat :=
  match frame.withoutPadding with
  | .error _ => 0
  | .ok f =>
    if s.finished = false ∧ s.delegateStarted = true ∧
      ¬ s.incomingContentRemaining.any (fun n : Int => n < f.data.length) = true then f.data.length else 0

theorem sendWindowUpdate_settles {amount : Nat} (hamount : amount < 2 ^ 32) (hopen : c.conn.closed = false)
    (hid : c.self.streamId ≠ 0) : wp (sendWindowUpdate amount) (fun _ c' => c'.settled = c.settled + amount)
      (fun e c' => e.isLocal ∧ c'.settled = c.settled + amount) c := by
  have hpacked : (packBytes 4 amount).length < 2 ^ 31 := by
    rw [show (packBytes 4 amount).length = 4 from rfl]
    decide
  have hwrite : (writeFrame ⟨.windowUpdate, 0, 0, packBytes 4 amount⟩).run c =
      (.ok (), c.logged (.wrote ⟨.windowUpdate, 0, 0, packBytes 4 amount⟩)) :=
    writeFrame_run hpacked (Nat.two_pow_pos 31) hopen
  have hreturned : (Event.wrote ⟨.windowUpdate, 0, 0, packBytes 4 amount⟩).returned = amount := by
    rw [Event.returned, if_pos ⟨rfl, rfl⟩, unpackBytes_packBytes hamount]
  have hother : (Event.wrote ⟨.windowUpdate, 0, c.self.streamId, packBytes 4 amount⟩).returned = 0 :=
    if_neg fun h => hid h.2
  have hsettled : (c.logged (.wrote ⟨.windowUpdate, 0, 0, packBytes 4 amount⟩)).settled = c.settled + amount := by
    rw [Ctx.settled, Ctx.settled, Ctx.logged, total_append, total_singleton, hreturned]
    ring
  rw [sendWindowUpdate, wp_bind, wp_get, wp_check_of_neg (not_le.mpr hamount), wp_bind, wp_of_ok hwrite, writeFrame_wp]
  split
  · exact ⟨trivial, hsettled⟩
  · split
    · exact ⟨trivial, hsettled⟩
    · exact ((Unpaid.logged hother).settled).trans hsettled

theorem deliverData_settles {data : Bytes} (hlength : data.length < 2 ^ 32) (hopen : c.conn.closed = false)
    (hid : c.self.streamId ≠ 0) : wp (deliverData later data)
      (fun _ c' => c'.settled = c.settled + data.length) (fun e _ => e.isLocal) c := by
  rw [deliverData, wp_bind, callDelegate, wp_bind, wp_get, wp_bind, wp_check]
  refine ⟨fun _ => trivial, fun _ => ?_⟩
  rw [wp_emit]
  have hcalled : (c.logged (.called c.self.streamId (.dataReceived data))).settled = c.settled :=
    (Unpaid.logged rfl).settled
  cases later with
  | true =>
    rw [if_pos rfl, setSelf, wp_modify, ← hcalled]
    change total _ _ + ((c.self.pendingCredits ++ [data.length]).sum : Nat) =
      total _ _ + (c.self.pendingCredits.sum : Nat) + _
    rw [List.sum_append, List.sum_singleton, Nat.cast_add, add_assoc]
  | false =>
    refine wp_mono (sendWindowUpdate_settles hlength hopen hid) (fun _ c' h => ?_) fun _ _ h => h.1
    rw [← hcalled]
    exact h

/-- What a DATA frame comes to if the connection goes on after it. -/
theorem handleFrame_repays (htype : frame.type = .data) (hopen : c.conn.closed = false) (hid : c.self.streamId ≠ 0)
    (hlength : frame.data.length < 2 ^ 32) : wp (handleFrame frame later)
      (fun _ c' => c'.settled = c.settled + c.self.repaid frame)
      (fun e c' => (∃ i code, e = .streamError i code) → c'.settled = c.settled + c.self.repaid frame) c := by
  have hlost {e : PyException} {c' : Ctx} (hsame : c'.settled = c.settled) (hnone : c.self.repaid frame = 0) :
      (∃ i code, e = .streamError i code) → c'.settled = c.settled + c.self.repaid frame := fun _ => by
    rw [hsame, hnone, Nat.cast_zero, add_zero]
  have hother {e : PyException} {p : Prop} (h : ∀ i code, e ≠ .streamError i code) :
      (∃ i code, e = .streamError i code) → p := by
    rintro ⟨i, code, he⟩
    exact absurd he (h i code)
  rw [wp_congr (handleFrame_data htype)]
  by_cases hfinished : c.self.finished = true
  · rw [if_pos hfinished]
    refine hlost rfl ?_
    rw [repaid]
    split
    · rfl
    · exact if_neg fun h => Bool.false_ne_true (h.1.symm.trans hfinished)
  rw [if_neg hfinished]
  by_cases hframes : c.self.headerFrames = []
  · by_cases hphase : c.self.phase = .trailers
    · rw [handleDataFrame, wp_bind, wp_get, wp_check_of_neg (not_not.mpr hframes), wp_check_of_pos hphase]
      exact hother fun _ _ he => by cases he
    rw [wp_congr (handleDataFrame_run hframes hphase), wp_bind]
    cases hpadding : frame.withoutPadding with
    | error e => exact hlost rfl (by rw [repaid, hpadding])
    | ok f =>
      have hdata : f.data.length < 2 ^ 32 := Nat.lt_of_le_of_lt (withoutPadding_length hpadding) hlength
      have hrepaid : c.self.repaid frame = if c.self.delegateStarted = true ∧
          ¬ c.self.incomingContentRemaining.any (fun n : Int => n < f.data.length) = true then
            f.data.length else 0 := by
        rw [repaid, hpadding]
        exact if_congr (and_iff_right (Bool.eq_false_iff.mpr hfinished)) rfl rfl
      have hend {c' : Ctx} (h : c'.settled = c.settled + c.self.repaid frame) : wp (do let _ ← maybeEndStream f)
          (fun _ c' => c'.settled = c.settled + c.self.repaid frame)
          (fun e c' => (∃ i code, e = .streamError i code) → c'.settled = c.settled + c.self.repaid frame) c' := by
        have hends : ((maybeEndStream f).run c').2.settled = c'.settled :=
          (maybeEndStream_keeps keepsReceiving_unpaid.set callDelegate_unpaid c' trivial).2.settled
        rw [wp_bind]
        exact wp_mono ((wp_state (P := fun c'' => c''.settled = c'.settled)).mpr hends)
          (fun _ _ h' => wp_pure.mpr (h'.trans h))
          fun _ _ h' _ => h'.trans h
      have hrest {c' : Ctx} (hsettled : c'.settled = c.settled) (hopen' : c'.conn.closed = false)
          (hid' : c'.self.streamId ≠ 0)
            (hfits : ¬ c.self.incomingContentRemaining.any (fun n : Int => n < f.data.length) = true) :
          wp (do
            when (f.data ≠ [] ∧ c.self.delegateStarted = true) (deliverData later f.data)
            let _ ← maybeEndStream f)
            (fun _ c' => c'.settled = c.settled + c.self.repaid frame)
            (fun e c' => (∃ i code, e = .streamError i code) → c'.settled = c.settled + c.self.repaid frame) c' := by
        rw [wp_bind, wp_when]
        refine ⟨fun hdeliver => ?_, fun hnone => hend ?_⟩
        · refine wp_mono (deliverData_settles hdata hopen' hid') (fun _ c'' h => hend ?_) fun e _ hlocal => hother ?_
          · rw [h, hsettled, hrepaid, if_pos ⟨hdeliver.2, hfits⟩]
          · rintro i code rfl
            exact hlocal
        · rw [hsettled, hrepaid]
          split
          · rename_i hstarted
            have hempty : f.data = [] := by
              by_contra hne
              exact hnone ⟨hne, hstarted.1⟩
            rw [hempty, List.length_nil, Nat.cast_zero, add_zero]
          · rw [Nat.cast_zero, add_zero]
      rw [wp_ofExcept]
      dsimp only
      rw [wp_bind, countIncoming, wp_bind, wp_get]
      dsimp only
      cases hremaining : c.self.incomingContentRemaining with
      | none => exact hrest rfl hopen hid (by simp [hremaining])
      | some remaining =>
        dsimp only
        rw [setSelf, wp_bind, wp_modify, wp_check]
        refine ⟨fun hshort => hlost rfl ?_, fun hfits => hrest rfl hopen hid ?_⟩
        · rw [hrepaid]
          refine if_neg fun h => h.2 ?_
          rw [hremaining]
          exact decide_eq_true (by omega)
        · rw [hremaining, Option.any_some, decide_eq_true_eq]
          omega
  · rw [handleDataFrame, wp_bind, wp_get, wp_check_of_pos hframes]
    exact hother fun _ _ he => by cases he

theorem sendWindowUpdate_self {amount : Nat} : ((sendWindowUpdate amount).run c).2.self = c.self := by
  have hkeeps : Keeps (fun c' : Ctx => c'.self = c.self) Anything (sendWindowUpdate amount) :=
    .get_bind fun _ _ => .bind .check fun _ => .bind (fun _ hc => ⟨hc, trivial⟩) fun _ => fun _ hc => ⟨hc, trivial⟩
  exact (hkeeps c rfl).1

/-- What a future gives back fits a WINDOW_UPDATE. -/
theorem handleFrame_pending (hlength : frame.data.length < 2 ^ 32) (h : ∀ n ∈ c.self.pendingCredits, n < 2 ^ 32) :
    ∀ n ∈ ((handleFrame frame later).run c).2.self.pendingCredits, n < 2 ^ 32 := by
  have hunpaid {α : Type} {m : OnStream α} (hm : Keeps (fun _ => True) Unpaid m) :
      Keeps (fun c : Ctx => ∀ n ∈ c.self.pendingCredits, n < 2 ^ 32) Anything m :=
    fun c hc => ⟨fun n hn => hc n ((hm c trivial).2.pending ▸ hn), trivial⟩
  by_cases htype : frame.type = .data
  · rw [handleFrame_data htype]
    split
    · exact h
    · refine (handleDataFrame_keeps (R := Anything)
        (fun f hf => hunpaid (keepsReceiving_unpaid.set f hf)) (fun f hpadding _ => ?_)
        (hunpaid callDelegate_unpaid) c h).1
      refine .bind (hunpaid callDelegate_unpaid) fun _ =>
        .ite (fun _ c hc => ⟨fun n hn => ?_, trivial⟩) fun _ c hc => ⟨?_, trivial⟩
      · rcases List.mem_append.mp hn with hn | hn
        · exact hc n hn
        · rw [List.mem_singleton.mp hn]
          exact Nat.lt_of_le_of_lt (withoutPadding_length hpadding) hlength
      · rw [sendWindowUpdate_self]
        exact hc
  · rw [(handleFrame_unpaid htype).pending]
    exact h

/-- A resolved future gives back what it owed. -/
theorem resolveData_settles {k : Nat} (h : ∀ n ∈ c.self.pendingCredits, n < 2 ^ 32) (hopen : c.conn.closed = false)
    (hid : c.self.streamId ≠ 0) : ((resolveData k).run c).2.settled = c.settled := by
  refine (wp_state (P := fun c' : Ctx => c'.settled = c.settled)).mp ?_
  rw [resolveData, wp_bind, wp_get]
  cases hk : c.self.pendingCredits[k]? with
  | none => rfl
  | some amount =>
    dsimp only
    rw [setSelf, wp_bind, wp_modify]
    obtain ⟨hlt, hget⟩ := List.getElem?_eq_some_iff.mp hk
    have hsum : (c.self.pendingCredits.eraseIdx k).sum + amount = c.self.pendingCredits.sum := by
      rw [← (List.getElem_cons_eraseIdx_perm hlt).sum_eq, List.sum_cons, hget, add_comm]
    have hreturn := @sendWindowUpdate_settles
      ⟨c.conn, { c.self with pendingCredits := c.self.pendingCredits.eraseIdx k }⟩
      amount (h amount (List.mem_of_getElem? hk)) hopen hid
    have hsettled : Ctx.settled ⟨c.conn, { c.self with pendingCredits := c.self.pendingCredits.eraseIdx k }⟩ + amount =
        c.settled := by
      rw [Ctx.settled, Ctx.settled, ← hsum, Nat.cast_add]
      ring
    exact wp_mono hreturn (fun _ _ h' => h'.trans hsettled) fun _ _ h' => h'.2.trans hsettled

theorem method_pending {a : System.Action} {i : Nat} {m : OnStream Unit} (ha : a.method = some (i, m))
    (h : ∀ n ∈ c.self.pendingCredits, n < 2 ^ 32) : ∀ n ∈ (m.run c).2.self.pendingCredits, n < 2 ^ 32 := by
  rcases method_sends ha with hsends | ⟨k, rfl⟩
  · rw [(hsends _ c rfl).2.unpaid.pending]
    exact h
  · have hresolve : Keeps (fun c : Ctx => ∀ n ∈ c.self.pendingCredits, n < 2 ^ 32) Anything (resolveData k) := by
      refine .get_bind fun c _ => ?_
      cases c.self.pendingCredits[k]? with
      | none => exact .pure _
      | some amount =>
        refine .bind (fun c hc => ⟨fun n hn => hc n (List.mem_of_mem_eraseIdx hn), trivial⟩) fun _ c hc => ⟨?_, trivial⟩
        rw [sendWindowUpdate_self]
        exact hc
    exact (hresolve c h).1

/-- The delegate gets the whole payload. -/
structure Repays (s : Stream) (frame : Frame) : Prop where
  unfinished : s.finished = false
  started : s.delegateStarted = true
  unpadded : frame.has .padded = false
  fits : ¬ s.incomingContentRemaining.any (fun n : Int => n < frame.data.length) = true

theorem withoutPadding_shorter {f : Frame} (hpadded : frame.has .padded = true) (h : frame.withoutPadding = .ok f) :
    f.data.length < frame.data.length := by
  rw [Frame.withoutPadding, if_pos hpadded] at h
  split at h
  · cases h
  · rename_i b rest hdata
    dsimp only at h
    split at h
    · split at h <;> cases h
    · cases h
      have hstart : ¬ (1 : Int) < 0 := by decide
      rw [hdata]
      simp only [slice, if_neg hstart, Int.toNat_one, List.length_drop, List.length_take, List.length_cons]
      omega

theorem repaid_le (s : Stream) : s.repaid frame ≤ frame.data.length := by
  rw [repaid]
  split
  · exact Nat.zero_le _
  · rename_i f hpadding
    split
    · exact withoutPadding_length hpadding
    · exact Nat.zero_le _

theorem repaid_eq_iff (s : Stream) : s.repaid frame = frame.data.length ↔ (frame.data ≠ [] → s.Repays frame) := by
  by_cases hdata : frame.data = []
  · refine iff_of_true ?_ fun h => absurd hdata h
    have : s.repaid frame ≤ frame.data.length := repaid_le s
    rw [hdata, List.length_nil] at this ⊢
    omega
  have hpos : 0 < frame.data.length := List.length_pos_iff.mpr hdata
  rw [forall_prop_of_true hdata]
  by_cases hpadded : frame.has .padded = true
  · refine iff_of_false (fun h => ?_) fun h => Bool.false_ne_true (h.unpadded.symm.trans hpadded)
    rw [repaid] at h
    split at h
    · omega
    · rename_i f hpadding
      have := withoutPadding_shorter hpadded hpadding
      split at h <;> omega
  · have hpadding : frame.withoutPadding = .ok frame := by rw [Frame.withoutPadding, if_neg hpadded]
    rw [repaid, hpadding]
    dsimp only
    split
    · rename_i h
      exact iff_of_true rfl ⟨h.1, h.2.1, Bool.eq_false_iff.mpr hpadded, h.2.2⟩
    · rename_i h
      exact iff_of_false (by omega) fun hr => h ⟨hr.unfinished, hr.started, hr.fits⟩

end Stream

namespace System

variable {s s' : System} {lost : Int} {a : Action} {frame : Frame} {later : Bool}

/-- What the futures of a stream still give back. -/
def owed (s : System) (i : Nat) : Int := (s.streams i).elim 0 fun self => (self.pendingCredits.sum : Nat)

/-- The credit that DATA frames took has been returned or is owed, but for `lost`. -/
def Lacks (s : System) (lost : Int) : Prop := ∃ I : Finset Nat, (∀ i ∉ I, s.owed i = 0) ∧
  total Event.spent s.conn.log = total Event.returned s.conn.log + ∑ i ∈ I, s.owed i + lost

theorem owed_of_none {i : Nat} (h : s.streams i = none) : s.owed i = 0 := by rw [owed, h, Option.elim_none]

theorem Lacks.logged (h : s.Lacks lost) {e : Event} (he : e.returned = 0) : (s.logged e).Lacks (lost + e.spent) := by
  obtain ⟨I, hout, hsum⟩ := h
  have hspent : total Event.spent (s.logged e).conn.log = total Event.spent s.conn.log + e.spent := by
    rw [System.logged, total_append, total_singleton]
  have hreturned : total Event.returned (s.logged e).conn.log = total Event.returned s.conn.log := by
    rw [System.logged, total_append, total_singleton, he, add_zero]
  refine ⟨I, hout, ?_⟩
  rw [hspent, hreturned]
  change _ = _ + ∑ i ∈ I, s.owed i + _
  omega

theorem Lacks.same (h : s.Lacks lost) (hstreams : s'.streams = s.streams)
    (hspent : total Event.spent s'.conn.log = total Event.spent s.conn.log)
    (hreturned : total Event.returned s'.conn.log = total Event.returned s.conn.log) : s'.Lacks lost := by
  obtain ⟨I, hout, hsum⟩ := h
  have howed : s'.owed = s.owed := funext fun i => by rw [owed, owed, hstreams]
  refine ⟨I, howed ▸ hout, ?_⟩
  rw [howed, hspent, hreturned]
  exact hsum

/-- What a stream settles is not lost. -/
theorem Lacks.update (h : s.Lacks lost) {settled : Int} {j : Nat} {self : Stream}
    (hstreams : s'.streams = Function.update s.streams j (some self))
    (hspent : total Event.spent s'.conn.log = total Event.spent s.conn.log)
    (hsettled : total Event.returned s'.conn.log + (self.pendingCredits.sum : Nat) =
      total Event.returned s.conn.log + s.owed j + settled) : s'.Lacks (lost - settled) := by
  obtain ⟨I, hout, hsum⟩ := h
  have howed : s'.owed = Function.update s.owed j (self.pendingCredits.sum : Nat) := by
    funext i
    rw [owed, hstreams]
    by_cases hi : i = j
    · subst hi
      rw [Function.update_self, Function.update_self, Option.elim_some]
    · rw [Function.update_of_ne hi, Function.update_of_ne hi, owed]
  refine ⟨insert j I, fun i hi => ?_, ?_⟩
  · obtain ⟨hne, hmem⟩ := not_or.mp (Finset.mem_insert.not.mp hi)
    rw [howed, Function.update_of_ne hne]
    exact hout i hmem
  · have hbefore : ∑ i ∈ insert j I, s.owed i = ∑ i ∈ I, s.owed i := Finset.sum_insert_of_eq_zero_if_notMem (hout j)
    rw [← Finset.add_sum_erase _ _ (Finset.mem_insert_self j I)] at hbefore
    rw [howed, Finset.sum_update_of_mem (Finset.mem_insert_self j I), Finset.sdiff_singleton_eq_erase, hspent]
    omega

theorem Lacks.withStream (h : s.Lacks lost) {self : Stream} (hnone : s.streams self.streamId = none)
    (hpending : self.pendingCredits = []) : (s.withStream self).Lacks lost := by
  rw [← sub_zero lost]
  refine h.update (j := self.streamId) rfl ?_ ?_
  · rw [System.withStream, System.logged, total_append, total_singleton]
    exact add_zero _
  · rw [owed_of_none hnone, hpending, System.withStream, System.logged, total_append, total_singleton]
    rfl

/-- Outside the loop no frame is received. -/
theorem total_spent {i : Nat} {c c' : Ctx} (h : Acts i c c') :
    total Event.spent c'.conn.log = total Event.spent c.conn.log := by
  obtain ⟨es, hlog, hes⟩ := h.log
  rw [hlog, total_append]
  exact add_eq_left.mpr (total_eq_zero fun e he => Event.spent_of_not_ofLoop (hes e he).2)

/-- Of a stream that there is, what a method settles. -/
theorem Lacks.setStream (h : s.Lacks lost) {settled : Int}
    {i : Nat} {self : Stream} {c : Ctx} (hself : s.streams i = some self)
    (hacts : Acts i ⟨s.conn, self⟩ c) (hsettled : c.settled = Ctx.settled ⟨s.conn, self⟩ + settled) :
    (s.setStream i c).Lacks (lost - settled) := by
  refine h.update rfl (total_spent hacts) ?_
  rw [owed, hself]
  exact hsettled

/-- What makes every future of `data_received` give its credit back. -/
structure Payable (s : System) : Prop where
  wellFormed : s.WellFormed
  bounded : s.conn.Bounded
  pending : ∀ i self, s.streams i = some self → ∀ n ∈ self.pendingCredits, n < 2 ^ 32

theorem Payable.start (isClient : Bool) (params : Params) : (System.start isClient params).Payable where
  wellFormed := .start isClient params
  bounded := bounded_start isClient params
  pending := fun i self h => by cases h

theorem Payable.length (h : s.Payable) (hsize : frame.data.length ≤ s.conn.setting .maxFrameSize) :
    frame.data.length < 2 ^ 32 := Nat.lt_of_le_of_lt (hsize.trans h.bounded.max) (by decide)

theorem Payable.step (h : s.Payable) (a : Action) : (s.step a).Payable := by
  have hall : s.All fun self _ => ∀ n ∈ self.pendingCredits, n < 2 ^ 32 := fun i self hself => h.pending i self hself
  have hstable : Stable (fun self _ => ∀ n ∈ self.pendingCredits, n < 2 ^ 32) fun _ => True :=
    ⟨fun _ _ => trivial, fun _ h => h, fun _ _ _ n hn => by cases hn⟩
  have hstep := hall.step (a := a) hstable h.wellFormed trivial (fun _ _ _ _ _ _ _ _ => trivial)
    (fun frame later c _ hreads _ _ _ hown => ⟨Stream.handleFrame_pending (h.length hreads.2.1) hown.1, trivial⟩)
    fun i m self ha _ _ hown => ⟨Stream.method_pending ha hown.1, trivial⟩
  exact ⟨h.wellFormed.step a, bounded_step h.wellFormed h.bounded a, fun i self hself => hstep.1 hself⟩

/-- A DATA frame is empty, or its stream hands the whole of it to the delegate. -/
def DeliversWhole (s : System) : Action → Prop
  | .receive frame _ => frame.type = .data → frame.data ≠ [] →
    ∃ self, s.streams frame.streamId = some self ∧ self.Repays frame
  | _ => True

/-- No credit turns up again, and none is lost exactly if a frame that is
received is delivered. -/
def Accounts (s : System) (lost : Int) (a : Action) (s' : System) : Prop :=
  ∃ lost', s'.Lacks lost' ∧ lost ≤ lost' ∧ (lost' = lost ↔ s.DeliversWhole a)

theorem Lacks.accounts (h : s'.Lacks lost) (ha : s.DeliversWhole a) : s.Accounts lost a s' :=
  ⟨lost, h, le_refl lost, iff_of_true rfl ha⟩

theorem Lacks.accounts_data {settled : Nat} (h : s'.Lacks (lost + frame.data.length - settled))
    (hle : settled ≤ frame.data.length) (hiff : settled = frame.data.length ↔ s.DeliversWhole (.receive frame later)) :
    s.Accounts lost (.receive frame later) s' := by
  refine ⟨_, h, by omega, Iff.trans ?_ hiff⟩
  omega

theorem connHandleFrame_totals (frame : Frame) (c : Conn) :
    total Event.spent ((Conn.handleFrame frame).run c).2.log = total Event.spent c.log ∧
      total Event.returned ((Conn.handleFrame frame).run c).2.log = total Event.returned c.log := by
  have hlogged {log : List Event} {e : Event} (hspent : e.spent = 0) (hreturned : e.returned = 0)
      (h : total Event.spent log = total Event.spent c.log ∧ total Event.returned log = total Event.returned c.log) :
      total Event.spent (log ++ [e]) = total Event.spent c.log ∧
        total Event.returned (log ++ [e]) = total Event.returned c.log := by
    rw [total_append, total_append, total_singleton, total_singleton, hspent, hreturned, add_zero, add_zero]
    exact h
  have hkeeps : Prog.Keeps (fun c' : Conn => total Event.spent c'.log = total Event.spent c.log ∧
      total Event.returned c'.log = total Event.returned c.log) Anything (Conn.handleFrame frame) := by
    refine Conn.handleFrame_keeps (fun _ f _ htype _ h =>
      ⟨hlogged rfl (Event.returned_of_ne fun hupdate => ?_) h, trivial⟩)
      (fun _ _ _ h _ => ⟨h, trivial⟩) (fun _ h => ⟨h, trivial⟩)
      fun _ => .bind (fun _ h => ⟨h, trivial⟩) fun _ => fun _ h => ⟨hlogged rfl rfl h, trivial⟩
    rcases htype with htype | htype <;> cases hupdate.symm.trans htype
  exact (hkeeps c ⟨rfl, rfl⟩).1

/-- What a frame costs, if the connection goes on after it. -/
theorem Handled.accounts (h : s.Payable) (hlacks : s.Lacks lost) (hopen : s.conn.closed = false)
    {r : Except PyException Unit} (hr : r = .ok () ∨ ∃ i code, r = .error (.streamError i code))
    (hh : Handled s frame later r s') : s.Accounts lost (.receive frame later) s' := by
  have fatal {code : ErrorCode} {message : Option String} {p : Prop}
      (h : (.error (.connectionError code message) : Except PyException Unit) = .ok () ∨
        ∃ i code', (.error (.connectionError code message) : Except PyException Unit) =
          .error (.streamError i code')) : p := by
    rcases h with h | ⟨i, code', h⟩ <;> cases h
  cases hh with
  | oversized => exact fatal hr
  | interrupted => exact fatal hr
  | passed hsize _ hd =>
    have hlength := h.length hsize
    have hreceived : (s.logged (.received frame)).Lacks (lost + (Event.received frame).spent) := hlacks.logged rfl
    by_cases htype : frame.type = .data
    · have hspent : (Event.received frame).spent = frame.data.length := if_pos htype
      rw [hspent] at hreceived
      have absent (hself : s.streams frame.streamId = none) :
          s.Accounts lost (.receive frame later) (s.logged (.received frame)) := by
        refine Lacks.accounts_data ((sub_zero (lost + _)).symm ▸ hreceived) (Nat.zero_le _) ?_
        refine ⟨fun hempty _ hne => absurd (List.length_eq_zero_iff.mp hempty.symm) hne, fun hd => ?_⟩
        by_contra hne
        obtain ⟨self, hself', -⟩ := hd htype (fun hempty => hne (by rw [hempty, List.length_nil]))
        cases hself.symm.trans hself'
      cases hd with
      | conn =>
        rw [Conn.handleFrame, htype] at hr
        exact fatal hr
      | @stream self hid hself =>
        have hid' : self.streamId ≠ 0 := (h.wellFormed.streamId hself).symm ▸ hid
        have hsettled : (atStream (s.logged (.received frame)) frame later self).2.settled =
            Ctx.settled ⟨(s.logged (.received frame)).conn, self⟩ + self.repaid frame := by
          have hrepays := @Stream.handleFrame_repays
            ⟨(s.logged (.received frame)).conn, self⟩ frame later htype hopen hid' hlength
          rw [wp] at hrepays
          rcases hr with hr | ⟨i, code, hr⟩
          · rw [show ((Stream.handleFrame frame later).run ⟨(s.logged (.received frame)).conn, self⟩).1 =
              .ok () from hr] at hrepays
            exact hrepays
          · rw [show ((Stream.handleFrame frame later).run ⟨(s.logged (.received frame)).conn, self⟩).1 =
              .error (.streamError i code) from hr] at hrepays
            exact hrepays ⟨i, code, rfl⟩
        have hacts := (Stream.handleFrame_acts frame later ⟨(s.logged (.received frame)).conn, self⟩
          (h.wellFormed.streamId hself)).2
        have hstream := hreceived.setStream hself hacts hsettled
        refine Lacks.accounts_data (hstream.same rfl rfl rfl) self.repaid_le (self.repaid_eq_iff.trans ?_)
        refine ⟨fun hr _ hne => ⟨self, hself, hr hne⟩, fun hd hne => ?_⟩
        obtain ⟨self', hself', hr⟩ := hd htype hne
        cases hself.symm.trans hself'
        exact hr
      | accepted _ _ _ hheaders => cases htype.symm.trans hheaders
      | invalid => exact fatal hr
      | ignored _ hself => exact absent hself
      | past _ hself => exact absent hself
      | future => exact fatal hr
    · have hspent : (Event.received frame).spent = 0 := if_neg htype
      have hdelivers : s.DeliversWhole (.receive frame later) := fun hdata => absurd hdata htype
      rw [hspent, add_zero] at hreceived
      have hstream {s₁ : System} {self : Stream} (hlacks : s₁.Lacks lost)
        (hself : s₁.streams frame.streamId = some self)
          (hid : self.streamId = frame.streamId) : (s₁.handled frame later self).Lacks lost := by
        have hacts := (Stream.handleFrame_acts frame later ⟨s₁.conn, self⟩ hid).2
        have hunpaid := (@Stream.handleFrame_unpaid ⟨s₁.conn, self⟩ frame later htype).settled
        rw [← sub_zero lost]
        exact (hlacks.setStream hself hacts (hunpaid.trans (add_zero _).symm)).same rfl rfl rfl
      cases hd with
      | conn =>
        obtain ⟨hspent, hreturned⟩ := connHandleFrame_totals frame (s.logged (.received frame)).conn
        exact Lacks.accounts (hreceived.same rfl hspent hreturned) hdelivers
      | stream _ hself => exact (hstream hreceived hself (h.wellFormed.streamId hself)).accounts hdelivers
      | accepted _ hself =>
        have hopened := @Lacks.withStream _ _ hreceived (.new s.conn frame.streamId true) hself rfl
        have haccepted : ((s.logged (.received frame)).accepted frame).Lacks lost := by
          have hlogged : (System.logged _ (.startRequest frame.streamId)).Lacks (lost + 0) := hopened.logged rfl
          rw [add_zero] at hlogged
          exact hlogged.same rfl rfl rfl
        exact (hstream haccepted accepted_self rfl).accounts hdelivers
      | _ => exact hreceived.accounts hdelivers

theorem deliversWhole_of_method {i : Nat} {m : OnStream Unit} (ha : a.method = some (i, m)) : s.DeliversWhole a := by
  cases a with
  | receive => cases ha
  | _ => trivial

/-- A closed socket is not opened again. -/
theorem open_of_step (hw : s.WellFormed) (h : (s.step a).conn.closed = false) : s.conn.closed = false := by
  have hs := step_cases s a
  revert hs h
  generalize s.step a = s'
  intro h hs
  cases hs with
  | @received frame later r s₁ _ _ hh ha =>
    by_contra hclosed
    have hclosed' := hh.closed hw (Bool.eq_true_of_not_eq_false hclosed)
    cases ha with
    | nothing => exact Bool.false_ne_true (h.symm.trans hclosed')
    | reset => exact Bool.false_ne_true (h.symm.trans hclosed')
    | goaway hopen => exact Bool.false_ne_true (hopen.symm.trans hclosed')
    | ended hstays => exact Bool.false_ne_true (h.symm.trans (hstays hclosed'))
  | closed => cases h
  | method ha hself =>
    exact (congrArg (fun t => t.2.2.2.2) (Stream.method_acts ha ⟨s.conn, _⟩ (hw.streamId hself)).2.conn).symm.trans h
  | _ => exact h

theorem step_accounts (h : s.Payable) (hlacks : s.Lacks lost) (hloop : (s.step a).loop = .running)
    (hopen : (s.step a).conn.closed = false) : s.Accounts lost a (s.step a) := by
  have hopen' : s.conn.closed = false := open_of_step h.wellFormed hopen
  have hs := step_cases s a
  revert hs hloop
  generalize s.step a = s'
  intro hloop hs
  cases hs with
  | received _ hh ha =>
    cases ha with
    | nothing => exact hh.accounts h hlacks hopen' (.inl rfl)
    | @reset streamId code =>
      obtain ⟨lost', hlacks', hacc⟩ := hh.accounts h hlacks hopen' (.inr ⟨_, _, rfl⟩)
      have hlogged : (System.logged _ (.wrote (rstStreamFrame streamId code))).Lacks (lost' + 0) :=
        hlacks'.logged (Event.returned_of_ne fun h => by cases h)
      rw [add_zero] at hlogged
      exact ⟨lost', hlogged, hacc⟩
    | goaway => cases hloop
    | ended => cases hloop
  | created =>
    have hnone : s.streams s.conn.nextStreamId = none := by
      simpa using (h.wellFormed.ownIds rfl).not.mpr (by omega)
    have hnext : System.Lacks { s with conn := { s.conn with nextStreamId := s.conn.nextStreamId + 2 } } lost :=
      hlacks.same rfl rfl rfl
    exact (hnext.withStream hnone rfl).accounts trivial
  | upgraded _ hself => exact (hlacks.withStream hself rfl).accounts trivial
  | closed _ ha =>
    rcases ha with rfl | rfl
    · exact Lacks.accounts (hlacks.same rfl rfl rfl) trivial
    · exact Lacks.accounts (hlacks.same rfl rfl rfl) trivial
  | @method _ i m self ha hself =>
    have hid : self.streamId = i := h.wellFormed.streamId hself
    have hne : self.streamId ≠ 0 := by
      rintro hzero
      cases (hid ▸ hzero ▸ h.wellFormed.zero : s.streams i = none).symm.trans hself
    have hsettled : (m.run ⟨s.conn, self⟩).2.settled = Ctx.settled ⟨s.conn, self⟩ + 0 := by
      rw [add_zero]
      rcases Stream.method_sends ha with hsends | ⟨k, rfl⟩
      · exact (hsends i ⟨s.conn, self⟩ hid).2.unpaid.settled
      · exact Stream.resolveData_settles (h.pending i self hself) hopen' hne
    have hstream := hlacks.setStream hself (Stream.method_acts ha ⟨s.conn, self⟩ hid).2 hsettled
    rw [sub_zero] at hstream
    exact hstream.accounts (deliversWhole_of_method ha)
  | idle hidle =>
    refine hlacks.accounts ?_
    cases a with
    | receive frame later => exact absurd hloop (hidle frame later rfl)
    | _ => trivial

/-- Over a run, nothing is lost exactly if every frame is delivered. -/
theorem Lacks.run (h : s.Payable) (hlacks : s.Lacks lost) {actions : List Action}
    (hloop : (s.run actions).loop = .running) (hopen : (s.run actions).conn.closed = false) :
    ∃ lost', (s.run actions).Lacks lost' ∧ lost ≤ lost' ∧
      (lost' = lost ↔ Runs.Along step DeliversWhole s actions) := by
  induction actions using List.reverseRecOn with
  | nil => exact ⟨lost, hlacks, le_refl lost, iff_of_true rfl trivial⟩
  | append_singleton actions a ih =>
    have hpayable : (s.run actions).Payable := actions.foldlRecOn System.step h fun _ h a _ => h.step a
    rw [System.run, List.foldl_append] at hloop hopen ⊢
    obtain ⟨lost₁, hlacks₁, hle₁, hiff₁⟩ := ih (running_of_step hloop) (open_of_step hpayable.wellFormed hopen)
    obtain ⟨lost₂, hlacks₂, hle₂, hiff₂⟩ := step_accounts hpayable hlacks₁ hloop hopen
    refine ⟨lost₂, hlacks₂, hle₁.trans hle₂, ?_⟩
    rw [Runs.along_append, Runs.Along, Runs.Along, and_true, ← hiff₁]
    refine ⟨fun heq => ?_, fun heq => ?_⟩
    · have heq₁ : lost₁ = lost := by omega
      exact ⟨heq₁, hiff₂.mp (by omega)⟩
    · exact (hiff₂.mpr heq.2).trans heq.1

/-- Once every future is resolved, an open connection has returned the credit of
all DATA frames exactly if each of them reached the delegate as it was sent. -/
theorem credit_returned {isClient : Bool} {params : Params} {actions : List Action}
    (hloop : ((start isClient params).run actions).loop = .running)
    (hopen : ((start isClient params).run actions).conn.closed = false)
    (hresolved : ∀ i self, ((start isClient params).run actions).streams i = some self → self.pendingCredits = []) :
    total Event.returned ((start isClient params).run actions).conn.log =
        total Event.spent ((start isClient params).run actions).conn.log ↔
      Runs.Along step DeliversWhole (start isClient params) actions := by
  have hstart : (start isClient params).Lacks 0 := ⟨∅, fun _ _ => rfl, rfl⟩
  obtain ⟨lost, ⟨I, -, hsum⟩, -, hiff⟩ := hstart.run (.start isClient params) hloop hopen
  have howed : ∀ i, ((start isClient params).run actions).owed i = 0 := by
    intro i
    cases hself : ((start isClient params).run actions).streams i with
    | none => exact owed_of_none hself
    | some self =>
      rw [owed, hself, Option.elim_some, hresolved i self hself]
      rfl
  rw [Finset.sum_eq_zero fun i _ => howed i] at hsum
  rw [← hiff]
  omega

/-- The only stream is that of the request. -/
theorem resolved_request {frame : Frame} (hid : frame.streamId = 1)
    (hone : (((start false (.new none .caseless)).run
      [.receive (requestFrame 1 0x4) false, .receive frame false]).streams 1).map
      Stream.pendingCredits = some []) (i : Nat) (self : Stream)
    (hself : ((start false (.new none .caseless)).run
      [.receive (requestFrame 1 0x4) false, .receive frame false]).streams i = some self) :
    self.pendingCredits = [] := by
  by_cases hi : i = 1
  · subst i
    rw [hself] at hone
    exact Option.some.inj hone
  · have hnone : ((start false (.new none .caseless)).run
        [.receive (requestFrame 1 0x4) false, .receive frame false]).streams i = none :=
      (step_receive_of_ne (hid.symm ▸ hi)).trans (step_receive_of_ne hi)
    cases hnone.symm.trans hself

theorem credit_returned_data :
    let s := (start false (.new none .caseless)).run
      [.receive (requestFrame 1 0x4) false, .receive ⟨.data, 0, 1, [7, 7, 7]⟩ false]
    total Event.returned s.conn.log = total Event.spent s.conn.log ↔
      Runs.Along step DeliversWhole (start false (.new none .caseless))
      [.receive (requestFrame 1 0x4) false, .receive ⟨.data, 0, 1, [7, 7, 7]⟩ false] :=
  credit_returned (by decide +kernel) (by decide +kernel) (resolved_request rfl (by decide +kernel))

/-- The length of the padding and the padding are not returned. -/
theorem not_credit_returned :
    let s := (start false (.new none .caseless)).run [.receive (requestFrame 1 0x4) false, .receive paddedData false]
    s.loop = .running ∧ s.conn.closed = false ∧ (∀ i self, s.streams i = some self → self.pendingCredits = []) ∧
      total Event.returned s.conn.log = 1 ∧ total Event.spent s.conn.log = 4 :=
  ⟨by decide +kernel, by decide +kernel, resolved_request rfl (by decide +kernel), by decide +kernel, by decide +kernel⟩

end System

end TornadoHttp2
