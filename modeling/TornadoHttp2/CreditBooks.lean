import TornadoHttp2.Histories
import TornadoHttp2.ReturnedCredit
import Mathlib.Algebra.Order.BigOperators.Group.Finset

/-! Both ends of a window keep books: no sender is credited with more than the
WINDOW_UPDATE frames it has read, and no receiver returns more than the DATA
frames it has read. -/

namespace TornadoHttp2

open Prog Ctx

/-- What a WINDOW_UPDATE frame grants at most. -/
def Frame.increment (window : Option Nat) (frame : Frame) : Int :=
  if frame.type = .windowUpdate ∧ frame.streamId = window.getD 0 then unpackBytes frame.data else 0

/-- What a DATA frame takes from a window. -/
def Frame.load (window : Option Nat) (frame : Frame) : Int :=
  if frame.type = .data ∧ window.getD frame.streamId = frame.streamId then frame.data.length else 0

/-- What the frames of a list come to. -/
def sumOf (f : Frame → Int) (frames : List Frame) : Int := (frames.map f).sum

def Event.loaded (window : Option Nat) : Event → Int
  | received frame => frame.load window
  | _ => 0

/-- What is given back on a window. -/
def Event.grants (window : Option Nat) : Event → Int
  | wrote frame => frame.increment window
  | _ => 0

section

variable {f : Frame → Int} {frames frames' : List Frame} {frame : Frame}

@[simp] theorem sumOf_append : sumOf f (frames ++ frames') = sumOf f frames + sumOf f frames' := by simp [sumOf]

@[simp] theorem sumOf_singleton : sumOf f [frame] = f frame := by simp [sumOf]

theorem sumOf_nonneg (h : ∀ frame, 0 ≤ f frame) : 0 ≤ sumOf f frames :=
  List.sum_nonneg fun x hx => by
    obtain ⟨frame, -, rfl⟩ := List.mem_map.mp hx
    exact h frame

end

section

variable {w : Option Nat} {frame : Frame} {e : Event}

theorem Frame.increment_nonneg : 0 ≤ frame.increment w := by
  rw [increment]
  split <;> omega

theorem Frame.load_nonneg : 0 ≤ frame.load w := by
  rw [load]
  split <;> omega

theorem Event.loaded_nonneg : 0 ≤ e.loaded w := by
  cases e with
  | received => exact Frame.load_nonneg
  | _ => exact le_refl _

theorem Frame.increment_of_ne (h : frame.type ≠ .windowUpdate) : frame.increment w = 0 :=
    if_neg fun hupdate => h hupdate.1

theorem Event.ofSending.grants {i : Nat} (h : e.ofSending i) : e.grants w = 0 := by
  cases e with
  | wrote f =>
    refine Frame.increment_of_ne fun hupdate => ?_
    rcases h.2 with htype | htype | hframe
    · cases hupdate.symm.trans htype
    · cases hupdate.symm.trans htype
    · rw [hframe] at hupdate
      cases hupdate
  | _ => rfl

theorem Event.returned_eq : e.returned = e.grants none := by cases e <;> rfl

end

/-- Nothing is given back, and nothing more is to be. -/
structure Withholds (c c' : Ctx) : Prop where
  pending : c'.self.pendingCredits = c.self.pendingCredits
  log : Grows (fun e => ∀ w, e.grants w = 0) c.conn.log c'.conn.log

instance : Std.Refl Withholds := ⟨fun _ => ⟨rfl, .refl⟩⟩

instance : IsTrans Ctx Withholds := ⟨fun _ _ _ h h' => ⟨h'.pending.trans h.pending, h.log.trans h'.log⟩⟩

theorem SendsOnly.withholds {i : Nat} {c c' : Ctx} (h : SendsOnly i c c') : Withholds c c' :=
  ⟨congrArg (fun t => t.2.2.2.2.2.2.2) h.self, h.log.mono fun _ he _ => he.grants⟩

/-- What is given back or will be once the futures of the stream are resolved. -/
def Ctx.repaid (w : Option Nat) (c : Ctx) : Int := total (Event.grants w) c.conn.log + (c.self.pendingCredits.sum : Nat)

theorem Withholds.repaid {c c' : Ctx} (h : Withholds c c') (w : Option Nat) : c'.repaid w = c.repaid w := by
  obtain ⟨es, hlog, hes⟩ := h.log
  rw [Ctx.repaid, Ctx.repaid, h.pending, hlog, total_append, total_eq_zero fun e he => hes e he w, add_zero]

theorem Withholds.logged {c : Ctx} {e : Event} (he : ∀ w, e.grants w = 0) : Withholds c (c.logged e) := ⟨rfl, .snoc he⟩

namespace Stream

variable {c : Ctx} {frame : Frame} {later : Bool} {w : Option Nat} {i : Nat} {n : Int}

theorem callDelegate_withholds {call : DelegateCall} : Keeps (fun _ => True) Withholds (callDelegate call) :=
  .get_bind fun _ _ => .bind .check fun _ => fun _ _ => ⟨trivial, .logged fun _ => rfl⟩

theorem keepsReceiving_withholds : KeepsReceiving (fun _ => True) Withholds where
  set _ h := fun c _ => ⟨trivial, congrArg (fun t => t.2.2) (h c.self), .refl⟩
  frames _ := fun _ _ => ⟨trivial, rfl, .refl⟩
  decode _ := .bind (fun _ _ => ⟨trivial, .logged fun _ => rfl⟩) fun _ => .get_bind fun c _ => by
    rcases c.conn.hpackDecoder.decode c.conn.huffmanTree _ with ⟨_ | _, _, _⟩
    · exact .bind (fun _ _ => ⟨trivial, rfl, .refl⟩) fun _ => .raise _
    · exact .bind (fun _ _ => ⟨trivial, rfl, .refl⟩) fun _ => .pure _
  headers _ _ := callDelegate_withholds
  finish := callDelegate_withholds
  close := callDelegate_withholds

theorem handleFrame_withholds (htype : frame.type ≠ .data) : Withholds c ((handleFrame frame later).run c).2 := by
  have hkeeps : Keeps (fun _ => True) Withholds (handleFrame frame later) := by
    refine keepsReceiving_withholds.handleFrame (fun c _ => ⟨trivial, (writeHeaders_sends c rfl).2.withholds⟩)
      (fun c _ => ⟨trivial, (finish_sends c rfl).2.withholds⟩) (fun _ => ?_) fun hdata => absurd hdata htype
    exact .get_bind fun _ _ => .bind (fun _ _ => ⟨trivial, rfl, .refl⟩) fun _ =>
      fun _ _ => ⟨trivial, .logged fun _ => rfl⟩
  exact (hkeeps c trivial).2

/-- No more than `n` is given back by stream `i`. -/
def Returns (w : Option Nat) (i : Nat) (n : Int) (c : Ctx) : Prop := c.self.streamId = i ∧ c.repaid w ≤ n

theorem Returns.mono {n' : Int} (h : Returns w i n c) (hn : n ≤ n') : Returns w i n' c := ⟨h.1, h.2.trans hn⟩

theorem Returns.wrote (h : Returns w i n c) (frame : Frame) :
    Returns w i (n + frame.increment w) (c.logged (.wrote frame)) := by
  refine ⟨h.1, ?_⟩
  have hwrote : (c.logged (.wrote frame)).repaid w = c.repaid w + frame.increment w := by
    rw [Ctx.repaid, Ctx.repaid, Ctx.logged, total_append, total_singleton]
    exact add_right_comm ..
  rw [hwrote]
  exact add_le_add_left h.2 _

/-- What withholds credit keeps the bound. -/
theorem returns_of_keeps {α : Type} {m : OnStream α} (hm : Keeps (fun _ => True) Withholds m)
    (hid : Keeps (fun c : Ctx => c.self.streamId = i) Anything m) (h : Returns w i n c) :
    wp m (fun _ => Returns w i n) (fun _ => Returns w i n) c :=
  wp_state.mpr ⟨(hid c h.1).1, ((hm c trivial).2.repaid w).le.trans h.2⟩

theorem writeFrame_returns (h : Returns w i n c) (frame : Frame) :
    wp (writeFrame frame) (fun _ => Returns w i (n + frame.increment w))
      (fun _ => Returns w i (n + frame.increment w)) c := by
  have hnonneg : 0 ≤ frame.increment w := Frame.increment_nonneg
  rw [writeFrame_wp]
  split
  · exact h.mono (by omega)
  · split
    · exact h.mono (by omega)
    · exact h.wrote frame

/-- Of the two frames, one is for the window. -/
theorem sendWindowUpdate_returns (hw : w = none ∨ w = some i) (hi : i ≠ 0) {amount : Nat} (h : Returns w i n c) :
    wp (sendWindowUpdate amount) (fun _ => Returns w i (n + amount)) (fun _ => Returns w i (n + amount)) c := by
  rw [sendWindowUpdate, wp_bind, wp_get, wp_bind, wp_check, h.1]
  refine ⟨fun _ => h.mono (by omega), fun hamount => ?_⟩
  have hpacked : ((unpackBytes (packBytes 4 amount) : Nat) : Int) = amount := by
    rw [unpackBytes_packBytes (not_le.mp hamount)]
  have hsum : (⟨.windowUpdate, 0, 0, packBytes 4 amount⟩ : Frame).increment w +
      (⟨.windowUpdate, 0, i, packBytes 4 amount⟩ : Frame).increment w = amount := by
    rcases hw with rfl | rfl
    · rw [Frame.increment, Frame.increment, if_pos ⟨rfl, rfl⟩, if_neg fun h => hi h.2, hpacked, add_zero]
    · rw [Frame.increment, Frame.increment, if_neg fun h => hi h.2.symm, if_pos ⟨rfl, rfl⟩, hpacked, zero_add]
  have hnonneg : 0 ≤ (⟨.windowUpdate, 0, i, packBytes 4 amount⟩ : Frame).increment w := Frame.increment_nonneg
  rw [wp_bind]
  refine wp_mono (writeFrame_returns h _) (fun _ c' h' => ?_) fun _ _ h' => h'.mono (by omega)
  exact wp_mono (writeFrame_returns h' _) (fun _ _ h'' => h''.mono (by omega)) fun _ _ h'' => h''.mono (by omega)

theorem deliverData_returns (hw : w = none ∨ w = some i) (hi : i ≠ 0) {data : Bytes} (h : Returns w i n c) :
    wp (deliverData later data) (fun _ => Returns w i (n + data.length))
      (fun _ => Returns w i (n + data.length)) c := by
  rw [deliverData, wp_bind]
  refine wp_mono (returns_of_keeps callDelegate_withholds
    (.get_bind fun _ _ => .bind .check fun _ => fun _ h => ⟨h, trivial⟩) h)
    (fun _ c' h' => ?_) fun _ _ h' => h'.mono (by omega)
  cases later with
  | true =>
    refine ⟨h'.1, ?_⟩
    have hle := h'.2
    change total (Event.grants w) c'.conn.log + ((c'.self.pendingCredits ++ [data.length]).sum : Nat) ≤ _
    rw [Ctx.repaid] at hle
    rw [List.sum_append, List.sum_singleton, Nat.cast_add]
    omega
  | false => exact sendWindowUpdate_returns hw hi h'

/-- A DATA frame gives back what it holds at most. -/
theorem handleDataFrame_returns (hw : w = none ∨ w = some i) (hi : i ≠ 0) (h : Returns w i n c) :
    wp (handleDataFrame frame later) (fun _ => Returns w i (n + frame.data.length))
      (fun _ => Returns w i (n + frame.data.length)) c := by
  have kept {α : Type} {m : OnStream α} {c : Ctx} {n : Int} (hm : Keeps (fun _ => True) Withholds m)
      (hid : Receives i m) (h : Returns w i n c) : wp m (fun _ => Returns w i n) (fun _ => Returns w i n) c :=
    returns_of_keeps hm (hid.mono fun _ _ _ => trivial) h
  have hbound : n ≤ n + frame.data.length := by omega
  rw [handleDataFrame, wp_bind, wp_get, wp_bind, wp_check]
  refine ⟨fun _ => h.mono hbound, fun _ => ?_⟩
  rw [wp_bind, wp_check]
  refine ⟨fun _ => h.mono hbound, fun _ => ?_⟩
  rw [wp_bind]
  refine wp_mono (kept (keepsReceiving_withholds.set _ fun _ => rfl) (keepsReceiving_receives.set _ fun _ => rfl) h)
    (fun _ c₁ h₁ => ?_) fun _ _ h₁ => h₁.mono hbound
  rw [wp_bind, wp_ofExcept]
  cases hpadding : frame.withoutPadding with
  | error => exact h₁.mono hbound
  | ok f =>
    have hlength : (f.data.length : Int) ≤ frame.data.length := Int.ofNat_le.mpr (withoutPadding_length hpadding)
    have hend {c' : Ctx} (h' : Returns w i (n + frame.data.length) c') : wp (do let _ ← maybeEndStream f)
        (fun _ => Returns w i (n + frame.data.length)) (fun _ => Returns w i (n + frame.data.length)) c' := by
      rw [wp_bind]
      exact kept (maybeEndStream_keeps keepsReceiving_withholds.set callDelegate_withholds)
        (maybeEndStream_keeps keepsReceiving_receives.set callDelegate_receives) h'
    dsimp only
    rw [wp_bind]
    refine wp_mono (kept (countIncoming_keeps keepsReceiving_withholds.set)
      (countIncoming_keeps keepsReceiving_receives.set) h₁)
      (fun _ c₂ h₂ => ?_) fun _ _ h₂ => h₂.mono hbound
    rw [wp_bind, wp_when]
    refine ⟨fun _ => ?_, fun _ => hend (h₂.mono hbound)⟩
    exact wp_mono (deliverData_returns hw hi h₂) (fun _ _ h₃ => hend (h₃.mono (by omega)))
      fun _ _ h₃ => h₃.mono (by omega)

theorem handleFrame_returns (hw : w = none ∨ w = some c.self.streamId) (hi : c.self.streamId ≠ 0)
    (hid : frame.streamId = c.self.streamId) :
    ((handleFrame frame later).run c).2.repaid w ≤ c.repaid w + frame.load w := by
  by_cases htype : frame.type = .data
  · have hload : frame.load w = frame.data.length := by
      refine if_pos ⟨htype, ?_⟩
      rcases hw with rfl | rfl
      · rfl
      · exact hid.symm
    rw [handleFrame_data htype, hload]
    split
    · exact (le_refl _).trans (by change c.repaid w ≤ _; omega)
    · exact (wp_state.mp (handleDataFrame_returns hw hi ⟨rfl, le_refl _⟩)).2
  · rw [(handleFrame_withholds htype).repaid, Frame.load, if_neg fun h => htype h.1, add_zero]

/-- A resolved future gives back what it owed, if anything. -/
theorem resolveData_returns {k : Nat} (hw : w = none ∨ w = some c.self.streamId) (hi : c.self.streamId ≠ 0) :
    ((resolveData k).run c).2.repaid w ≤ c.repaid w := by
  refine (wp_state (P := fun c' : Ctx => c'.repaid w ≤ c.repaid w)).mp ?_
  rw [resolveData, wp_bind, wp_get]
  cases hk : c.self.pendingCredits[k]? with
  | none => exact le_refl _
  | some amount =>
    obtain ⟨hlt, hget⟩ := List.getElem?_eq_some_iff.mp hk
    have hsum : (c.self.pendingCredits.eraseIdx k).sum + amount = c.self.pendingCredits.sum := by
      rw [← (List.getElem_cons_eraseIdx_perm hlt).sum_eq, List.sum_cons, hget, add_comm]
    have herased : Returns w c.self.streamId (c.repaid w - amount)
        ⟨c.conn, { c.self with pendingCredits := c.self.pendingCredits.eraseIdx k }⟩ := by
      refine ⟨rfl, ?_⟩
      rw [Ctx.repaid, Ctx.repaid, ← hsum, Nat.cast_add]
      dsimp only
      omega
    dsimp only
    rw [setSelf, wp_bind, wp_modify]
    exact wp_mono (sendWindowUpdate_returns hw hi herased) (fun _ _ h => h.2.trans (by omega))
      fun _ _ h => h.2.trans (by omega)

theorem method_returns {a : System.Action} {m : OnStream Unit} (ha : a.method = some (c.self.streamId, m))
    (hw : w = none ∨ w = some c.self.streamId) (hi : c.self.streamId ≠ 0) : (m.run c).2.repaid w ≤ c.repaid w := by
  rcases method_sends ha with hsends | ⟨k, rfl⟩
  · exact ((hsends c.self.streamId c rfl).2.withholds.repaid w).le
  · exact resolveData_returns hw hi

end Stream

theorem Event.spent_eq {e : Event} : e.spent = e.loaded none := by
  cases e with
  | received frame => exact if_congr (by simp) rfl rfl
  | _ => rfl

theorem Ctx.settled_eq {c : Ctx} : c.settled = c.repaid none := by
  rw [Ctx.settled, Ctx.repaid]
  exact congrArg (· + _) (congrArg (fun f => total f c.conn.log) (funext fun _ => Event.returned_eq))

namespace System

variable {s s' : System} {lost : Int} {a : Action} {frame : Frame} {later : Bool} {r : Except PyException Unit}

/-- No credit turns up again. -/
def Loses (s : System) (lost : Int) : Prop := ∃ lost', lost ≤ lost' ∧ s.Lacks lost'

theorem Lacks.loses (h : s.Lacks lost) {lost' : Int} (hle : lost' ≤ lost) : s.Loses lost' := ⟨lost, hle, h⟩

theorem Lacks.handled (h : s.Lacks lost) {self : Stream} (hself : s.streams frame.streamId = some self)
    (hid : self.streamId = frame.streamId) (hne : frame.streamId ≠ 0) :
    (s.handled frame later self).Loses (lost - (Event.received frame).spent) := by
  have hacts := (Stream.handleFrame_acts frame later ⟨s.conn, self⟩ hid).2
  have hreturns := @Stream.handleFrame_returns ⟨s.conn, self⟩ frame later none (.inl rfl) (hid ▸ hne) hid.symm
  rw [← Ctx.settled_eq, ← Ctx.settled_eq] at hreturns
  obtain ⟨settled, hsettled⟩ : ∃ n, ((Stream.handleFrame frame later).run ⟨s.conn, self⟩).2.settled =
      Ctx.settled ⟨s.conn, self⟩ + n := ⟨_, (add_sub_cancel _ _).symm⟩
  have hstream : (s.handled frame later self).Lacks (lost - settled) :=
    (h.setStream hself hacts hsettled).same rfl rfl rfl
  refine hstream.loses ?_
  rw [Event.spent_eq, Event.loaded]
  omega

theorem Lacks.dispatched (hw : s.WellFormed) (h : s.Lacks lost) (hd : Dispatched s frame later r s') :
    s'.Loses (lost - (Event.received frame).spent) := by
  have hnonneg : 0 ≤ (Event.received frame).spent := by
    rw [Event.spent_eq]
    exact Event.loaded_nonneg
  cases hd with
  | conn =>
    obtain ⟨hspent, hreturned⟩ := connHandleFrame_totals frame s.conn
    have hsame : System.Lacks { s with conn := ((Conn.handleFrame frame).run s.conn).2 } lost :=
      h.same rfl hspent hreturned
    exact hsame.loses (by omega)
  | stream hid hself => exact h.handled hself (hw.streamId hself) hid
  | accepted hid hself =>
    have hopened : (System.logged _ (.startRequest frame.streamId)).Lacks (lost + 0) :=
      (@Lacks.withStream _ _ h (.new s.conn frame.streamId true) hself rfl).logged rfl
    rw [add_zero] at hopened
    have haccepted : (s.accepted frame).Lacks lost := hopened.same rfl rfl rfl
    exact haccepted.handled accepted_self rfl hid
  | _ => exact h.loses (by omega)

theorem Loses.answered (h : s.Loses lost) (ha : Answered s r s') : s'.Loses lost := by
  obtain ⟨lost', hle, hlacks⟩ := h
  refine ⟨lost', hle, ?_⟩
  rw [← add_zero lost']
  cases ha with
  | nothing => rwa [add_zero]
  | reset => exact hlacks.logged (Event.returned_of_ne fun h => by cases h)
  | @goaway code message =>
    have hlogged : (s.logged (.wrote (goawayFrame code 0 message))).Lacks (lost' + 0) :=
      hlacks.logged (Event.returned_of_ne fun h => by cases h)
    exact hlogged.same rfl rfl rfl
  | ended =>
    rw [add_zero]
    exact hlacks.same rfl rfl rfl

theorem Lacks.step (hw : s.WellFormed) (h : s.Lacks lost) (a : Action) : (s.step a).Loses lost := by
  have hs := step_cases s a
  revert hs
  generalize s.step a = s'
  intro hs
  cases hs with
  | @received frame later r s₁ _ hloop hh ha =>
    refine Loses.answered ?_ ha
    have hreceived : (s.logged (.received frame)).Lacks (lost + (Event.received frame).spent) := h.logged rfl
    have hnonneg : 0 ≤ (Event.received frame).spent := by
      rw [Event.spent_eq]
      exact Event.loaded_nonneg
    cases hh with
    | oversized => exact h.loses (le_refl _)
    | interrupted => exact hreceived.loses (by omega)
    | passed _ _ hd =>
      have hloses := hreceived.dispatched (hw.logged (e := .received frame) (.inr (.inl trivial))) hd
      rwa [add_sub_cancel_right] at hloses
  | created =>
    have hnone : s.streams s.conn.nextStreamId = none := by
      simpa using (hw.ownIds rfl).not.mpr (by omega)
    have hnext : System.Lacks { s with conn := { s.conn with nextStreamId := s.conn.nextStreamId + 2 } } lost :=
      h.same rfl rfl rfl
    exact (hnext.withStream hnone rfl).loses (le_refl _)
  | upgraded _ hself => exact (h.withStream hself rfl).loses (le_refl _)
  | closed _ ha =>
    rcases ha with rfl | rfl
    · exact Lacks.loses (h.same rfl rfl rfl) (le_refl _)
    · exact Lacks.loses (h.same rfl rfl rfl) (le_refl _)
  | @method _ i m self ha hself =>
    have hid : self.streamId = i := hw.streamId hself
    have hne : self.streamId ≠ 0 := by
      rintro hzero
      cases (hid ▸ hzero ▸ hw.zero : s.streams i = none).symm.trans hself
    have hreturns := @Stream.method_returns ⟨s.conn, self⟩ none a m (hid.symm ▸ ha) (.inl rfl) hne
    rw [← Ctx.settled_eq, ← Ctx.settled_eq] at hreturns
    obtain ⟨settled, hsettled⟩ : ∃ n, (m.run ⟨s.conn, self⟩).2.settled = Ctx.settled ⟨s.conn, self⟩ + n :=
      ⟨_, (add_sub_cancel _ _).symm⟩
    exact (h.setStream hself (Stream.method_acts ha ⟨s.conn, self⟩ hid).2 hsettled).loses (by omega)
  | idle => exact h.loses (le_refl _)

end System

/-! The window of one stream. -/

def StreamReturns (self : Stream) (log : List Event) : Prop :=
  total (Event.grants (some self.streamId)) log + (self.pendingCredits.sum : Nat) ≤
    total (Event.loaded (some self.streamId)) log

section

variable {i : Nat} {w : Option Nat} {e : Event} {log : List Event}

theorem total_nonneg {f : Event → Int} (h : ∀ e ∈ log, 0 ≤ f e) : 0 ≤ total f log :=
  List.sum_nonneg fun x hx => by
    obtain ⟨e, he, rfl⟩ := List.mem_map.mp hx
    exact h e he

theorem Event.isNoise.grants (h : e.isNoise) : e.grants w = 0 := by
  cases e with
  | wrote frame => exact Frame.increment_of_ne fun hupdate => by simp [isNoise, hupdate] at h
  | _ => rfl

theorem Event.isRefusal.grants (h : e.isRefusal) : e.grants w = 0 := by
  cases e with
  | wrote frame => exact Frame.increment_of_ne fun hupdate => by simp [isRefusal, hupdate] at h
  | _ => rfl

theorem total_grants_logOf : total (Event.grants (some i)) (logOf i log) = total (Event.grants (some i)) log :=
  total_logOf fun e he => by
    cases e with
    | wrote frame => exact if_neg fun h => he h.2
    | _ => rfl

theorem total_loaded_logOf : total (Event.loaded (some i)) (logOf i log) = total (Event.loaded (some i)) log :=
  total_logOf fun e he => by
    cases e with
    | received frame => exact if_neg fun h => he h.2.symm
    | _ => rfl

end

theorem Acts.loaded {i : Nat} {w : Option Nat} {c c' : Ctx} (h : Acts i c c') :
    total (Event.loaded w) c'.conn.log = total (Event.loaded w) c.conn.log := by
  obtain ⟨es, hlog, hes⟩ := h.log
  rw [hlog, total_append]
  refine add_eq_left.mpr (total_eq_zero fun e he => ?_)
  cases e with
  | received => exact absurd trivial (hes _ he).2
  | _ => rfl

theorem stable_streamReturns : Stable StreamReturns fun _ => True where
  quiet _ _ := trivial
  noise {self log e} he h := by
    have hnonneg : 0 ≤ e.loaded (some self.streamId) := Event.loaded_nonneg
    rw [StreamReturns] at h ⊢
    rw [total_append, total_append, total_singleton, total_singleton, he.grants]
    omega
  new {c i hasDelegate log} _ _ hlog := by
    have hnone : total (Event.grants (some i)) (log ++ [.opened i (c.setting .initialWindowSize)]) = 0 := by
      rw [total_append, total_eq_zero fun e he => (hlog e he).grants]
      rfl
    have hnonneg : 0 ≤ total (Event.loaded (some i)) (log ++ [.opened i (c.setting .initialWindowSize)]) :=
      total_nonneg fun _ _ => Event.loaded_nonneg
    change total (Event.grants (some i)) _ + ((([] : List Nat).sum : Nat) : Int) ≤ _
    rw [hnone]
    exact hnonneg

namespace System

variable {s : System}

/-- What the loop reads for a stream, the stream may give back. -/
theorem streamReturns_step (hw : s.WellFormed) (h : s.All StreamReturns) (a : Action) :
    (s.step a).All StreamReturns := by
  refine (h.step (a := a) stable_streamReturns hw trivial (fun _ _ _ _ _ _ _ _ => trivial) ?_ ?_).1
  · rintro frame later c rfl - hid hmeets hself -
    refine ⟨?_, trivial⟩
    have hacts := (Stream.handleFrame_acts frame later c hself).2
    have hreturns := @Stream.handleFrame_returns c frame later
      (some c.self.streamId) (.inr rfl) (hself ▸ hid) hself.symm
    have hbefore : c.repaid (some frame.streamId) + frame.load (some frame.streamId) ≤
        total (Event.loaded (some frame.streamId)) c.conn.log := by
      cases hmeets with
      | @known self hknown =>
        have hbooks := h hknown
        rw [StreamReturns, hw.streamId hknown, total_grants_logOf, total_loaded_logOf] at hbooks
        rw [Ctx.repaid, logged, total_append, total_append, total_singleton, total_singleton]
        change _ + 0 + ((self.pendingCredits.sum : Nat) : Int) + _ ≤ _ + frame.load (some frame.streamId)
        omega
      | opened hnone htype =>
        have hload : frame.load (some frame.streamId) = 0 := if_neg fun h => by cases htype.symm.trans h.1
        have hgrants : total (Event.grants (some frame.streamId)) s.conn.log = 0 := by
          rw [← total_grants_logOf]
          refine total_eq_zero fun e he => Event.isRefusal.grants ?_
          exact hw.absent hid hnone e (mem_logOf.mp he).1 (mem_logOf.mp he).2
        have hlog : total (Event.grants (some frame.streamId))
            ((s.logged (.received frame)).accepted frame).conn.log = 0 := by
          simp only [accepted, withStream, logged, total_append, total_singleton, hgrants]
          rfl
        rw [hload, Ctx.repaid, hlog]
        exact total_nonneg fun _ _ => Event.loaded_nonneg
    rw [StreamReturns, hacts.self, total_grants_logOf, total_loaded_logOf, hself, hacts.loaded]
    rw [hself] at hreturns
    exact hreturns.trans hbefore
  · rintro i m self ha hself hid ⟨hbooks, -⟩
    refine ⟨?_, trivial⟩
    have hne : self.streamId ≠ 0 := by
      rintro hzero
      cases (hid ▸ hzero ▸ hw.zero : s.streams i = none).symm.trans hself
    subst hid
    have hacts := (Stream.method_acts ha ⟨s.conn, self⟩ rfl).2
    have hreturns := @Stream.method_returns ⟨s.conn, self⟩ (some self.streamId) a m ha (.inr rfl) hne
    rw [StreamReturns, total_grants_logOf, total_loaded_logOf] at hbooks ⊢
    rw [hacts.self, hacts.loaded]
    exact hreturns.trans hbooks

end System

/-! What a sender is credited with. -/

/-- The increment without the reserved bit. -/
theorem Window.applyWindowUpdate_amount {window window' : Window} {frame : Frame} {amount : Nat}
    (h : (applyWindowUpdate frame).run window = (.ok amount, window')) : amount ≤ unpackBytes frame.data := by
  cases hword : unpackWord frame.data with
  | error e =>
    rw [applyWindowUpdate, hword] at h
    cases h
  | ok n =>
    have hn : n = unpackBytes frame.data := by
      rw [unpackWord] at hword
      split at hword
      · exact (Except.ok.inj hword).symm
      · cases hword
    have hle : n &&& 0x7fffffff ≤ n := Nat.and_le_left
    rw [applyWindowUpdate_run hword] at h
    split at h
    · cases h
    · rw [run_bind] at h
      split at h
      · cases h
        exact hn ▸ hle
      · cases h

/-- The credit of a frame that is being handled. -/
def Grants (frame : Frame) (log log' : List Event) : Prop :=
  ∀ w, total (Event.credit w) log' ≤ total (Event.credit w) log + frame.increment w

section

variable {frame : Frame} {log log' : List Event}

theorem Grants.of_spends {p : Event → Prop} (hlog : Grows p log log') (hp : ∀ e, p e → ∀ w, e.credit w = 0) :
    Grants frame log log' := by
  intro w
  obtain ⟨es, rfl, hes⟩ := hlog
  have hnonneg : 0 ≤ frame.increment w := Frame.increment_nonneg
  rw [total_append, total_eq_zero fun e he => hp e (hes e he) w]
  omega

/-- A WINDOW_UPDATE is good for the window that it names. -/
theorem Grants.credited {amount : Nat} {window : Option Nat} (htype : frame.type = .windowUpdate)
    (hid : frame.streamId = window.getD 0) (hle : amount ≤ unpackBytes frame.data) :
    Grants frame log (log ++ [.credited window amount]) := by
  intro w
  rw [total_append, total_singleton, Event.credit, Frame.increment]
  split
  · rename_i hw
    rw [if_pos ⟨htype, by rw [hid, hw]⟩]
    omega
  · split <;> omega

end

theorem Conn.handleFrame_grants (frame : Frame) (hid : frame.streamId = 0) (c : Conn) :
    Grants frame c.log ((handleFrame frame).run c).2.log := by
  by_cases htype : frame.type = .windowUpdate
  · rw [handleFrame, htype]
    dsimp only
    rw [handleWindowUpdateFrame, run_bind, run_zoom]
    rcases hrun : (Window.applyWindowUpdate frame).run c.window with ⟨e | amount, window⟩
    · exact .of_spends (p := fun _ => False) .refl fun _ h => h.elim
    · exact .credited htype hid (Window.applyWindowUpdate_amount hrun)
  · have hlogged {e : Event} {c' : Conn} (he : ∀ w, e.credit w = 0)
        (h : ∀ w, total (Event.credit w) c'.log = total (Event.credit w) c.log) (w : Option Nat) :
        total (Event.credit w) (c'.log ++ [e]) = total (Event.credit w) c.log := by
      rw [total_append, total_singleton, he w, add_zero, h w]
    have hkeeps : Keeps (fun c' : Conn => ∀ w, total (Event.credit w) c'.log = total (Event.credit w) c.log) Anything
        (handleFrame frame) :=
      handleFrame_keeps (fun _ _ _ _ _ h => ⟨hlogged (fun _ => rfl) h, trivial⟩) (fun _ _ _ h _ => ⟨h, trivial⟩)
        (fun _ h => ⟨h, trivial⟩) fun hupdate => absurd hupdate htype
    intro w
    have hnonneg : 0 ≤ frame.increment w := Frame.increment_nonneg
    rw [(hkeeps c fun _ => rfl).1 w]
    omega

theorem Stream.handleFrame_grants {frame : Frame} {later : Bool} {c : Ctx} (hid : frame.streamId = c.self.streamId) :
    Grants frame c.conn.log ((handleFrame frame later).run c).2.conn.log := by
  by_cases htype : frame.type = .windowUpdate
  · rw [handleFrame_windowUpdate htype, handleWindowUpdateFrame, run_get_bind, run_bind, run_zoom]
    rcases hrun : (Window.applyWindowUpdate frame).run c.self.window with ⟨e | amount, window⟩
    · exact .of_spends (p := fun _ => False) .refl fun _ h => h.elim
    · exact .credited htype hid (Window.applyWindowUpdate_amount hrun)
  · exact .of_spends (handleFrame_spends htype c rfl).2.log fun _ he => he.credit

namespace System

variable {s s' : System} {frame : Frame} {later : Bool} {r : Except PyException Unit}

theorem Dispatched.grants (hw : s.WellFormed) (h : Dispatched s frame later r s') :
    Grants frame s.conn.log s'.conn.log := by
  have hnone (log : List Event) : Grants frame log log := .of_spends (p := fun _ => False) .refl fun _ h => h.elim
  cases h with
  | conn hid => exact Conn.handleFrame_grants frame hid s.conn
  | @stream self _ hself => exact @Stream.handleFrame_grants frame later ⟨s.conn, self⟩ (hw.streamId hself).symm
  | accepted =>
    intro w
    have hhandled := @Stream.handleFrame_grants frame later
      ⟨(s.accepted frame).conn, .new s.conn frame.streamId true⟩ rfl w
    have hopened : total (Event.credit w) (s.accepted frame).conn.log = total (Event.credit w) s.conn.log :=
      (total_append.trans (add_zero _)).trans (total_append.trans (add_zero _))
    exact hopened ▸ hhandled
  | _ => exact hnone _

theorem Answered.credit (h : Answered s r s') (w : Option Nat) :
    total (Event.credit w) s'.conn.log = total (Event.credit w) s.conn.log := by
  cases h with
  | nothing => rfl
  | reset => exact total_append.trans (add_zero _)
  | goaway => exact total_append.trans (add_zero _)
  | ended => rfl

/-- A step credits what its frame grants at most. -/
theorem step_credit (hw : s.WellFormed) (a : Action) (w : Option Nat) :
    total (Event.credit w) (s.step a).conn.log ≤
      total (Event.credit w) s.conn.log + sumOf (Frame.increment w) (s.reads a) := by
  have hnonneg : 0 ≤ sumOf (Frame.increment w) (s.reads a) := sumOf_nonneg fun _ => Frame.increment_nonneg
  have hs := step_cases s a
  revert hs
  generalize s.step a = s'
  intro hs
  have same (hlog : total (Event.credit w) s'.conn.log = total (Event.credit w) s.conn.log) :
      total (Event.credit w) s'.conn.log ≤
        total (Event.credit w) s.conn.log + sumOf (Frame.increment w) (s.reads a) := by omega
  cases hs with
  | @received frame later r s₁ _ hloop hh ha =>
    cases hh with
    | oversized => exact same (ha.credit w)
    | interrupted => exact same ((ha.credit w).trans (total_append.trans (add_zero _)))
    | passed hsize _ hd =>
      have hgrants := hd.grants (hw.logged (e := .received frame) (.inr (.inl trivial))) w
      have hlogged : total (Event.credit w) (s.logged (.received frame)).conn.log = total (Event.credit w) s.conn.log :=
        total_append.trans (add_zero _)
      rw [ha.credit w, reads, if_pos ⟨hloop, hsize⟩, sumOf_singleton, ← hlogged]
      exact hgrants
  | created => exact same (total_append.trans (add_zero _))
  | upgraded => exact same (total_append.trans (add_zero _))
  | closed => exact same rfl
  | @method _ i m self ha hself =>
    obtain ⟨es, hlog, hes⟩ := (Stream.method_spends ha ⟨s.conn, self⟩ (hw.streamId hself)).2.log
    refine same ((congrArg (total _) hlog).trans (total_append.trans ?_))
    rw [total_eq_zero fun e he => (hes e he).credit w, add_zero]
  | idle => exact same rfl

/-! The books of every run. -/

/-- The total of what is counted for certain events, frame by frame. -/
theorem total_filterMap {p : Event → Option Frame} {f : Frame → Int} {g : Event → Int} (hg : ∀ e, g e = (p e).elim 0 f)
    (log : List Event) : total g log = sumOf f (log.filterMap p) := by
  induction log with
  | nil => rfl
  | cons e log ih =>
    rw [total, List.map_cons, List.sum_cons, hg, List.filterMap_cons]
    cases p e with
    | none => exact (zero_add _).trans ih
    | some frame => exact congrArg (f frame + ·) ih

/-- What an end has read of a kind of credit, and what it has written. -/
def readSum (f : Frame → Int) (s : System) : Int := sumOf f (receivedFrames s.conn.log)

def writtenSum (f : Frame → Int) (s : System) : Int := sumOf f (framesOf s.conn.log)

/-- What is known of the credit in every run, well-behaved peer or not. -/
structure KeepsBooks (s : System) : Prop where
  wellFormed : s.WellFormed
  credited (w : Option Nat) : total (Event.credit w) s.conn.log ≤ s.readSum (Frame.increment w)
  returned : s.Loses 0
  streams : s.All StreamReturns

theorem KeepsBooks.step (h : s.KeepsBooks) (a : Action) : (s.step a).KeepsBooks where
  wellFormed := h.wellFormed.step a
  credited w := by
    have hcredit := step_credit h.wellFormed a w
    rw [readSum, step_received h.wellFormed, sumOf_append]
    have := h.credited w
    rw [readSum] at this
    omega
  returned := by
    obtain ⟨lost, hnonneg, hlacks⟩ := h.returned
    obtain ⟨lost', hle, hlacks'⟩ := hlacks.step h.wellFormed a
    exact ⟨lost', hnonneg.trans hle, hlacks'⟩
  streams := streamReturns_step h.wellFormed h.streams a

theorem KeepsBooks.run (isClient : Bool) (params : Params) (actions : List Action) :
    ((start isClient params).run actions).KeepsBooks := by
  have hstart : (start isClient params).KeepsBooks :=
    ⟨.start isClient params, fun _ => le_refl _, ⟨0, le_refl _, ∅, fun _ _ => rfl, rfl⟩, fun _ _ h => by cases h⟩
  exact actions.foldlRecOn System.step hstart fun _ h a _ => h.step a

section

variable (h : s.KeepsBooks)

include h

omit h in
theorem owed_nonneg (i : Nat) : 0 ≤ s.owed i := by
  rw [owed]
  cases s.streams i with
  | none => exact le_refl _
  | some self => exact Int.natCast_nonneg _

omit h in
theorem total_grants (w : Option Nat) : total (Event.grants w) s.conn.log = s.writtenSum (Frame.increment w) :=
  total_filterMap (fun e => by cases e <;> rfl) _

omit h in
theorem total_loaded (w : Option Nat) : total (Event.loaded w) s.conn.log = s.readSum (Frame.load w) :=
  total_filterMap (fun e => by cases e <;> rfl) _

/-- On the connection, what is given back or owed was read before. -/
theorem KeepsBooks.conn (I : Finset Nat) :
    s.writtenSum (Frame.increment none) + ∑ i ∈ I, s.owed i ≤ s.readSum (Frame.load none) := by
  obtain ⟨lost, hnonneg, J, hout, hsum⟩ := h.returned
  have hle : ∑ i ∈ I, s.owed i ≤ ∑ i ∈ J, s.owed i := by
    rw [Finset.sum_subset Finset.subset_union_right fun i _ hi => hout i hi]
    exact Finset.sum_le_sum_of_subset_of_nonneg Finset.subset_union_left fun i _ _ => owed_nonneg i
  have hspent : total Event.spent s.conn.log = s.readSum (Frame.load none) := by
    rw [← total_loaded]
    exact congrArg (total · _) (funext fun _ => Event.spent_eq)
  have hreturned : total Event.returned s.conn.log = s.writtenSum (Frame.increment none) := by
    rw [← total_grants]
    exact congrArg (total · _) (funext fun _ => Event.returned_eq)
  omega

/-- The same of each stream. -/
theorem KeepsBooks.stream {i : Nat} (hi : i ≠ 0) :
    s.writtenSum (Frame.increment (some i)) + s.owed i ≤ s.readSum (Frame.load (some i)) := by
  rw [← total_grants, ← total_loaded]
  cases hself : s.streams i with
  | none =>
    have hnone : total (Event.grants (some i)) s.conn.log = 0 := by
      rw [← total_grants_logOf]
      exact total_eq_zero fun e he => (h.wellFormed.absent hi hself e (mem_logOf.mp he).1 (mem_logOf.mp he).2).grants
    rw [hnone, owed_of_none hself, add_zero]
    exact total_nonneg fun _ _ => Event.loaded_nonneg
  | some self =>
    have hbooks := h.streams hself
    rw [StreamReturns, h.wellFormed.streamId hself, total_grants_logOf, total_loaded_logOf] at hbooks
    rw [owed, hself]
    exact hbooks

end

end System

end TornadoHttp2
