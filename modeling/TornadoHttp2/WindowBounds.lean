import TornadoHttp2.CreditSafety
import TornadoHttp2.SharedInvariants

/-! The limit of the windows. `adjust` adds the increment before it compares, so
a WINDOW_UPDATE that is refused for going past the limit has gone past it; on
the connection that ends the loop, on a stream it does not. -/

namespace TornadoHttp2

open Prog

/-- An accepted increment. -/
def Event.isCredit : Event → Prop
  | credited _ _ => True
  | _ => False

/-- The events of a step on stream `i` that accepts no WINDOW_UPDATE. -/
def Event.spends (i : Nat) (e : Event) : Prop := e.concerns i ∧ ¬ e.isCredit

namespace Event

variable {i : Nat} {e : Event}

theorem spends.credit (h : e.spends i) (w : Option Nat) : e.credit w = 0 := by
  cases e with
  | credited => exact absurd trivial h.2
  | _ => rfl

theorem spends.initialSize (h : e.spends i) : e.initialSize = 0 := by
  cases e with
  | opened => exact absurd trivial h.1.2
  | _ => rfl

/-- Only the stream of the step takes credit. -/
theorem spends.debit (h : e.spends i) (hfair : e.streamId = i → e.fair) (w : Option Nat) : 0 ≤ e.debit w := by
  cases e with
  | consumed window j asked taken =>
    have hid : (consumed window j asked taken).streamId = i := h.1.1.resolve_left fun hconn => hconn.2.elim
    obtain ⟨htaken, -⟩ : 1 ≤ taken ∧ taken ≤ asked := hfair hid
    rw [debit]
    split <;> omega
  | _ => exact le_refl _

theorem ofSending.spends (h : e.ofSending i) : e.spends i := by
  refine ⟨h.concerns, ?_⟩
  cases e with
  | credited => exact h.elim
  | _ => exact id

theorem ofReceiving.spends (h : e.ofReceiving i) : e.spends i := by
  refine ⟨h.concerns, ?_⟩
  cases e with
  | credited => exact h.elim
  | _ => exact id

end Event

/-- A step on stream `i` that accepts no WINDOW_UPDATE. -/
structure Spends (i : Nat) (c c' : Ctx) : Prop where
  self : c'.self.streamId = c.self.streamId
  log : Grows (·.spends i) c.conn.log c'.conn.log

instance (i : Nat) : Std.Refl (Spends i) := ⟨fun _ => ⟨rfl, .refl⟩⟩

instance (i : Nat) : IsTrans Ctx (Spends i) := ⟨fun _ _ _ h h' => ⟨h'.self.trans h.self, h.log.trans h'.log⟩⟩

theorem SendsOnly.spends {i : Nat} {c c' : Ctx} (h : SendsOnly i c c') : Spends i c c' :=
  ⟨h.acts.self, h.log.mono fun _ he => he.spends⟩

theorem ReceivesOnly.spends {i : Nat} {c c' : Ctx} (h : ReceivesOnly i c c') : Spends i c c' :=
  ⟨h.acts.self, h.log.mono fun _ he => he.spends⟩

namespace Stream

theorem method_spends {a : System.Action} {i : Nat} {m : OnStream Unit} (ha : a.method = some (i, m)) :
    Keeps (fun c : Ctx => c.self.streamId = i) (Spends i) m := by
  rcases method_sends ha with h | ⟨k, rfl⟩
  · exact (h i).mono fun _ _ => SendsOnly.spends
  · exact resolveData_receives.mono fun _ _ => ReceivesOnly.spends

theorem handleFrame_spends {i : Nat} {frame : Frame} {later : Bool} (htype : frame.type ≠ .windowUpdate) :
    Keeps (fun c : Ctx => c.self.streamId = i) (Spends i) (handleFrame frame later) :=
  handleFrame_keeps (fun _ h => h) (fun _ _ hc h => ⟨h.acts.self.trans hc, h.spends⟩)
    (writeHeaders_sends.mono fun _ _ => SendsOnly.spends) (finish_sends.mono fun _ _ => SendsOnly.spends)
    fun h => absurd h htype

end Stream

/-- Both windows of a stream that is in balance can only shrink. -/
theorem Balanced.shrinks {c c' : Ctx} (h : Balanced ConnBalanced c) (h' : Balanced ConnBalanced c')
    (hs : Spends c.self.streamId c c') :
    c'.self.window.size ≤ c.self.window.size ∧ c'.conn.window.size ≤ c.conn.window.size := by
  obtain ⟨es, hlog, hes⟩ := hs.log
  have hfair : ∀ e ∈ logOf c.self.streamId c'.conn.log, e.fair := hs.self ▸ h'.1.1.fair
  have hdebit (w : Option Nat) {fs : List Event} (hfs : ∀ e ∈ fs, e ∈ es) : 0 ≤ total (Event.debit w) fs := by
    refine List.sum_nonneg fun x hx => ?_
    obtain ⟨e, he, rfl⟩ := List.mem_map.mp hx
    refine (hes e (hfs e he)).debit (fun hid => hfair e ?_) w
    rw [hlog]
    exact mem_logOf.mpr ⟨List.mem_append_right _ (hfs e he), hid⟩
  have hcredit (w : Option Nat) {fs : List Event} (hfs : ∀ e ∈ fs, e ∈ es) : total (Event.credit w) fs = 0 :=
    total_eq_zero fun e he => (hes e (hfs e he)).credit w
  have hown : ∀ e ∈ logOf c.self.streamId es, e ∈ es := fun e he => (mem_logOf.mp he).1
  constructor
  · have hinitial : total Event.initialSize (logOf c.self.streamId es) = 0 :=
      total_eq_zero fun e he => (hes e (hown e he)).initialSize
    have hbefore := h.1.1.size
    have hafter := h'.1.1.size
    rw [hs.self, hlog, logOf_append, total_append, total_append, total_append, hinitial, hcredit _ hown] at hafter
    have := hdebit (some c.self.streamId) hown
    omega
  · have hbefore := h.2.1
    have hafter := h'.2.1
    rw [hlog, total_append, total_append, hcredit _ fun _ he => he] at hafter
    have := hdebit none fun _ (he : _ ∈ es) => he
    omega

namespace Window

/-- What a window raises: the connection has no stream to blame. -/
def failure (w : Window) (code : ErrorCode) (message : String) : PyException :=
  match w.streamId with
  | none => .connectionError code (some message)
  | some streamId => .streamError streamId code

theorem raiseError_run {α : Type} {w : Window} {code : ErrorCode} {message : String} :
    (raiseError code message : Prog Window PyException α).run w = (.error (w.failure code message), w) := by
  rw [raiseError, run_get_bind, failure]
  cases w.streamId <;> rfl

/-- The amount is added before it is refused. -/
theorem adjust_run {w : Window} {amount : Int} :
    (adjust amount).run w = if maxWindowSize < w.size + amount then
      (.error (w.failure .flowControlError "flow control window too large"), { w with size := w.size + amount })
    else (.ok (), { w with size := w.size + amount, notified := w.notified + 1 }) := by
  rw [adjust, run_modify_bind, run_get_bind, when]
  split
  · exact bind_error raiseError_run _
  · rfl

theorem applyWindowUpdate_run {w : Window} {frame : Frame} {n : Nat} (hword : unpackWord frame.data = .ok n) :
    (applyWindowUpdate frame).run w =
      if n &&& 0x7fffffff = 0 then (.error (w.failure .protocolError "window update must not be zero"), w)
      else ((adjust (n &&& 0x7fffffff : Nat) >>= fun _ => pure (n &&& 0x7fffffff)).run w) := by
  rw [applyWindowUpdate, hword]
  dsimp only
  rw [when]
  split
  · exact bind_error raiseError_run _
  · rfl

theorem applyWindowUpdate_overflow {w : Window} {frame : Frame} (hw : w.size ≤ maxWindowSize)
    (h : ¬ w.accepts frame) : ∃ amount : Nat, 0 < amount ∧ (applyWindowUpdate frame).run w =
      (.error (w.failure .flowControlError "flow control window too large"), { w with size := w.size + amount }) := by
  rw [accepts] at h
  push Not at h
  obtain ⟨n, hword, hover⟩ := h
  have hok : unpackWord frame.data = .ok n := by
    cases hunpack : unpackWord frame.data <;> rw [hunpack] at hword <;> cases hword
    rfl
  have hn : n &&& 0x7fffffff ≠ 0 := by
    intro hzero
    rw [hzero] at hover
    exact absurd hw (not_le.mpr (by simpa using hover))
  refine ⟨n &&& 0x7fffffff, Nat.pos_of_ne_zero hn, ?_⟩
  have hadjust := adjust_run.trans (if_pos hover)
  rw [applyWindowUpdate_run hok, if_neg hn, bind_error hadjust]

theorem applyWindowUpdate_limit {w : Window} {frame : Frame} (h : w.accepts frame) (hw : w.size ≤ maxWindowSize) :
    ((applyWindowUpdate frame).run w).2.size ≤ maxWindowSize := by
  rcases hword : unpackWord frame.data with e | n
  · rw [applyWindowUpdate, hword]
    exact hw
  · have hlimit : w.size + (n &&& 0x7fffffff : Nat) ≤ maxWindowSize := h n (by rw [hword]; rfl)
    have hadjust := adjust_run.trans (if_neg (not_lt.mpr hlimit))
    rw [applyWindowUpdate_run hword, bind_ok hadjust]
    split
    · exact hw
    · exact hlimit

theorem applyWindowUpdate_unchanged {w : Window} {frame : Frame} {e : PyException} (h : w.accepts frame)
    (hraised : ((applyWindowUpdate frame).run w).1 = .error e) : ((applyWindowUpdate frame).run w).2 = w := by
  have hspec := (applyWindowUpdate_wp : wp (applyWindowUpdate frame) _ _ w)
  rw [wp, hraised] at hspec
  exact hspec h

/-- The connection raises no StreamError. -/
theorem applyWindowUpdate_conn {w : Window} {frame : Frame} (hw : w.streamId = none) {i : Nat} {code : ErrorCode} :
    ((applyWindowUpdate frame).run w).1 ≠ .error (.streamError i code) := by
  have hfailure (code : ErrorCode) (message : String) :
      w.failure code message = .connectionError code (some message) := by rw [failure, hw]
  rcases hword : unpackWord frame.data with e | n
  · rw [applyWindowUpdate, hword]
    intro hraised
    cases hraised
  · rw [applyWindowUpdate_run hword, hfailure]
    split
    · intro hraised
      cases hraised
    · refine (not_congr (bind_raises fun _ _ _ h => by cases h)).mpr ?_
      rw [adjust_run, hfailure]
      split <;> intro hraised <;> cases hraised

end Window

/-! Windows keep their owner. -/

def Window.SameOwner (w w' : Window) : Prop := w'.streamId = w.streamId

instance : Std.Refl Window.SameOwner := ⟨fun _ => rfl⟩

instance : IsTrans Window Window.SameOwner := ⟨fun _ _ _ h h' => h'.trans h⟩

theorem Window.Updated.sameOwner {w w' : Window} (h : w.Updated w') : w.SameOwner w' := by
  cases h <;> rfl

theorem Ctx.Resets.windows {c c' : Ctx} (h : c.Resets c') :
    c'.conn.window = c.conn.window ∧ c'.self.window = c.self.window := by
  rcases h with rfl | rfl <;> exact ⟨rfl, rfl⟩

theorem Slice.sameOwner {c c' : Ctx} (h : Slice c c') :
    c.conn.window.SameOwner c'.conn.window ∧ c.self.window.SameOwner c'.self.window := by
  cases h with
  | failed _ hr => exact hr.windows.imp (congrArg Window.streamId) (congrArg Window.streamId)
  | aborts _ hr => exact hr.windows.imp (congrArg Window.streamId) (congrArg Window.streamId)
  | @finished callback => cases callback <;> exact ⟨rfl, rfl⟩
  | _ => exact ⟨rfl, rfl⟩

namespace Stream

/-- The window of a stream. -/
def OwnsWindow (_ own : Window) (_ : WriteLock) : Prop := own.streamId ≠ none

theorem resume_owns {flushed : Bool} : Guards.Kept OwnsWindow Window.SameOwner (resume flushed) := by
  intro c hc
  obtain ⟨hconn, hself⟩ : c.conn.window.SameOwner ((resume flushed).run c).2.conn.window ∧
      c.self.window.SameOwner ((resume flushed).run c).2.self.window :=
    wp_state.mp (wp_mono (E := fun _ c' => c.conn.window.SameOwner c'.conn.window ∧
      c.self.window.SameOwner c'.self.window)
      resume_wp (fun _ _ h => h.sameOwner) fun _ _ h => h)
  exact ⟨fun hnone => hc (hself.symm.trans hnone), hconn⟩

theorem acquire_owns (job : Job) : Guards.Kept OwnsWindow Window.SameOwner (acquire job) :=
  .get_bind fun _ _ => .ite (fun _ => .bind (fun c hc => ⟨hc, refl c.conn.window⟩) fun _ => resume_owns) fun _ =>
    fun c hc => ⟨hc, refl c.conn.window⟩

end Stream

theorem owner_guards : Guards (fun w => w.streamId = none) Stream.OwnsWindow Window.SameOwner where
  base h hnone := h.trans hnone
  change _ h := h
  new _ _ _ := Option.some_ne_none _
  update frame _ own _ h := fun hnone =>
    h ((Window.applyWindowUpdate_updated frame own).sameOwner.symm.trans hnone)
  updateConn frame w := (Window.applyWindowUpdate_updated frame w).sameOwner
  acquire := Stream.acquire_owns

/-! The windows of an open connection. -/

def StreamLimited (self : Stream) (log : List Event) : Prop :=
  StreamBalanced self log ∧ self.window.size ≤ maxWindowSize

def ConnLimited (c : Conn) : Prop :=
  ConnBalanced c ∧ c.window.size ≤ maxWindowSize ∧ (c.setting .initialWindowSize : Int) ≤ maxWindowSize

theorem Own.balanced {c : Ctx} (h : Own StreamLimited ConnLimited c) : Balanced ConnBalanced c := ⟨h.1.1, h.2.1⟩

theorem stable_limited : Stable StreamLimited ConnLimited where
  quiet hquiet h := by
    refine ⟨stable_balanced.quiet hquiet h.1, ?_⟩
    obtain ⟨es, nextStreamId, closed, rfl, -⟩ := hquiet
    exact h.2
  noise he h := ⟨(stable_balanced (Q := ConnBalanced)).noise he h.1, h.2⟩
  new requestStartLine h hlog := ⟨stable_balanced.new requestStartLine h.1 hlog, h.2.2⟩

theorem refusedSetting_initialWindowSize {value : Nat}
    (h : Conn.refusedSetting Setting.initialWindowSize.code value = none) : (value : Int) ≤ maxWindowSize := by
  have hrefused : Conn.refusedSetting Setting.initialWindowSize.code value = if (value : Int) > maxWindowSize then
      some (.connectionError .flowControlError (some "INITIAL_WINDOW_SIZE too large")) else none := rfl
  rw [hrefused] at h
  split at h
  · cases h
  · exact not_lt.mp ‹_›

theorem connHandleFrame_limited {c : Conn} (h : ConnLimited c) {frame : Frame}
    (haccepts : frame.type = .windowUpdate → c.window.accepts frame) :
    ConnLimited ((Conn.handleFrame frame).run c).2 := by
  refine ⟨connHandleFrame_balanced h.1 haccepts, ?_,
    (Conn.handleFrame_allowed (fun _ => refusedSetting_initialWindowSize) frame c h.2.2).1⟩
  by_cases htype : frame.type = .windowUpdate
  · have hlimit := Window.applyWindowUpdate_limit (haccepts htype) h.2.1
    rw [Conn.handleFrame, htype]
    dsimp only
    rw [Conn.handleWindowUpdateFrame, run_bind, run_zoom]
    rcases hrun : (Window.applyWindowUpdate frame).run c.window with ⟨_ | _, _⟩ <;> rw [hrun] at hlimit <;> exact hlimit
  · have hkeeps : Keeps (fun c => c.window.size ≤ maxWindowSize) Anything (Conn.handleFrame frame) :=
      Conn.handleFrame_keeps (fun _ _ _ _ _ hc => ⟨hc, trivial⟩) (fun _ _ _ hc _ => ⟨hc, trivial⟩)
        (fun _ hc => ⟨hc, trivial⟩) fun hupdate => absurd hupdate htype
    exact (hkeeps c h.2.1).1

/-- A method that accepts no WINDOW_UPDATE keeps the limits. -/
theorem Own.limited {c c' : Ctx} (h : Own StreamLimited ConnLimited c) (hbalanced : Balanced ConnBalanced c')
    (hspends : Spends c.self.streamId c c') (hsettings : c'.conn.settings = c.conn.settings) :
    Own StreamLimited ConnLimited c' := by
  obtain ⟨hself, hconn⟩ := h.balanced.shrinks hbalanced hspends
  refine ⟨⟨hbalanced.1, hself.trans h.1.2⟩, hbalanced.2, hconn.trans h.2.2.1, ?_⟩
  rw [Conn.setting_congr hsettings]
  exact h.2.2.2

/-- What a WINDOW_UPDATE does to its stream. -/
theorem handleFrame_update {c : Ctx} {frame : Frame} {later : Bool} (htype : frame.type = .windowUpdate) :
    (∀ e, ((Stream.handleFrame frame later).run c).1 = .error e ↔
      ((Window.applyWindowUpdate frame).run c.self.window).1 = .error e) ∧
      ((Stream.handleFrame frame later).run c).2.self =
        { c.self with window := ((Window.applyWindowUpdate frame).run c.self.window).2 } ∧
      ((Stream.handleFrame frame later).run c).2.conn.window = c.conn.window ∧
      ((Stream.handleFrame frame later).run c).2.conn.settings = c.conn.settings := by
  rw [Stream.handleFrame_windowUpdate htype, Stream.handleWindowUpdateFrame, run_get_bind]
  refine ⟨fun _ => bind_raises (fun _ _ _ h => by cases h), ?_⟩
  rw [run_bind, run_zoom]
  rcases (Window.applyWindowUpdate frame).run c.self.window with ⟨_ | _, _⟩ <;> exact ⟨rfl, rfl, rfl⟩

theorem handleFrame_limited {c : Ctx} (h : Own StreamLimited ConnLimited c) {frame : Frame} {later : Bool}
    (haccepts : frame.type = .windowUpdate → c.self.window.accepts frame) :
    Own StreamLimited ConnLimited ((Stream.handleFrame frame later).run c).2 := by
  have hbalanced : Balanced ConnBalanced ((Stream.handleFrame frame later).run c).2 :=
    handleFrame_balanced h.balanced haccepts
  by_cases htype : frame.type = .windowUpdate
  · obtain ⟨-, hself, hwindow, hsettings⟩ := @handleFrame_update c frame later htype
    refine ⟨⟨hbalanced.1, ?_⟩, hbalanced.2, ?_, ?_⟩
    · rw [hself]
      exact Window.applyWindowUpdate_limit (haccepts htype) h.1.2
    · rw [hwindow]
      exact h.2.2.1
    · rw [Conn.setting_congr hsettings]
      exact h.2.2.2
  · have hacts := (Stream.handleFrame_acts frame later c rfl).2
    exact h.limited hbalanced (Stream.handleFrame_spends htype c rfl).2 (congrArg (fun t => t.2.2.1) hacts.conn)

theorem method_limited {c : Ctx} (h : Own StreamLimited ConnLimited c) {a : System.Action} {m : OnStream Unit}
    (ha : a.method = some (c.self.streamId, m)) : Own StreamLimited ConnLimited (m.run c).2 :=
  h.limited (method_balanced h.balanced ha) (Stream.method_spends ha c rfl).2
    (congrArg (fun t => t.2.2.1) (Stream.method_acts ha c rfl).2.conn)

namespace System

variable {s s' : System} {a : Action} {frame : Frame} {later : Bool}

structure WithinLimits (s : System) : Prop where
  conn : s.conn.window.size ≤ maxWindowSize
  streams : ∀ i self, s.streams i = some self → self.window.size ≤ maxWindowSize

structure SizesKept (s s' : System) : Prop where
  conn : s'.conn.window.size = s.conn.window.size
  streams : ∀ i, (s'.streams i).map (·.window.size) = (s.streams i).map (·.window.size)

/-- Every window is within its limit as long as the loop runs, and no window
changes when a WINDOW_UPDATE raises StreamError. -/
structure RespectsLimits (s : System) (a : Action) : Prop where
  within : (s.step a).loop = .running → (s.step a).WithinLimits
  rejected : ∀ frame later i code, a = .receive frame later → s.loop = .running → frame.type = .windowUpdate →
    s.outcome frame later = .error (.streamError i code) → s.SizesKept (s.step a)

theorem Answered.sizesKept {r : Except PyException Unit} (h : Answered s r s') : s.SizesKept s' := by
  cases h <;> exact ⟨rfl, fun _ => rfl⟩

theorem SizesKept.trans {s'' : System} (h : s.SizesKept s') (h' : s'.SizesKept s'') : s.SizesKept s'' :=
  ⟨h'.conn.trans h.conn, fun i => (h'.streams i).trans (h.streams i)⟩

theorem Answered.not_running {e : PyException} (h : Answered s (.error e) s') (he : ∀ i code, e ≠ .streamError i code) :
    s'.loop ≠ .running := by
  cases h with
  | reset => exact absurd rfl (he _ _)
  | goaway => exact nofun
  | ended => exact nofun

theorem running_of_step (h : (s.step a).loop = .running) : s.loop = .running := by
  have hs := step_cases s a
  revert hs h
  generalize s.step a = s'
  intro h hs
  cases hs with
  | received hloop => exact hloop
  | closed hloop => exact hloop h
  | _ => exact h

/-- Where a WINDOW_UPDATE goes: to the window of a stream, to that of the
connection, or nowhere. -/
theorem Handled.update {r : Except PyException Unit} (hloop : s.loop = .running) (htype : frame.type = .windowUpdate)
    (hh : Handled s frame later r s') :
    (∃ self, frame.streamId ≠ 0 ∧ s.streams frame.streamId = some self ∧ s.Reads frame ∧
      (∀ e, r = .error e ↔ ((Window.applyWindowUpdate frame).run self.window).1 = .error e) ∧
      s'.conn.window = s.conn.window ∧
      s'.streams = Function.update s.streams frame.streamId
        (some { self with window := ((Window.applyWindowUpdate frame).run self.window).2 })) ∨
    frame.streamId = 0 ∧ s.Reads frame ∧
      (∀ e, r = .error e ↔ ((Window.applyWindowUpdate frame).run s.conn.window).1 = .error e) ∨
    s.SizesKept s' ∧ (s.Reads frame → frame.streamId ≠ 0 ∧ s.streams frame.streamId = none) := by
  have kept : s.SizesKept (s.logged (.received frame)) := ⟨rfl, fun _ => rfl⟩
  cases hh with
  | oversized hsize => exact .inr (.inr ⟨⟨rfl, fun _ => rfl⟩, fun hreads => absurd hreads.2.1 (not_le.mpr hsize)⟩)
  | interrupted _ hblock =>
      exact .inr (.inr ⟨kept, fun hreads => absurd (hreads.2.2.symm.trans hblock) Bool.false_ne_true⟩)
  | passed hsize hblock hd =>
    have hreads : s.Reads frame := ⟨hloop, hsize, hblock⟩
    cases hd with
    | conn hid =>
      refine .inr (.inl ⟨hid, hreads, ?_⟩)
      rw [Conn.handleFrame, htype]
      dsimp only
      exact fun _ => bind_raises fun _ _ _ h => by cases h
    | @stream self hid hself =>
      obtain ⟨hrun, hwindow, hconn, -⟩ :=
        @handleFrame_update ⟨(s.logged (.received frame)).conn, self⟩ frame later htype
      refine .inl ⟨self, hid, hself, hreads, hrun, hconn, ?_⟩
      exact congrArg (fun self => Function.update s.streams frame.streamId (some self)) hwindow
    | accepted _ _ _ hheaders => cases htype.symm.trans hheaders
    | invalid hid hself => exact .inr (.inr ⟨kept, fun _ => ⟨hid, hself⟩⟩)
    | ignored hid hself => exact .inr (.inr ⟨kept, fun _ => ⟨hid, hself⟩⟩)
    | past hid hself => exact .inr (.inr ⟨kept, fun _ => ⟨hid, hself⟩⟩)
    | future hid hself => exact .inr (.inr ⟨kept, fun _ => ⟨hid, hself⟩⟩)

/-- The windows of streams and of the connection know which they are, and stay
within their limits and in balance as long as the loop runs. -/
structure Limited (s : System) : Prop where
  wellFormed : s.WellFormed
  owners : s.Each (fun conn => conn.window.streamId = none) fun conn self =>
    Stream.OwnsWindow conn.window self.window self.writeLock
  limits : s.loop = .running → s.All StreamLimited ∧ ConnLimited s.conn

theorem Limited.start (isClient : Bool) (params : Params) : (start isClient params).Limited where
  wellFormed := .start isClient params
  owners := ⟨rfl, by simp [System.start]⟩
  limits _ := by
    have hdefault : (65535 : Int) ≤ maxWindowSize := by decide
    exact ⟨by simp [All, System.start], ⟨rfl, Int.natCast_nonneg 65535⟩, hdefault, hdefault⟩

/-- A WINDOW_UPDATE that takes the connection past its limit ends the loop. -/
theorem Limited.overflow (h : s.Limited) (hconn : ¬ AcceptsConnUpdates s a) : (s.step a).loop ≠ .running := by
  cases a with
  | receive frame later =>
    rw [AcceptsConnUpdates] at hconn
    push Not at hconn
    obtain ⟨hreads, htype, hid, haccepts⟩ := hconn
    obtain ⟨s₁, hh, ha⟩ := step_outcome hreads.1 frame later
    obtain ⟨amount, -, hrun⟩ := Window.applyWindowUpdate_overflow (h.limits hreads.1).2.2.1 haccepts
    rcases hh.update hreads.1 htype with ⟨_, hne, -⟩ | ⟨-, -, houtcome⟩ | ⟨-, habsent⟩
    · exact absurd hid hne
    · rw [hrun, Window.failure, h.owners.conn] at houtcome
      rw [(houtcome _).mpr rfl] at ha
      exact ha.not_running nofun
    · exact absurd hid (habsent hreads).1
  | _ => exact absurd trivial hconn

theorem Limited.step (h : s.Limited) (ha : AcceptsStreamUpdates s a) : (s.step a).Limited where
  wellFormed := h.wellFormed.step a
  owners := owner_guards.step h.owners fun _ _ self _ _ hself => Stream.resume_owns ⟨s.conn, self⟩ hself
  limits hrunning := by
    obtain ⟨hstreams, hconn⟩ := h.limits (running_of_step hrunning)
    have hupdates : AcceptsConnUpdates s a := by
      by_contra hover
      exact h.overflow hover hrunning
    refine hstreams.step stable_limited h.wellFormed hconn ?_ ?_ ?_
    · rintro frame later c rfl hreads hid ⟨_, _, _, rfl, -⟩ hc
      exact connHandleFrame_limited hc fun htype => hupdates hreads htype hid
    · rintro frame later c rfl hreads _ hmeets _ hc
      refine handleFrame_limited hc fun htype => ?_
      cases hmeets with
      | known hself => exact ha hreads htype _ hself
      | opened _ hheaders => cases htype.symm.trans hheaders
    · rintro i m self ha _ rfl hc
      exact method_limited hc ha

theorem Limited.within (h : s.Limited) (hloop : s.loop = .running) : s.WithinLimits :=
  ⟨(h.limits hloop).2.2.1, fun _ _ hself => ((h.limits hloop).1 hself).2⟩

theorem Limited.rejected (h : s.Limited) {frame : Frame} {later : Bool} {i : Nat} {code : ErrorCode}
    (ha : AcceptsStreamUpdates s (.receive frame later))
    (hloop : s.loop = .running) (htype : frame.type = .windowUpdate)
    (hraised : s.outcome frame later = .error (.streamError i code)) :
    s.SizesKept (s.step (.receive frame later)) := by
  obtain ⟨s₁, hh, hanswered⟩ := step_outcome hloop frame later
  refine SizesKept.trans ?_ hanswered.sizesKept
  rcases hh.update hloop htype with ⟨self, -, hself, hreads, houtcome, hconn, hstreams⟩ | ⟨-, -, houtcome⟩ | ⟨hkept, -⟩
  · have hwindow := Window.applyWindowUpdate_unchanged (ha hreads htype self hself) ((houtcome _).mp hraised)
    refine ⟨congrArg Window.size hconn, fun j => ?_⟩
    rw [hstreams, hwindow]
    by_cases hj : j = frame.streamId
    · subst hj
      rw [Function.update_self, hself]
    · rw [Function.update_of_ne hj]
  · exact absurd ((houtcome _).mp hraised) (Window.applyWindowUpdate_conn h.owners.conn)
  · exact hkept

/-- An update that takes the window of a stream past its limit raises StreamError
after it has changed the window. -/
theorem Limited.changes (h : s.Limited) {frame : Frame} {later : Bool} {self : Stream} (hreads : s.Reads frame)
    (htype : frame.type = .windowUpdate) (hself : s.streams frame.streamId = some self)
    (hover : ¬ self.window.accepts frame) : ¬ s.RespectsLimits (.receive frame later) := by
  intro hrespects
  have hlimit : self.window.size ≤ maxWindowSize := (h.within hreads.1).streams _ _ hself
  obtain ⟨amount, hamount, hrun⟩ := Window.applyWindowUpdate_overflow hlimit hover
  obtain ⟨i, hi⟩ := Option.ne_none_iff_exists'.mp (h.owners.stream hself)
  obtain ⟨s₁, hh, hanswered⟩ := step_outcome hreads.1 frame later
  rcases hh.update hreads.1 htype with ⟨other, -, hother, -, houtcome, -, hstreams⟩ | ⟨hid, -⟩ | ⟨-, habsent⟩
  · obtain rfl : self = other := Option.some.inj (hself.symm.trans hother)
    have hfails : self.window.failure .flowControlError "flow control window too large" =
        .streamError i .flowControlError := by rw [Window.failure, hi]
    rw [hrun, hfails] at houtcome
    have hraised := (houtcome _).mpr rfl
    have hkept := (hrespects.rejected frame later i _ rfl hreads.1 htype hraised).streams frame.streamId
    rw [hanswered.streams, hstreams, hrun, Function.update_self, hself] at hkept
    have hsame : self.window.size + amount = self.window.size := Option.some.inj hkept
    omega
  · rw [hid, h.wellFormed.zero] at hself
    cases hself
  · exact absurd (hself.symm.trans (habsent hreads).2) (Option.some_ne_none _)

/-- The windows keep their limits exactly if no WINDOW_UPDATE takes the window of
a stream past them. -/
theorem windows_within_limits (isClient : Bool) (params : Params) (actions : List Action) :
    Runs.Along step RespectsLimits (start isClient params) actions ↔
      Runs.Along step AcceptsStreamUpdates (start isClient params) actions := by
  refine Runs.along_congr (fun s a h ha => h.step ha) (fun s a h => ⟨fun hrespects => ?_, fun ha => ?_⟩)
    (Limited.start isClient params)
  · cases a with
    | receive frame later =>
      intro hreads htype self hself
      by_contra hover
      exact h.changes hreads htype hself hover hrespects
    | _ => trivial
  · refine ⟨(h.step ha).within, ?_⟩
    rintro frame later i code rfl hloop htype hraised
    exact h.rejected ha hloop htype hraised

/-- The largest increment there is, on the window of a new stream. -/
def largestUpdate : Frame := ⟨.windowUpdate, 0, 1, [0x7f, 0xff, 0xff, 0xff]⟩

/-- It is refused and nevertheless added, and the loop goes on. -/
theorem not_windows_within_limits :
    let s := (start false (.new none .caseless)).run [.receive (requestFrame 1 0x4) false]
    let s' := s.step (.receive largestUpdate false)
    s.outcome largestUpdate false = .error (.streamError 1 .flowControlError) ∧ s'.loop = .running ∧
      (s.streams 1).map (·.window.size) = some 65535 ∧
      (s'.streams 1).map (·.window.size) = some (65535 + maxWindowSize) ∧
      ¬ Runs.Along step RespectsLimits (start false (.new none .caseless))
        [.receive (requestFrame 1 0x4) false, .receive largestUpdate false] := by
  intro s s'
  have houtcome : s.outcome largestUpdate false = .error (.streamError 1 .flowControlError) := by decide +kernel
  have hloop : s'.loop = .running := by decide +kernel
  have hbefore : (s.streams 1).map (·.window.size) = some 65535 := by decide +kernel
  have hafter : (s'.streams 1).map (·.window.size) = some (65535 + maxWindowSize) := by decide +kernel
  refine ⟨houtcome, hloop, hbefore, hafter, fun h => ?_⟩
  have hkept : s.SizesKept s' := h.2.1.rejected largestUpdate false 1 _ rfl rfl rfl houtcome
  have hsame := hkept.streams 1
  rw [hbefore, hafter] at hsame
  exact absurd hsame (by decide)

end System

end TornadoHttp2
