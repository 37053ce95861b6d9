import TornadoHttp2.ContentLength

/-! How `_conn_loop` ends, and what the delegates and the suspended writers get
to know of it: nothing. -/

namespace TornadoHttp2

open Prog Ctx

/-- `headers_received`. -/
def DelegateCall.begins : DelegateCall → Bool
  | headersReceived _ _ => true
  | _ => false

/-- A delegate that has been told of a message is in the midst of it, or has
been told of its end. -/
structure Announced (s : Stream) (calls : List DelegateCall) : Prop where
  absent : s.hasDelegate = false → calls = []
  told : calls.any DelegateCall.begins = true → s.delegateStarted = true ∨ .finish ∈ calls

/-- The attributes of a stream that `Announced` depends on. -/
def Stream.announcing (s : Stream) := (s.streamId, s.hasDelegate, s.delegateStarted)

/-- A step of a stream without calls of its delegate. -/
structure Unannounced (c c' : Ctx) : Prop where
  self : c'.self.announcing = c.self.announcing
  log : c.Uncalled c'

instance : Std.Refl Unannounced := ⟨fun _ => ⟨rfl, .refl⟩⟩

instance : IsTrans Ctx Unannounced := ⟨fun _ _ _ h h' => ⟨h'.self.trans h.self, h.log.trans h'.log⟩⟩

theorem Uncalling.unannounced {c c' : Ctx} (h : Uncalling c c') : Unannounced c c' :=
  ⟨congrArg (fun t => (t.1, t.2.1, t.2.2.1)) h.self, h.log⟩

def Ctx.Announced (c : Ctx) : Prop :=
  TornadoHttp2.Announced c.self (delegateCalls (logOf c.self.streamId c.conn.log))

theorem Ctx.Announced.quiet {c c' : Ctx} (h : c.Announced) (hc : Unannounced c c') : c'.Announced := by
  obtain ⟨hid, hdelegate, hstarted⟩ := by simpa only [Stream.announcing, Prod.mk.injEq] using hc.self
  rw [Ctx.Announced, hid, hc.log.delegateCalls]
  exact ⟨fun hd => h.absent (hdelegate.symm.trans hd), fun hbegun => hstarted ▸ h.told hbegun⟩

namespace Stream

variable {c : Ctx} {frame : Frame}

/-- A program without calls of the delegate. -/
abbrev Unannounces {α : Type} (m : OnStream α) : Prop := Keeps (fun _ => True) Unannounced m

theorem setSelf_unannounces {f : Stream → Stream} (h : ∀ s, (f s).announcing = s.announcing) :
    Unannounces (setSelf f) :=
  fun c _ => ⟨trivial, h c.self, .refl⟩

theorem readStartLine_unannounces {p : ParsedHeaders} : Unannounces (readStartLine p) :=
  .get_bind fun _ _ => .ite (fun _ => .bind (.ofExcept _) fun _ => .pure _) fun _ =>
    .bind .check fun _ => .bind (.ofExcept _) fun _ => .bind (.ofExcept _) fun _ =>
      .bind (setSelf_unannounces fun _ => rfl) fun _ => .pure _

theorem setIncomingContent_unannounces {startLine : StartLine (Option Bytes)} {headers : HTTPHeaders (Option Bytes)} :
    Unannounces (setIncomingContent startLine headers) :=
  .bind isBodilessResponse_keeps fun _ => .ite (fun _ => setSelf_unannounces fun _ => rfl) fun _ =>
    .ite (fun _ => .bind (.ofExcept _) fun _ => setSelf_unannounces fun _ => rfl) fun _ => .pure _

theorem countIncoming_unannounces {data : Bytes} : Unannounces (countIncoming data) :=
  .get_bind fun c _ => match c.self.incomingContentRemaining with
    | none => .pure _
    | some _ => .bind (setSelf_unannounces fun _ => rfl) fun _ => .check

/-- Such a program, as a step of the others. -/
theorem Unannounces.wp {α : Type} {m : OnStream α} (hm : Unannounces m) (h : c.Announced) :
    wp m (fun _ => Ctx.Announced) (fun _ => Ctx.Announced) c := wp_state.mpr (h.quiet (hm c trivial).2)

theorem callDelegate_announced {call : DelegateCall} (habsent : c.self.hasDelegate = false → c.Announced)
    (htold : c.self.hasDelegate = true → (delegateCalls (logOf c.self.streamId c.conn.log) ++ [call]).any
      DelegateCall.begins = true → c.self.delegateStarted = true ∨
        .finish ∈ delegateCalls (logOf c.self.streamId c.conn.log) ++ [call]) :
    wp (callDelegate call) (fun _ => Ctx.Announced) (fun _ => Ctx.Announced) c := by
  rw [callDelegate, wp_bind, wp_get, wp_bind, wp_check]
  refine ⟨habsent, fun hd => ?_⟩
  have hdelegate : c.self.hasDelegate = true := by simpa using hd
  have hself : logOf c.self.streamId [.called c.self.streamId call] = [.called c.self.streamId call] := logOf_self rfl
  have hlog : delegateCalls (logOf c.self.streamId (c.conn.log ++ [.called c.self.streamId call])) =
      delegateCalls (logOf c.self.streamId c.conn.log) ++ [call] := by
    rw [logOf_append, delegateCalls_append, hself]
    rfl
  refine ⟨fun hnone => absurd (hdelegate.symm.trans hnone) (by simp), ?_⟩
  change (delegateCalls (logOf c.self.streamId (c.conn.log ++ [.called c.self.streamId call]))).any _ = true →
    _ ∨ .finish ∈ delegateCalls (logOf c.self.streamId (c.conn.log ++ [.called c.self.streamId call]))
  rw [hlog]
  exact htold hdelegate

/-- A call that announces nothing. -/
theorem callDelegate_announces {call : DelegateCall} (h : c.Announced) (hcall : call.begins = false) :
    wp (callDelegate call) (fun _ => Ctx.Announced) (fun _ => Ctx.Announced) c := by
  refine callDelegate_announced (fun _ => h) fun _ hbegun => ?_
  rw [List.any_append, List.any_cons, hcall] at hbegun
  exact (h.told (by simpa using hbegun)).imp id fun hmem => List.mem_append_left _ hmem

theorem maybeEndStream_announced (h : c.Announced) :
    wp (maybeEndStream frame) (fun _ => Ctx.Announced) (fun _ => Ctx.Announced) c := by
  rw [maybeEndStream, wp_ite]
  refine ⟨fun _ => ?_, fun _ => h⟩
  rw [wp_bind, wp_get, wp_bind, wp_check]
  refine ⟨fun _ => h, fun _ => ?_⟩
  have hend : Unannounces (do
      setSelf fun s => { s with finished := true }
      Pure.pure true) := .bind (setSelf_unannounces fun _ => rfl) fun _ => .pure _
  rw [wp_bind, wp_when]
  refine ⟨fun _ => ?_, fun _ => hend.wp h⟩
  rw [setSelf, wp_bind, wp_modify]
  refine wp_mono (callDelegate_announced (fun hd => ⟨fun _ => h.absent hd, fun hbegun => ?_⟩) fun _ _ => ?_)
    (fun _ _ h' => hend.wp h') fun _ _ h' => h'
  · rw [h.absent hd] at hbegun
    cases hbegun
  · exact .inr (List.mem_append_right _ (.head _))

theorem startRequest_announced {p : ParsedHeaders} (h : c.Announced) :
    wp (startRequest p) (fun _ => Ctx.Announced) (fun _ => Ctx.Announced) c := by
  rw [startRequest, wp_bind, wp_get, wp_bind, wp_check]
  refine ⟨fun _ => h, fun _ => ?_⟩
  rw [wp_bind, wp_check]
  refine ⟨fun _ => h, fun _ => ?_⟩
  rw [wp_bind]
  refine wp_mono (readStartLine_unannounces.wp h) (fun startLine c₁ h₁ => ?_) fun _ _ h' => h'
  rw [wp_bind]
  refine wp_mono (setIncomingContent_unannounces.wp h₁) (fun _ c₂ h₂ => ?_) fun _ _ h' => h'
  have hphase : Unannounces (when (isFinal startLine = true) (setSelf fun s => { s with phase := .body })) :=
    .when fun _ => setSelf_unannounces fun _ => rfl
  rw [wp_bind]
  refine wp_mono (hphase.wp h₂) (fun _ c₃ h₃ => ?_) fun _ _ h' => h'
  rw [setSelf, wp_bind, wp_modify]
  exact callDelegate_announced (fun hd => ⟨fun _ => h₃.absent hd, fun _ => .inl rfl⟩) fun _ _ => .inl rfl

theorem parseHeaders_announced (h : c.Announced) :
    wp parseHeaders (fun _ => Ctx.Announced) (fun _ => Ctx.Announced) c := by
  rw [parseHeaders, wp_bind, wp_get]
  cases c.self.headerFrames with
  | nil => exact h
  | cons first rest =>
    dsimp only
    rw [setSelf, wp_bind, wp_modify, parseBlock, wp_bind]
    have h₀ : Ctx.Announced ⟨c.conn, { c.self with headerFrames := [] }⟩ := h.quiet ⟨rfl, .refl⟩
    have hstrip {frame : Frame} {data : Bytes} : Unannounces (stripPriority frame data) := stripPriority_keeps
    refine wp_mono (hstrip.wp h₀) (fun data c₁ h₁ => ?_) fun _ _ h' => h'
    have hdecode : Unannounces (decodeHeaders data) := decodeHeaders_uncalls.mono fun _ _ => Uncalling.unannounced
    rw [wp_bind]
    refine wp_mono (hdecode.wp h₁) (fun headerList c₂ h₂ => ?_) fun _ _ h' => h'
    rw [wp_bind, wp_get, wp_bind]
    cases addHeaders c₂.conn.params.unicode c₂.conn.isClient c₂.self.streamId
      ⟨[], .empty, c₂.self.phase = .trailers⟩ headerList with
    | error => exact h₂
    | ok p =>
      have hstart : wp (when (c₂.self.phase = .headers) (startRequest p)) (fun _ => Ctx.Announced)
          (fun _ => Ctx.Announced) c₂ := by
        rw [wp_when]
        exact ⟨fun _ => startRequest_announced h₂, fun _ => h₂⟩
      refine wp_bind.mpr (wp_mono hstart (fun _ c₃ h₃ => ?_) fun _ _ h' => h')
      rw [wp_bind]
      refine wp_mono (maybeEndStream_announced h₃) (fun _ c₄ h₄ => ?_) fun _ _ h' => h'
      rw [wp_bind, wp_get, wp_check]
      exact ⟨fun _ => h₄, fun _ => h₄⟩

theorem checkHeaderLength_announced (h : c.Announced) :
    wp checkHeaderLength (fun _ => Ctx.Announced) (fun _ => Ctx.Announced) c := by
  rw [checkHeaderLength, wp_bind, wp_get, wp_when]
  refine ⟨fun _ => ?_, fun _ => h⟩
  rw [wp_ite]
  exact ⟨fun _ => callDelegate_announces h rfl,
    fun _ => wp_state.mpr (h.quiet (refuse_sends c rfl).2.uncalling.unannounced)⟩

theorem appendHeaderFrame_announced (h : c.Announced) :
    wp (appendHeaderFrame frame) (fun _ => Ctx.Announced) (fun _ => Ctx.Announced) c := by
  rw [appendHeaderFrame, setSelf, wp_bind, wp_modify, wp_bind]
  refine wp_mono (checkHeaderLength_announced (h.quiet ⟨rfl, .refl⟩)) (fun _ c₁ h₁ => ?_) fun _ _ h' => h'
  rw [wp_when]
  exact ⟨fun _ => parseHeaders_announced h₁, fun _ => h₁⟩

theorem handleDataFrame_announced {later : Bool} (h : c.Announced) :
    wp (handleDataFrame frame later) (fun _ => Ctx.Announced) (fun _ => Ctx.Announced) c := by
  rw [handleDataFrame, wp_bind, wp_get, wp_bind, wp_check]
  refine ⟨fun _ => h, fun _ => ?_⟩
  rw [wp_bind, wp_check]
  refine ⟨fun _ => h, fun _ => ?_⟩
  rw [setSelf, wp_bind, wp_modify]
  have h₁ : Ctx.Announced ⟨c.conn, { c.self with phase := .body }⟩ := h.quiet ⟨rfl, .refl⟩
  cases frame.withoutPadding with
  | error e => exact h₁
  | ok f =>
    rw [show (Prog.ofExcept (.ok f) : OnStream Frame) = pure f from rfl, wp_bind, wp_pure, wp_bind]
    refine wp_mono (countIncoming_unannounces.wp h₁) (fun _ c₂ h₂ => ?_) fun _ _ h' => h'
    have hdeliver : wp (when (f.data ≠ [] ∧ c.self.delegateStarted = true) (deliverData later f.data))
        (fun _ => Ctx.Announced) (fun _ => Ctx.Announced) c₂ := by
      rw [wp_when]
      refine ⟨fun _ => ?_, fun _ => h₂⟩
      have hcredit : Unannounces (if later then
          setSelf fun s => { s with pendingCredits := s.pendingCredits ++ [f.data.length] }
          else sendWindowUpdate f.data.length) :=
        .ite (fun _ => setSelf_unannounces fun _ => rfl) fun _ =>
          sendWindowUpdate_uncalls.mono fun _ _ => Uncalling.unannounced
      rw [deliverData, wp_bind]
      exact wp_mono (callDelegate_announces h₂ rfl) (fun _ _ h' => hcredit.wp h') fun _ _ h' => h'
    rw [wp_bind]
    refine wp_mono hdeliver (fun _ c₃ h₃ => ?_) fun _ _ h' => h'
    exact wp_bind.mpr (wp_mono (maybeEndStream_announced h₃) (fun _ _ h' => h') fun _ _ h' => h')

theorem handleFrame_announced {later : Bool} (h : c.Announced) : ((handleFrame frame later).run c).2.Announced := by
  have unannounced {m : OnStream Unit} (hm : Unannounces m) : (m.run c).2.Announced := h.quiet (hm c trivial).2
  have unfinished {m : OnStream Unit} (hm : wp m (fun _ => Ctx.Announced) (fun _ => Ctx.Announced) c) :
      wp (do
        check (c.self.finished = true) (.streamError c.self.streamId .streamClosed)
        m) (fun _ => Ctx.Announced) (fun _ => Ctx.Announced) c := by
    rw [wp_bind, wp_check]
    exact ⟨fun _ => h, fun _ => hm⟩
  rw [handleFrame, run_get_bind]
  cases frame.type with
  | priority => exact unannounced handlePriorityFrame_keeps
  | rstStream =>
    refine wp_state.mp ?_
    rw [handleRstStreamFrame, wp_bind, wp_get, wp_bind, wp_check]
    refine ⟨fun _ => h, fun _ => ?_⟩
    rw [wp_when]
    exact ⟨fun _ => callDelegate_announces h rfl, fun _ => h⟩
  | windowUpdate =>
    refine unannounced (.get_bind fun _ _ => .bind (fun _ _ => ⟨trivial, rfl, .refl⟩) fun _ => ?_)
    exact fun _ _ => ⟨trivial, rfl, .snoc rfl⟩
  | settings | goaway | pushPromise => exact h
  | ping | unknown => exact wp_state.mp (unfinished h)
  | data => exact wp_state.mp (unfinished (handleDataFrame_announced h))
  | continuation =>
    refine wp_state.mp (unfinished ?_)
    rw [handleContinuationFrame, wp_bind, wp_get, wp_bind, wp_check]
    exact ⟨fun _ => h, fun _ => appendHeaderFrame_announced h⟩
  | headers =>
    refine wp_state.mp (unfinished ?_)
    have append {c : Ctx} (h : c.Announced) :
        wp (ofExcept frame.withoutPadding >>= appendHeaderFrame)
          (fun _ => Ctx.Announced) (fun _ => Ctx.Announced) c := by
      cases frame.withoutPadding with
      | error e => exact h
      | ok f => exact @appendHeaderFrame_announced c f h
    rw [handleHeadersFrame, wp_bind, wp_get, wp_bind, wp_when]
    exact ⟨fun _ => append (h.quiet ⟨rfl, .refl⟩), fun _ => append h⟩

theorem method_announced {a : System.Action} {i : Nat} {m : OnStream Unit} (ha : a.method = some (i, m))
    (h : c.Announced) : (m.run c).2.Announced := by
  rcases method_sends ha with hm | ⟨k, rfl⟩
  · exact h.quiet (hm c.self.streamId c rfl).2.uncalling.unannounced
  · have hresolve : Unannounces (resolveData k) :=
      .get_bind fun c _ => match c.self.pendingCredits[k]? with
        | none => .pure _
        | some _ => .bind (setSelf_unannounces fun _ => rfl) fun _ =>
          sendWindowUpdate_uncalls.mono fun _ _ => Uncalling.unannounced
    exact h.quiet (hresolve c trivial).2

/-- A writer is suspended in `Window.consume`. -/
def waits (s : Stream) : Bool :=
  match s.writeLock.owner with
  | .writer _ (.cond _) => true
  | .writer _ (.parentCond _ _) => true
  | _ => false

end Stream

namespace System

/-- The calls of the delegate of a stream. -/
def callsOf (s : System) (i : Nat) : List DelegateCall := delegateCalls (logOf i s.conn.log)

/-- The delegate has been told of a message, or is a client's and waits for one. -/
def Owes (s : System) (i : Nat) (self : Stream) : Prop :=
  self.hasDelegate = true ∧ (s.conn.isClient = true ∨ (s.callsOf i).any DelegateCall.begins = true)

/-- A message has begun and not ended, or a client's request has had no response. -/
def InProgress (s : System) (i : Nat) (self : Stream) : Prop :=
  self.hasDelegate = true ∧
    (self.delegateStarted = true ∨ s.conn.isClient = true ∧ (s.callsOf i).any DelegateCall.begins = false)

/-- Every delegate has had its last call, and no writer waits. -/
def AllTold (s : System) : Prop := ∀ ⦃i self⦄, s.streams i = some self →
  (s.Owes i self → .finish ∈ s.callsOf i ∨ (s.callsOf i).count .onConnectionClose = 1) ∧ self.waits = false

/-- No message is in progress, unless the peer has reset its stream once, and no
writer waits. -/
def AllIdle (s : System) : Prop := ∀ ⦃i self⦄, s.streams i = some self →
  (s.InProgress i self → (s.callsOf i).count .onConnectionClose = 1) ∧ self.waits = false

/-- What can happen to the loop: an action of the system, or a read that finds
the socket closed. -/
inductive LoopAction
  | act (a : Action)
  | readFails
  deriving DecidableEq, Repr

def loopStep (s : System) : LoopAction → System
  | .act a => s.step a
  -- `StreamClosedError` comes out of `_read_frame`.
  | .readFails => if s.loop = .running ∧ s.conn.closed = true then s.withLoop true .ended else s

/-- The exception that the loop catches for a frame, and the state in which. -/
def caught (s : System) (frame : Frame) (later : Bool) : Option (PyException × System) :=
  let m : OnSystem Unit := do
    onConn (Conn.readFrame frame)
    dispatch frame later
  match m.run s with
  | (.error e, s₁) => some (e, s₁)
  | (.ok _, _) => none

/-- `_write_frame` raises. -/
def writeFails (s : System) (frame : Frame) : Bool :=
  decide (frame.data.length ≥ 2 ^ 31) || decide (frame.streamId ≥ 2 ^ 31) || s.conn.closed

/-- The exception is not one that the loop answers, or cannot be answered. -/
def endsLoop (s : System) : PyException → Bool
  | .streamError streamId code => s.writeFails (rstStreamFrame streamId code)
  | .connectionError code message => s.writeFails (goawayFrame code 0 message)
  | _ => true

/-- A stream that an error resets has a delegate that is told; when the loop
ends, all delegates have been told and no writer waits. -/
structure Settles (s : System) (a : LoopAction) : Prop where
  reset {frame : Frame} {later : Bool} {i : Nat} {code : ErrorCode} {s₁ : System} {self : Stream}
    (ha : a = .act (.receive frame later)) (hloop : s.loop = .running)
    (hcaught : s.caught frame later = some (.streamError i code, s₁)) (hopen : (s.loopStep a).loop = .running)
    (hself : (s.loopStep a).streams i = some self) (howes : (s.loopStep a).Owes i self) :
    .finish ∈ (s.loopStep a).callsOf i ∨ .onConnectionClose ∈ (s.loopStep a).callsOf i
  ended (hloop : s.loop ≠ .ended) (hended : (s.loopStep a).loop = .ended) : (s.loopStep a).AllTold

/-- What the loop catches, or meets when it ends, finds no message in progress
that the peer has not reset, and no writer waiting if the loop ends. -/
def ExitsIdle (s : System) : LoopAction → Prop
  | .act (.receive frame later) => s.loop = .running → ∀ e s₁, s.caught frame later = some (e, s₁) →
      (∀ i code, e = .streamError i code → ∀ self, s₁.streams i = some self → s₁.InProgress i self →
        .onConnectionClose ∈ s₁.callsOf i) ∧
      (s₁.endsLoop e = true → s₁.AllIdle)
  | .act .goawayFlushed => s.loop = .goingAway → s.AllIdle
  | .readFails => s.loop = .running → s.conn.closed = true → s.AllIdle
  | _ => True

variable {s s₁ s' : System} {a : LoopAction} {frame : Frame} {later : Bool} {i : Nat} {self : Stream} {e : PyException}

/-- The loop has gone on or ended, and nobody has been called. -/
structure Leaves (s₁ s' : System) : Prop where
  streams : s'.streams = s₁.streams
  calls (i : Nat) : s'.callsOf i = s₁.callsOf i
  client : s'.conn.isClient = s₁.conn.isClient

theorem Leaves.inProgress (h : Leaves s₁ s') (hp : s'.InProgress i self) : s₁.InProgress i self := by
  rwa [InProgress, h.client, h.calls] at hp

theorem Leaves.allIdle (h : Leaves s₁ s') (hidle : s₁.AllIdle) : s'.AllIdle := by
  intro i self hself
  rw [h.streams] at hself
  obtain ⟨hclosed, hwaits⟩ := hidle hself
  exact ⟨fun hp => h.calls i ▸ hclosed (h.inProgress hp), hwaits⟩

/-- Who is owed a last call and has not had `finish` is in the midst of a message. -/
theorem Owes.told (h : Announced self (s.callsOf i)) (howes : s.Owes i self) :
    s.InProgress i self ∨ .finish ∈ s.callsOf i := by
  obtain ⟨hdelegate, hor⟩ := howes
  by_cases hbegun : (s.callsOf i).any DelegateCall.begins = true
  · exact (h.told hbegun).imp (fun hstarted => ⟨hdelegate, .inl hstarted⟩) id
  · exact .inl ⟨hdelegate, .inr ⟨hor.resolve_right hbegun, by simpa using hbegun⟩⟩

theorem AllIdle.told (h : s.AllIdle) (hall : s.All fun self log => Announced self (delegateCalls log)) : s.AllTold := by
  intro i self hself
  obtain ⟨hclosed, hwaits⟩ := h hself
  exact ⟨fun howes => (Owes.told (hall hself) howes).symm.imp id hclosed, hwaits⟩

theorem Handled.loop {r : Except PyException Unit} (h : Handled s frame later r s₁) : s₁.loop = s.loop := by
  cases h with
  | oversized => rfl
  | interrupted => rfl
  | passed _ _ hd => cases hd <;> rfl

theorem writeFrame_ok (h : s.writeFails frame = false) :
    (onConn (Conn.writeFrame frame)).run s = (.ok (), s.logged (.wrote frame)) := by
  rw [writeFails, Bool.or_eq_false_iff, Bool.or_eq_false_iff] at h
  have hfits : ¬ (frame.data.length ≥ 2 ^ 31 ∨ frame.streamId ≥ 2 ^ 31) := by simpa using h.1
  simp only [onConn, run_zoom, Conn.writeFrame, check, when, if_neg hfits]
  rw [run_pure_bind, run_get_bind, h.2]
  rfl

/-- A step that reads is what the two `except` clauses make of a program that
handles the frame. -/
theorem step_handling (hloop : s.loop = .running) : ∃ m : OnSystem Unit,
    s.step (.receive frame later) = ((catching (catching m handleStreamError) handleError).run s).2 ∧
      Handled s frame later (m.run s).1 (m.run s).2 ∧
      (∀ e s₁, s.caught frame later = some (e, s₁) → m.run s = (.error e, s₁)) ∧
      (s.caught frame later = none → ∃ s₁, m.run s = (.ok (), s₁)) := by
  refine ⟨do
    onConn (Conn.readFrame frame)
    dispatch frame later, ?_, handled_cases s frame later, fun e s₁ h => ?_, fun h => ?_⟩
  · simp only [step, perform, run_get_bind, when, if_pos hloop]
    rfl
  · rw [caught] at h
    split at h
    · cases h
      assumption
    · cases h
  · rw [caught] at h
    split at h
    · cases h
    · exact ⟨_, ‹_›⟩

/-- What the loop makes of an exception that it has caught. -/
theorem step_caught (hloop : s.loop = .running) (h : s.caught frame later = some (e, s₁)) :
    Leaves s₁ (s.step (.receive frame later)) ∧
      ((s.step (.receive frame later)).loop = .ended → s₁.endsLoop e = true) := by
  obtain ⟨m, hstep, hhandled, hcaught, -⟩ := @step_handling s frame later hloop
  have hm : m.run s = (.error e, s₁) := hcaught e s₁ h
  have hanswered := answered_cases m s
  rw [hm] at hhandled hanswered
  rw [hstep]
  refine ⟨?_, fun hended => ?_⟩
  · revert hanswered
    generalize ((catching (catching m handleStreamError) handleError).run s).2 = s'
    intro hanswered
    cases hanswered with
    | @reset i code =>
      exact ⟨rfl, fun j => Grows.delegateCalls (.snoc (e := .wrote (rstStreamFrame i code)) rfl), rfl⟩
    | @goaway code message =>
      exact ⟨rfl, fun j => Grows.delegateCalls (.snoc (e := .wrote (goawayFrame code 0 message)) rfl), rfl⟩
    | ended => exact ⟨rfl, fun _ => rfl, rfl⟩
  · by_contra hanswer
    rw [Bool.not_eq_true] at hanswer
    cases e with
    | streamError i code =>
      simp only [catching, hm, handleStreamError, writeFrame_ok hanswer] at hended
      cases (hhandled.loop.trans hloop).symm.trans hended
    | connectionError code message =>
      have hraise : (handleStreamError (.connectionError code message)).run s₁ =
          (.error (.connectionError code message), s₁) := rfl
      simp only [catching, hm, hraise, handleError, bind_ok (writeFrame_ok hanswer), setLoop, run_modify] at hended
      cases hended
    | _ => cases hanswer

theorem step_uncaught (hloop : s.loop = .running) (h : s.caught frame later = none) :
    (s.step (.receive frame later)).loop = .running := by
  obtain ⟨m, hstep, hhandled, -, hcaught⟩ := @step_handling s frame later hloop
  obtain ⟨s₁, hm⟩ := hcaught h
  rw [hm] at hhandled
  rw [hstep]
  simp only [catching, hm]
  exact hhandled.loop.trans hloop

/-- Only frames and the GOAWAY that has been flushed move the loop. -/
theorem step_loop {a : Action} (hreceive : ∀ frame later, a ≠ .receive frame later) (hflushed : a ≠ .goawayFlushed) :
    (s.step a).loop = s.loop := by
  by_cases hdisconnect : a = .disconnect
  · rw [hdisconnect]
    rfl
  have hs := step_cases s a
  revert hs
  generalize s.step a = s'
  intro hs
  cases hs with
  | received => exact absurd rfl (hreceive _ _)
  | closed _ ha => exact (ha.elim hflushed hdisconnect).elim
  | created | upgraded | method | idle => rfl

/-- Every delegate knows where its message stands. -/
def AllAnnounced (s : System) : Prop := WellFormed s ∧ s.All fun self log => Announced self (delegateCalls log)

theorem AllAnnounced.start (isClient : Bool) (params : Params) : (System.start isClient params).AllAnnounced :=
  ⟨.start isClient params, fun _ _ h => by cases h⟩

theorem stable_announced : Stable (fun self log => Announced self (delegateCalls log)) fun _ => True where
  quiet _ h := h
  noise he h := by
    rw [delegateCalls_noise he]
    exact h
  new _ _ hlog := by
    rw [delegateCalls_opened hlog]
    exact ⟨fun _ => rfl, fun h => by cases h⟩

theorem AllAnnounced.step (h : s.AllAnnounced) (a : Action) : (s.step a).AllAnnounced :=
  ⟨h.1.step a, (h.2.step stable_announced h.1 trivial (fun _ _ _ _ _ _ _ _ => trivial)
    (fun _ _ _ _ _ _ _ _ hown => ⟨Stream.handleFrame_announced hown.1, trivial⟩)
    fun _ _ _ ha _ _ hown => ⟨Stream.method_announced ha hown.1, trivial⟩).1⟩

theorem AllAnnounced.loopStep (h : s.AllAnnounced) (a : LoopAction) : (s.loopStep a).AllAnnounced := by
  cases a with
  | act a => exact h.step a
  | readFails =>
    rw [System.loopStep]
    split
    · exact ⟨h.1.withLoop, h.2⟩
    · exact h

theorem ExitsIdle.settles (h : s.AllAnnounced) (ha : s.ExitsIdle a) : s.Settles a where
  reset := by
    rintro frame later i code s₁ self rfl hloop hcaught - hself howes
    have hannounced := (h.loopStep (.act (.receive frame later))).2 hself
    obtain ⟨hleaves, -⟩ := step_caught hloop hcaught
    rcases Owes.told hannounced howes with hprogress | hfinish
    · refine .inr ?_
      rw [loopStep, hleaves.calls]
      exact (ha hloop _ _ hcaught).1 i code rfl self (hleaves.streams ▸ hself) (hleaves.inProgress hprogress)
    · exact .inl hfinish
  ended := by
    intro hloop hended
    have hall := (h.loopStep a).2
    refine AllIdle.told ?_ hall
    cases a with
    | readFails =>
      rw [loopStep] at hended ⊢
      split at hended
      · rename_i hread
        rw [if_pos hread]
        exact ha hread.1 hread.2
      · exact absurd hended hloop
    | act a =>
      rw [loopStep] at hended ⊢
      by_cases hreceive : ∃ frame later, a = .receive frame later
      · obtain ⟨frame, later, rfl⟩ := hreceive
        by_cases hrunning : s.loop = .running
        · cases hcaught : s.caught frame later with
          | none => cases (step_uncaught hrunning hcaught).symm.trans hended
          | some caught =>
            obtain ⟨e, s₁⟩ := caught
            obtain ⟨hleaves, hends⟩ := step_caught hrunning hcaught
            exact hleaves.allIdle ((ha hrunning e s₁ hcaught).2 (hends hended))
        · have hidle : s.step (.receive frame later) = s := by
            simp only [step, perform, run_get_bind, when, if_neg hrunning]
            rfl
          rw [hidle] at hended
          exact absurd hended hloop
      · by_cases hflushed : a = .goawayFlushed
        · subst hflushed
          by_cases hgoing : s.loop = .goingAway
          · have hleaves : Leaves s (s.step .goawayFlushed) := by
              have hstep : s.step .goawayFlushed = s.withLoop true .ended := by
                simp only [step, perform, run_get_bind, when, if_pos hgoing]
                rfl
              rw [hstep]
              exact ⟨rfl, fun _ => rfl, rfl⟩
            exact hleaves.allIdle (ha hgoing)
          · have hidle : s.step .goawayFlushed = s := by
              simp only [step, perform, run_get_bind, when, if_neg hgoing]
              rfl
            rw [hidle] at hended
            exact absurd hended hloop
        · rw [step_loop (fun frame later heq => hreceive ⟨frame, later, heq⟩) hflushed] at hended
          exact absurd hended hloop

/-- As long as the loop catches no exception, and does not end, while a message
is in progress or a writer waits, nobody is left hanging. -/
theorem no_stream_left_hanging {isClient : Bool} {params : Params} {actions : List LoopAction}
    (h : Runs.Along loopStep ExitsIdle (start isClient params) actions) :
    Runs.Along loopStep Settles (start isClient params) actions :=
  Runs.Along.mono (I := AllAnnounced) (fun _ a hs _ => hs.loopStep a) (fun _ _ hs ha => ha.settles hs)
    (.start isClient params) h

def goawayReceived : Action := .receive ⟨.goaway, 0, 0, [0, 0, 0, 0, 0, 0, 0, 0]⟩ false

/-- A request that is complete when the peer goes away. -/
theorem no_stream_left_hanging_complete :
    Runs.Along loopStep Settles (start false (.new none .caseless))
      [.act (.receive (requestFrame 1 0x5) false), .act goawayReceived] := by
  refine no_stream_left_hanging ⟨fun _ e s₁ hcaught => ?_,
    fun hloop e s₁ hcaught => ⟨fun i code he => ?_, fun _ => ?_⟩, trivial⟩
  · have hnone : ((start false (.new none .caseless)).caught (requestFrame 1 0x5) false).isNone =
      true := by decide +kernel
    rw [hcaught] at hnone
    cases hnone
  · have hclosed : (((start false (.new none .caseless)).step (.receive (requestFrame 1 0x5) false)).caught
        ⟨.goaway, 0, 0, [0, 0, 0, 0, 0, 0, 0, 0]⟩ false).map Prod.fst = some .streamClosedError := by decide +kernel
    have hfirst := congrArg (Option.map Prod.fst) hcaught
    rw [he] at hfirst
    cases hclosed.symm.trans hfirst
  · obtain ⟨hleaves, -⟩ := step_caught hloop hcaught
    have hfacts : let s :=
      ((start false (.new none .caseless)).step (.receive (requestFrame 1 0x5) false)).step goawayReceived
        (s.streams 1).all (fun self => !self.waits && !self.delegateStarted) = true := by decide +kernel
    intro i self hself
    rw [← hleaves.streams] at hself
    have hserver : s₁.conn.isClient = false := hleaves.client.symm
    by_cases hi : i = 1
    · subst hi
      have hone : self.waits = false ∧ self.delegateStarted = false := by
        have hall := (Option.all_eq_true _ _).mp hfacts self hself
        simpa using hall
      refine ⟨fun hprogress => ?_, hone.1⟩
      rcases hprogress.2 with hstarted | ⟨hclient, -⟩
      · cases hone.2.symm.trans hstarted
      · cases hserver.symm.trans hclient
    · rw [step_receive_streams rfl] at hself
      have hother := (step_receive_of_ne hi).symm.trans hself
      cases hother

/-- A request that the peer leaves open when it goes away. -/
theorem not_every_delegate_told : ¬ ∀ isClient params actions,
    Runs.Along loopStep Settles (start isClient params) actions := by
  intro h
  have hfacts : let s := (start false (.new none .caseless)).step (.receive (requestFrame 1 0x4) false)
      let s' := s.step goawayReceived
      s.loop ≠ .ended ∧ s'.loop = .ended ∧ (s'.streams 1).any (·.hasDelegate) = true ∧
        (s'.callsOf 1).any DelegateCall.begins = true ∧ .finish ∉ s'.callsOf 1 ∧
          (s'.callsOf 1).count .onConnectionClose = 0 := by decide +kernel
  have hsettles := (h false (.new none .caseless) [.act (.receive (requestFrame 1 0x4) false), .act goawayReceived]).2.1
  obtain ⟨hloop, hended, hdelegate, hbegun, hfinish, hclose⟩ := hfacts
  obtain ⟨self, hself, hhas⟩ := (Option.any_eq_true _ _).mp hdelegate
  rcases (hsettles.ended hloop hended hself).1 ⟨hhas, .inr hbegun⟩ with hfinished | hclosed
  · exact hfinish hfinished
  · exact absurd (hclose.symm.trans hclosed) (by decide)

end System

end TornadoHttp2
