import TornadoHttp2.HeaderLimit
import TornadoHttp2.Invariants

/-! What a delegate is called with. A stream is closed once the peer has ended
its side or reset it, or once an error has been answered by RST_STREAM; only
`finish_future` keeps later frames of the stream from its delegate. -/

namespace TornadoHttp2

open Prog Ctx

namespace Event

/-- The last call of a delegate. -/
def isTerminal : Event → Bool
  | called _ .finish => true
  | called _ .onConnectionClose => true
  | _ => false

/-- A call that delivers a part of a message. -/
def delivers : Event → Bool
  | called _ (.headersReceived _ _) => true
  | called _ (.dataReceived _) => true
  | called _ .finish => true
  | _ => false

def isCalled : Event → Bool
  | called _ _ => true
  | _ => false

theorem not_isCalled {e : Event} (h : e.isCalled = false) : e.isTerminal = false ∧ e.delivers = false := by
  cases e with
  | called => simp [isCalled] at h
  | _ => exact ⟨rfl, rfl⟩

/-- The answer to a `StreamError`; `reset` sends the error code 0. -/
def isErrorReset : Event → Bool
  | wrote frame => frame.type = .rstStream && frame.data ≠ [0, 0, 0, 0]
  | _ => false

end Event

/-- The frames that carry a message. -/
def Frame.isContent (frame : Frame) : Bool :=
  frame.type = .headers || frame.type = .continuation || frame.type = .data

/-- The peer's side of a stream: the END_STREAM flag of a header block that is
not complete, and whether the peer has ended the stream. -/
structure PeerSide where
  block : Option Bool
  closed : Bool
  deriving DecidableEq, Repr

namespace PeerSide

def afterBlock (side : PeerSide) (ends : Bool) (frame : Frame) : PeerSide :=
  if frame.has .endHeaders then ⟨none, side.closed || ends⟩ else ⟨some ends, side.closed⟩

def after (side : PeerSide) (frame : Frame) : PeerSide :=
  match frame.type with
  | .data => { side with closed := side.closed || frame.has .endStream }
  | .rstStream => { side with closed := true }
  | .headers => side.afterBlock (frame.has .endStream) frame
  | .continuation =>
    match side.block with
    | none => side
    | some ends => side.afterBlock ends frame
  | _ => side

/-- The frames of a stream in its log, in order. -/
def ofLog (log : List Event) : PeerSide :=
  log.foldl (fun side e => match e with
    | .received frame => side.after frame
    | _ => side) ⟨none, false⟩

end PeerSide

/-- The stream of the log is closed for the peer. -/
def IsClosed (log : List Event) : Bool := (PeerSide.ofLog log).closed || log.any Event.isErrorReset

/-- The log grows by at most `n` terminal calls. -/
def Ends (n : Nat) (log log' : List Event) : Prop :=
  ∃ es, log' = log ++ es ∧ es.countP Event.isTerminal ≤ n

namespace Ends

variable {n m : Nat} {log log' log'' : List Event}

theorem refl : Ends n log log := ⟨[], by simp, by simp⟩

theorem trans (h : Ends n log log') (h' : Ends m log' log'') : Ends (n + m) log log'' := by
  obtain ⟨es, rfl, he⟩ := h
  obtain ⟨fs, rfl, hf⟩ := h'
  refine ⟨es ++ fs, List.append_assoc .., ?_⟩
  rw [List.countP_append]
  omega

theorem mono (h : Ends n log log') (hle : n ≤ m) : Ends m log log' := by
  obtain ⟨es, hlog, he⟩ := h
  exact ⟨es, hlog, he.trans hle⟩

theorem of_grows {p : Event → Prop} (h : Grows p log log') (hp : ∀ e, p e → e.isTerminal = false) :
    Ends n log log' := by
  obtain ⟨es, hlog, he⟩ := h
  have hnone : es.countP Event.isTerminal = 0 :=
    List.countP_eq_zero.mpr fun e hmem => by simp [hp e (he e hmem)]
  exact ⟨es, hlog, by omega⟩

theorem snoc {e : Event} : Ends 1 log (log ++ [e]) := ⟨[e], rfl, List.countP_le_length⟩

/-- The calls of one stream are among all of them. -/
theorem logOf {i : Nat} (h : Ends n log log') : (logOf i log').countP Event.isTerminal ≤
    (TornadoHttp2.logOf i log).countP Event.isTerminal + n := by
  obtain ⟨es, rfl, he⟩ := h
  have hsub : (TornadoHttp2.logOf i es).countP Event.isTerminal ≤ es.countP Event.isTerminal :=
    List.filter_sublist.countP_le
  rw [logOf_append, List.countP_append]
  omega

end Ends

/-- A step of a stream with at most `n` terminal calls. -/
def Ctx.Ends (n : Nat) (c c' : Ctx) : Prop := TornadoHttp2.Ends n c.conn.log c'.conn.log

/-- A step of a stream without calls of its delegate. -/
def Ctx.Uncalled (c c' : Ctx) : Prop := Grows (fun e => e.isCalled = false) c.conn.log c'.conn.log

instance {n : Nat} : Std.Refl (Ctx.Ends n) := ⟨fun _ => .mono .refl (Nat.zero_le n)⟩

instance : IsTrans Ctx (Ctx.Ends 0) := ⟨fun _ _ _ h h' => h.trans h'⟩

theorem SendsOnly.ends {i : Nat} {c c' : Ctx} (h : SendsOnly i c c') : c.Ends 0 c' :=
  .of_grows h.log fun e he => by
    cases e with
    | called => exact he.elim
    | _ => rfl

namespace Stream

variable {c c' : Ctx} {frame : Frame} {n : Nat}

/-- A program without terminal calls. -/
abbrev Lasting {α : Type} (m : OnStream α) : Prop := Keeps (fun _ => True) (Ctx.Ends 0) m

theorem setSelf_lasting {f : Stream → Stream} : Lasting (setSelf f) := fun _ _ => ⟨trivial, .refl⟩

theorem emit_lasting {e : Event} (he : e.isTerminal = false) : Lasting (emit e) := fun _ _ =>
  ⟨trivial, [e], rfl, by simp [he]⟩

theorem callDelegate_lasting {call : DelegateCall} (hcall : ∀ i, (Event.called i call).isTerminal = false) :
    Lasting (callDelegate call) :=
  .get_bind fun c _ => .bind .check fun _ => emit_lasting (hcall c.self.streamId)

theorem writeFrame_lasting : Lasting (writeFrame frame) := by
  refine Keeps.iff_wp.mpr fun c _ => ?_
  rw [writeFrame_wp]
  split
  · exact ⟨trivial, .refl⟩
  · split
    · exact ⟨trivial, .refl⟩
    · exact ⟨trivial, [.wrote frame], rfl, by simp [Event.isTerminal]⟩

theorem decodeHeaders_lasting {data : Bytes} : Lasting (decodeHeaders data) :=
  .bind (emit_lasting rfl) fun _ => .get_bind fun c _ => by
    rcases c.conn.hpackDecoder.decode c.conn.huffmanTree data with ⟨_ | _, _, _⟩
    · exact .bind (fun _ _ => ⟨trivial, .refl⟩) fun _ => .raise _
    · exact .bind (fun _ _ => ⟨trivial, .refl⟩) fun _ => .pure _

theorem sendWindowUpdate_lasting {amount : Nat} : Lasting (sendWindowUpdate amount) :=
  .get_bind fun _ _ => .bind .check fun _ => .bind writeFrame_lasting fun _ => writeFrame_lasting

theorem deliverData_lasting {later : Bool} {data : Bytes} : Lasting (deliverData later data) :=
  .bind (callDelegate_lasting fun _ => rfl) fun _ =>
    .ite (fun _ => setSelf_lasting) fun _ => sendWindowUpdate_lasting

/-- A call of the delegate, which may fail. -/
theorem callDelegate_log (call : DelegateCall) : ((callDelegate call).run c).2.conn.log = c.conn.log ∨
    ((callDelegate call).run c).2.conn.log = c.conn.log ++ [.called c.self.streamId call] := by
  rw [callDelegate, run_get_bind, check, when]
  split
  · exact .inl rfl
  · exact .inr rfl

theorem callDelegate_ends (call : DelegateCall) : c.Ends 1 ((callDelegate call).run c).2 := by
  rcases callDelegate_log (c := c) call with h | h <;> rw [Ctx.Ends, h]
  · exact .mono .refl (Nat.zero_le 1)
  · exact .snoc

theorem maybeEndStream_ends : c.Ends (frame.has .endStream).toNat ((maybeEndStream frame).run c).2 := by
  refine wp_state.mp ?_
  rw [maybeEndStream, wp_ite]
  refine ⟨fun hends => ?_, fun _ => .mono .refl (Nat.zero_le _)⟩
  rw [hends, Bool.toNat_true, wp_bind, wp_get, wp_bind, wp_check]
  refine ⟨fun _ => refl c, fun _ => ?_⟩
  rw [wp_bind, wp_when]
  refine ⟨fun _ => ?_, fun _ => .mono .refl (Nat.zero_le 1)⟩
  rw [setSelf, wp_bind, wp_modify]
  exact wp_mono (wp_state.mpr (callDelegate_ends .finish)) (fun _ _ h => h) fun _ _ h => h

/-- The end of a handler: what came before it, then `_maybe_end_stream`. -/
theorem maybeEndStream_wp {α : Type} {f : Bool → OnStream α} (h : c.Ends 0 c')
    (hf : ∀ ended, Lasting (f ended)) :
    wp (maybeEndStream frame >>= f) (fun _ => c.Ends (frame.has .endStream).toNat)
      (fun _ => c.Ends (frame.has .endStream).toNat) c' := by
  have hend : c.Ends (frame.has .endStream).toNat ((maybeEndStream frame).run c').2 :=
    (h.trans (maybeEndStream_ends (c := c'))).mono (Nat.zero_add _).le
  rw [wp_bind]
  exact wp_mono (wp_state.mpr hend) (fun ended c₁ h₁ => wp_state.mpr (h₁.trans (hf ended c₁ trivial).2))
    fun _ _ h => h

theorem parseBlock_ends (data : Bytes) :
    c.Ends (frame.has .endStream).toNat ((parseBlock frame data).run c).2 := by
  have hset : ∀ f : Stream → Stream, (∀ s, (f s).kept = s.kept) → Lasting (setSelf f) := fun _ _ => setSelf_lasting
  have failed {c₁ : Ctx} (h : c.Ends 0 c₁) : c.Ends (frame.has .endStream).toNat c₁ := h.mono (Nat.zero_le _)
  have step {α : Type} {m : OnStream α} {c₁ : Ctx} (hm : Lasting m) (h : c.Ends 0 c₁) :
      wp m (fun _ => c.Ends 0) (fun _ => c.Ends 0) c₁ := wp_state.mpr (h.trans (hm c₁ trivial).2)
  refine wp_state.mp ?_
  rw [parseBlock, wp_bind]
  refine wp_mono (step stripPriority_keeps .refl) (fun data c₁ h₁ => ?_) fun _ _ => failed
  rw [wp_bind]
  refine wp_mono (step decodeHeaders_lasting h₁) (fun headerList c₂ h₂ => ?_) fun _ _ => failed
  rw [wp_bind, wp_get, wp_bind]
  refine wp_mono (step (.ofExcept _) h₂) (fun p c₃ h₃ => ?_) fun _ _ => failed
  rw [wp_bind]
  refine wp_mono (step (.when fun _ => startRequest_keeps hset fun _ _ => callDelegate_lasting fun _ => rfl) h₃)
    (fun _ c₄ h₄ => ?_) fun _ _ => failed
  exact maybeEndStream_wp h₄ fun _ => .get_bind fun _ _ => .check

theorem handleDataFrame_ends {later : Bool} : c.Ends 1 ((handleDataFrame frame later).run c).2 := by
  have hset : ∀ f : Stream → Stream, (∀ s, (f s).kept = s.kept) → Lasting (setSelf f) := fun _ _ => setSelf_lasting
  have failed {c₁ : Ctx} (h : c.Ends 0 c₁) : c.Ends 1 c₁ := h.mono (Nat.zero_le 1)
  have step {α : Type} {m : OnStream α} {c₁ : Ctx} (hm : Lasting m) (h : c.Ends 0 c₁) :
      wp m (fun _ => c.Ends 0) (fun _ => c.Ends 0) c₁ := wp_state.mpr (h.trans (hm c₁ trivial).2)
  refine wp_state.mp ?_
  rw [handleDataFrame, wp_bind, wp_get, wp_bind]
  refine wp_mono (step .check .refl) (fun _ c₁ h₁ => ?_) fun _ _ => failed
  rw [wp_bind]
  refine wp_mono (step .check h₁) (fun _ c₂ h₂ => ?_) fun _ _ => failed
  rw [wp_bind]
  refine wp_mono (step setSelf_lasting h₂) (fun _ c₃ h₃ => ?_) fun _ _ => failed
  rw [wp_bind]
  refine wp_mono (step (.ofExcept _) h₃) (fun f c₄ h₄ => ?_) fun _ _ => failed
  rw [wp_bind]
  refine wp_mono (step (countIncoming_keeps hset) h₄) (fun _ c₅ h₅ => ?_) fun _ _ => failed
  rw [wp_bind]
  refine wp_mono (step (.when fun _ => deliverData_lasting) h₅) (fun _ c₆ h₆ => ?_) fun _ _ => failed
  have hend {c' : Ctx} (h : c.Ends (f.has .endStream).toNat c') : c.Ends 1 c' := h.mono (Bool.toNat_le _)
  exact wp_mono (maybeEndStream_wp h₆ fun _ => .pure _) (fun _ _ => hend) fun _ _ => hend

/-- The HEADERS frame of the header block that `frame` belongs to ends the stream. -/
def blockEnds (s : Stream) (frame : Frame) : Bool := (s.headerFrames.head?.getD frame).has .endStream

/-- The call that tells the application of a client that a header block is too long. -/
def abandons (c : Ctx) (frame : Frame) : Bool :=
  c.conn.isClient && c.self.headerLength + frame.data.length > c.conn.params.maxHeaderSize

theorem checkHeaderLength_wp {first : Frame} {rest : List Frame} (hframes : c.self.headerFrames = first :: rest) :
    wp checkHeaderLength
      (fun _ c' => c.Ends (c.conn.isClient && c.self.headerLength > c.conn.params.maxHeaderSize).toNat c' ∧
        c'.self.headerFrames = first :: rest)
      (fun _ c' => c.Ends (c.conn.isClient && c.self.headerLength > c.conn.params.maxHeaderSize).toNat c') c := by
  have sends {c' : Ctx} (h : SendsOnly c.self.streamId c c') : c.Ends 0 c' ∧ c'.self.headerFrames = first :: rest :=
    ⟨h.ends, (congrArg (fun t => t.2.2.2.2.2.1) h.self).trans hframes⟩
  rw [checkHeaderLength, wp_bind, wp_get, wp_when]
  refine ⟨fun hover => ?_, fun _ => ⟨.mono .refl (Nat.zero_le _), hframes⟩⟩
  rw [wp_ite]
  refine ⟨fun hclient => ?_, fun hserver => ?_⟩
  · have hone : (c.conn.isClient && decide (c.self.headerLength > c.conn.params.maxHeaderSize)).toNat = 1 := by
      simp [hclient, hover]
    rw [hone]
    have hframes' : ((callDelegate .onConnectionClose).run c).2.self.headerFrames = first :: rest := by
      rw [callDelegate, run_get_bind, check, when]
      split <;> exact hframes
    refine wp_mono ((wp_state (P := fun c' => c.Ends 1 c' ∧ c'.self.headerFrames = first :: rest)).mpr
      ⟨callDelegate_ends _, hframes'⟩) (fun _ _ h => h) fun _ _ h => h.1
  · have hzero : (c.conn.isClient && decide (c.self.headerLength > c.conn.params.maxHeaderSize)).toNat = 0 := by
      simp [hserver]
    rw [hzero]
    exact wp_mono (wp_state.mpr (sends (refuse_sends c rfl).2)) (fun _ _ h => h) fun _ _ h => h.1

theorem appendHeaderFrame_ends (hends : abandons c frame = true → frame.has .endHeaders = true →
      c.self.blockEnds frame = false) : c.Ends 1 ((appendHeaderFrame frame).run c).2 := by
  obtain ⟨first, rest, hframes⟩ : ∃ first rest, c.self.headerFrames ++ [frame] = first :: rest :=
    List.exists_cons_of_ne_nil (by simp)
  have hfirst : c.self.headerFrames.head?.getD frame = first := by
    cases hlist : c.self.headerFrames <;> simp_all
  have hlength : headerLength { c.self with headerFrames := c.self.headerFrames ++ [frame] } =
      c.self.headerLength + frame.data.length := headerLength_append
  refine wp_state.mp ?_
  rw [appendHeaderFrame, setSelf, wp_bind, wp_modify, wp_bind]
  refine wp_mono (checkHeaderLength_wp hframes) (fun _ c' h => ?_) fun _ c' h => h.mono (Bool.toNat_le _)
  rw [hlength] at h
  rw [wp_when]
  refine ⟨fun hheaders => ?_, fun _ => h.1.mono (Bool.toNat_le _)⟩
  rw [parseHeaders, wp_bind, wp_get, h.2]
  have hparse := h.1.trans (parseBlock_ends (c := ⟨c'.conn, { c'.self with headerFrames := [] }⟩)
    ((first :: rest).flatMap Frame.data) : TornadoHttp2.Ends (first.has .endStream).toNat _ _)
  refine wp_state.mpr (hparse.mono ?_)
  have hflag : c.self.blockEnds frame = first.has .endStream := congrArg (·.has .endStream) hfirst
  rw [← hflag]
  change (abandons c frame).toNat + (c.self.blockEnds frame).toNat ≤ 1
  have := Bool.toNat_le (abandons c frame)
  have := Bool.toNat_le (c.self.blockEnds frame)
  cases habandons : abandons c frame with
  | false => simpa using Bool.toNat_le _
  | true => simp [hends habandons hheaders]

/-- A finished stream refuses the frames of a message. -/
theorem handleFrame_finished {later : Bool} (hfinished : c.self.finished = true)
    (hcontent : frame.isContent = true) : ((handleFrame frame later).run c).2 = c := by
  rw [handleFrame, run_get_bind]
  cases htype : frame.type <;> simp [Frame.isContent, htype] at hcontent <;>
    simp only [check, when, hfinished, if_true] <;> rfl

theorem handleFrame_ends {later : Bool} (hcontent : frame.isContent = true)
    (hends : c.conn.isClient = true → frame.has .endHeaders = true →
      c.self.exceeds c.conn.params.maxHeaderSize frame = true → c.self.blockEnds frame = false) :
    c.Ends 1 ((handleFrame frame later).run c).2 := by
  by_cases hfinished : c.self.finished = true
  · rw [handleFrame_finished hfinished hcontent]
    exact refl c
  by_cases hheaders : frame.type = .headers
  · rw [handleFrame_headers hheaders, if_neg hfinished]
    have rest {c₁ : Ctx} (hc : c₁.conn = c.conn) (hframes : c₁.self.headerFrames = c.self.headerFrames) :
        wp (do
          let frame ← ofExcept frame.withoutPadding
          appendHeaderFrame frame) (fun _ => c.Ends 1) (fun _ => c.Ends 1) c₁ := by
      cases hpadding : frame.withoutPadding with
      | error e =>
        change TornadoHttp2.Ends 1 c.conn.log c₁.conn.log
        rw [hc]
        exact .mono .refl (Nat.zero_le 1)
      | ok f =>
        obtain ⟨-, hflags, -⟩ := Frame.withoutPadding_same hpadding
        have happend : c₁.Ends 1 ((appendHeaderFrame f).run c₁).2 := by
          refine appendHeaderFrame_ends fun habandons hblock => ?_
          have hover := habandons
          simp only [abandons, hc, Bool.and_eq_true, decide_eq_true_eq, headerLength, hframes] at hover
          have hexceeds : c.self.exceeds c.conn.params.maxHeaderSize frame = true := by
            simpa [exceeds, hheaders, hfinished, hpadding, Except.toOption, headerLength] using hover.2
          have hblockEnds := hends hover.1 (Frame.has_congr hflags ▸ hblock) hexceeds
          unfold blockEnds at hblockEnds ⊢
          rw [hframes]
          cases hlist : c.self.headerFrames with
          | nil =>
            rw [hlist] at hblockEnds
            exact (Frame.has_congr hflags).trans hblockEnds
          | cons first _ =>
            rw [hlist] at hblockEnds
            exact hblockEnds
        refine wp_state.mpr ?_
        change TornadoHttp2.Ends 1 c.conn.log _
        rw [← hc]
        exact happend
    refine wp_state.mp ?_
    rw [handleHeadersFrame, wp_bind, wp_get, wp_bind, wp_when]
    refine ⟨fun _ => ?_, fun _ => rest rfl rfl⟩
    exact @rest ⟨c.conn, { c.self with phase := .trailers }⟩ rfl rfl
  by_cases hcontinuation : frame.type = .continuation
  · rw [handleFrame_continuation hcontinuation, if_neg hfinished, handleContinuationFrame, run_get_bind]
    refine wp_state.mp ?_
    rw [wp_bind, wp_check]
    refine ⟨fun _ => refl c, fun hframes => wp_state.mpr (appendHeaderFrame_ends fun habandons hblock => ?_)⟩
    simp only [abandons, Bool.and_eq_true, decide_eq_true_eq] at habandons
    refine hends habandons.1 hblock ?_
    simpa [exceeds, hcontinuation, hfinished, hframes] using habandons.2
  · have hdata : frame.type = .data := by
      cases htype : frame.type <;> simp_all [Frame.isContent]
    refine wp_state.mp ?_
    rw [handleFrame, wp_bind, wp_get, hdata]
    dsimp only
    rw [wp_bind, wp_check]
    exact ⟨fun h => absurd h hfinished, fun _ => wp_state.mpr handleDataFrame_ends⟩

/-- A frame of another type makes at most the call that a RST_STREAM makes. -/
theorem handleFrame_other {later : Bool} (hcontent : frame.isContent = false) :
    c.Uncalled ((handleFrame frame later).run c).2 ∨
      frame.type = .rstStream ∧ frame.data.length = 4 ∧ c.self.delegateStarted = true ∧
        ((handleFrame frame later).run c).2.conn.log =
          c.conn.log ++ [.called c.self.streamId .onConnectionClose] := by
  have same {c' : Ctx} (h : c'.conn.log = c.conn.log) : c.Uncalled c' := by
    rw [Ctx.Uncalled, h]
    exact .refl
  by_cases hupdate : frame.type = .windowUpdate
  · rw [handleFrame_windowUpdate hupdate]
    refine .inl (wp_state.mp ?_)
    rw [handleWindowUpdateFrame, wp_bind, wp_get, wp_bind, wp_zoom]
    have hany {w : Window} : wp (Window.applyWindowUpdate frame) (fun _ _ => True) (fun _ _ => True) w :=
      wp_state.mpr trivial
    exact wp_mono hany (fun _ _ _ => .snoc rfl) fun _ _ _ => .refl
  by_cases hrst : frame.type = .rstStream
  · rw [handleFrame, run_get_bind, hrst]
    dsimp only
    rw [handleRstStreamFrame, run_get_bind]
    by_cases hlength : frame.data.length = 4
    · rw [check, when, if_neg (not_not.mpr hlength), run_pure_bind, when]
      split
      · rename_i hstarted
        rcases callDelegate_log (c := c) .onConnectionClose with h | h
        · exact .inl (same h)
        · exact .inr ⟨rfl, hlength, hstarted, h⟩
      · exact .inl (same rfl)
    · rw [check, when, if_pos hlength]
      exact .inl (same rfl)
  · refine .inl (same ?_)
    rw [handleFrame, run_get_bind]
    cases htype : frame.type with
    | windowUpdate => exact absurd htype hupdate
    | rstStream => exact absurd htype hrst
    | headers | continuation | data => simp [Frame.isContent, htype] at hcontent
    | priority =>
      dsimp only
      rw [handlePriorityFrame, run_get_bind, check, when]
      split <;> rfl
    | settings | goaway | pushPromise => rfl
    | ping | unknown =>
      dsimp only
      rw [check, when]
      split <;> rfl

theorem resolveData_uncalled {k : Nat} : c.Uncalled ((resolveData k).run c).2 := by
  have write {i amount : Nat} {c₁ : Ctx} (h : c.Uncalled c₁) :
      wp (writeFrame ⟨.windowUpdate, 0, i, packBytes 4 amount⟩) (fun _ => c.Uncalled) (fun _ => c.Uncalled) c₁ := by
    rw [writeFrame_wp]
    split
    · exact h
    · split
      · exact h
      · exact h.trans (.snoc rfl)
  refine wp_state.mp ?_
  rw [resolveData, wp_bind, wp_get]
  cases c.self.pendingCredits[k]? with
  | none => exact Grows.refl
  | some amount =>
    dsimp only
    rw [setSelf, wp_bind, wp_modify, sendWindowUpdate, wp_bind, wp_get, wp_bind, wp_check]
    refine ⟨fun _ => .refl, fun _ => ?_⟩
    rw [wp_bind]
    exact wp_mono (write .refl) (fun _ _ h => write h) fun _ _ h => h

end Stream

namespace System

/-- The loop hands the frame to a stream. -/
def Handles (s : System) (frame : Frame) : Prop :=
  s.Reads frame ∧ frame.streamId ≠ 0 ∧
    ((s.streams frame.streamId).isSome = true ∨ s.conn.isClient = false ∧ frame.type = .headers)

instance (s : System) (frame : Frame) : Decidable (s.Handles frame) := inferInstanceAs (Decidable (_ ∧ _))

/-- No step calls the delegate of a closed stream with a part of a message. -/
def DeliversWhileOpen (s : System) (a : Action) : Prop :=
  ∀ i, IsClosed (logOf i s.conn.log) = true →
    Grows (fun e => e.streamId = i → e.delivers = false) s.conn.log (s.step a).conn.log

/-- The frames of a message find a stream that is closed, or whose delegate has
had its last call, finished; no RST_STREAM finds a delegate still started that
has had its last call; and no header block that a client has given up ends its
stream. -/
def FinishesClosed (s : System) : Action → Prop
  | .receive frame _ => s.Handles frame →
      (frame.isContent = true → (IsClosed (logOf frame.streamId s.conn.log) = true ∨
        (logOf frame.streamId s.conn.log).any Event.isTerminal = true) →
          (s.streamOf frame).finished = true) ∧
      (frame.type = .rstStream → frame.data.length = 4 →
        (logOf frame.streamId s.conn.log).any Event.isTerminal = true →
          (s.streamOf frame).delegateStarted = false) ∧
      (s.conn.isClient = true → frame.has .endHeaders = true →
        (s.streamOf frame).exceeds s.conn.params.maxHeaderSize frame = true →
          (s.streamOf frame).blockEnds frame = false)
  | _ => True

instance (s : System) : (a : Action) → Decidable (s.FinishesClosed a)
  | .receive frame _ => inferInstanceAs (Decidable (s.Handles frame → _ ∧ _ ∧ _))
  | .createStream | .upgrade _ _ | .writeHeaders _ _ _ _ _ | .write _ _ _ | .finish _ | .reset _
  | .resume _ _ | .resolve _ _ | .goawayFlushed | .disconnect => isTrue trivial

/-- The delegate of a stream has had at most one last call. -/
def EndsOnce (_ : Stream) (log : List Event) : Prop := log.countP Event.isTerminal ≤ 1

/-- The log since `s`, as far as it is about streams that are closed in `s`. -/
def Delivers (s : System) (c : Conn) : Prop := ∀ i, IsClosed (logOf i s.conn.log) = true →
  Grows (fun e => e.streamId = i → e.delivers = false) s.conn.log c.log

variable {s : System} {a : Action} {c c' : Ctx} {frame : Frame} {later : Bool}

theorem Delivers.grows {c c' : Conn} (h : s.Delivers c) (hlog : Grows (fun e => e.isCalled = false) c.log c'.log) :
    s.Delivers c' := fun i hi => (h i hi).trans (hlog.mono fun _ he _ => (Event.not_isCalled he).2)

theorem uncalled_own (h : Own EndsOnce s.Delivers c) (hid : c'.self.streamId = c.self.streamId)
    (hc : c.Uncalled c') : Own EndsOnce s.Delivers c' := by
  have hends : TornadoHttp2.Ends 0 c.conn.log c'.conn.log := .of_grows hc fun _ he => (Event.not_isCalled he).1
  refine ⟨?_, h.2.grows hc⟩
  rw [EndsOnce, hid]
  exact hends.logOf.trans h.1

theorem stable_endsOnce : Stable EndsOnce s.Delivers where
  quiet := by
    rintro c c' ⟨es, nextStreamId, closed, rfl, hes⟩ hQ
    refine hQ.grows ⟨es, rfl, fun e he => ?_⟩
    rcases hes e he with hnoise | ⟨i, size, rfl⟩
    · cases e <;> first | rfl | exact hnoise.elim
    · rfl
  noise := by
    intro _ log e he h
    have hcalled : e.isTerminal = false := by cases e <;> first | rfl | exact he.elim
    rw [EndsOnce] at h ⊢
    rw [List.countP_append]
    simpa [hcalled] using h
  new := by
    intro c i _ log _ _ hlog
    have hnone : log.countP Event.isTerminal = 0 := List.countP_eq_zero.mpr fun e he => by
      have := hlog e he
      cases e <;> simp_all [Event.isRefusal, Event.isTerminal]
    rw [EndsOnce, List.countP_append, hnone]
    simp [Event.isTerminal]

/-- Events about other streams, or about the connection, deliver nothing. -/
theorem acts_delivers {i j : Nat} (hij : j ≠ i) {e : Event} (he : e.concerns i) (hj : e.streamId = j) :
    e.delivers = false := by
  rcases he.1 with ⟨-, hconn⟩ | hi
  · cases e with
    | called => exact hconn.elim
    | _ => rfl
  · exact absurd (hj.symm.trans hi) hij

theorem handleFrame_own (hcond : s.FinishesClosed (.receive frame later)) (hreads : s.Reads frame)
    (hid : frame.streamId ≠ 0) (hmeets : s.Meets frame c) (hself : c.self.streamId = frame.streamId)
    (h : Own EndsOnce s.Delivers c) : Own EndsOnce s.Delivers ((Stream.handleFrame frame later).run c).2 := by
  have hacts := (Stream.handleFrame_acts frame later c hself).2
  have hhandles : s.Handles frame := by
    refine ⟨hreads, hid, ?_⟩
    cases hmeets with
    | known hknown => exact .inl (Option.isSome_iff_exists.mpr ⟨_, hknown⟩)
    | opened _ htype hserver => exact .inr ⟨hserver, htype⟩
  obtain ⟨hcontent, hrst, hclient⟩ := hcond hhandles
  rw [← hmeets.self] at hcontent hrst hclient
  have hfixed : c.conn.isClient = s.conn.isClient ∧ c.conn.params = s.conn.params :=
    ⟨congrArg (fun t => t.1) hmeets.fixed, congrArg (fun t => t.2.1) hmeets.fixed⟩
  rw [← hfixed.1, ← hfixed.2] at hclient
  have hmet : TornadoHttp2.Ends 0 s.conn.log c.conn.log := .of_grows hmeets.log fun e he => by
    rcases he with rfl | ⟨size, rfl⟩ | rfl <;> rfl
  -- the first terminal call, if the stream has had none
  have first (hnone : (logOf frame.streamId s.conn.log).any Event.isTerminal = false) {c' : Ctx}
      (hstream : c'.self.streamId = c.self.streamId) (hends : c.Ends 1 c') :
      EndsOnce c'.self (logOf c'.self.streamId c'.conn.log) := by
    have hzero : (logOf frame.streamId s.conn.log).countP Event.isTerminal = 0 :=
      List.countP_eq_zero.mpr fun e he => by simpa using List.any_eq_false.mp hnone e he
    have hbefore := hmet.logOf (i := frame.streamId)
    have hafter := TornadoHttp2.Ends.logOf hends (i := frame.streamId)
    rw [EndsOnce, hstream, hself]
    omega
  cases htype : frame.isContent with
  | true =>
    by_cases hover : IsClosed (logOf frame.streamId s.conn.log) = true ∨
        (logOf frame.streamId s.conn.log).any Event.isTerminal = true
    · rw [Stream.handleFrame_finished (hcontent htype hover) htype]
      exact h
    · obtain ⟨hopen, hnone⟩ := not_or.mp hover
      refine ⟨first (Bool.not_eq_true _ ▸ hnone) hacts.self (Stream.handleFrame_ends htype hclient), fun i hi => ?_⟩
      have hne : i ≠ frame.streamId := by
        rintro rfl
        exact hopen hi
      exact (h.2 i hi).trans (hacts.log.mono fun _ he hie => acts_delivers hne he hie)
  | false =>
    rcases (Stream.handleFrame_other htype : c.Uncalled ((Stream.handleFrame frame later).run c).2 ∨ _)
      with hlog | ⟨hreset, hlength, hstarted, hlog⟩
    · exact uncalled_own h hacts.self hlog
    · have hnone : (logOf frame.streamId s.conn.log).any Event.isTerminal = false := by
        by_contra hany
        have := hrst hreset hlength (by simpa using hany)
        rw [hstarted] at this
        cases this
      have hends : c.Ends 1 ((Stream.handleFrame frame later).run c).2 := ⟨_, hlog, List.countP_le_length⟩
      refine ⟨first hnone hacts.self hends, fun i hi => (h.2 i hi).trans ⟨_, hlog, ?_⟩⟩
      rintro e he -
      obtain rfl := List.mem_singleton.mp he
      rfl

theorem WellFormed.endsOnce (hw : WellFormed s) (h : s.All EndsOnce) (hcond : s.FinishesClosed a) :
    s.DeliversWhileOpen a ∧ (s.step a).All EndsOnce := by
  have hstart : s.Delivers s.conn := fun _ _ => .refl
  have hstep := System.All.step (a := a) stable_endsOnce hw h hstart ?_ ?_ ?_
  · exact ⟨hstep.2, hstep.1⟩
  · rintro frame later c rfl - - - hQ
    refine hQ.grows ((Conn.handleFrame_connOnly frame c trivial).2.log.mono fun e he => ?_)
    cases e with
    | called => exact he.1.2.elim
    | _ => rfl
  · rintro frame later c rfl hreads hid hmeets hself hown
    exact handleFrame_own hcond hreads hid hmeets hself hown
  · intro i m self ha hself hid hown
    have hacts := (Stream.method_acts ha ⟨s.conn, self⟩ hid).2
    refine uncalled_own hown hacts.self ?_
    rcases Stream.method_sends ha with hsends | ⟨k, rfl⟩
    · refine (hsends i ⟨s.conn, self⟩ hid).2.log.mono fun e he => ?_
      cases e with
      | called => exact he.elim
      | _ => rfl
    · exact Stream.resolveData_uncalled

theorem WellFormed.endsOnce_all (hw : WellFormed s) (h : s.All EndsOnce) (i : Nat) :
    (logOf i s.conn.log).countP Event.isTerminal ≤ 1 := by
  cases hself : s.streams i with
  | some self => exact h hself
  | none =>
    have hnone : (logOf i s.conn.log).countP Event.isTerminal = 0 := List.countP_eq_zero.mpr fun e he => by
      obtain ⟨hmem, hid⟩ := mem_logOf.mp he
      cases e with
      | called =>
        by_cases hi : i = 0
        · exact (hw.ofConn _ hmem (hid.trans hi)).elim
        · exact (hw.absent hi hself _ hmem hid).elim
      | _ => simp [Event.isTerminal]
    omega

end System

/-- As long as the frames of a message find every closed stream finished, nothing
is delivered on a closed stream, and no delegate has two last calls. -/
theorem nothing_after_close {isClient : Bool} {params : Params} {actions : List System.Action}
    (h : Runs.Along System.step System.FinishesClosed (System.start isClient params) actions) :
    Runs.Along System.step System.DeliversWhileOpen (System.start isClient params) actions ∧
      ∀ i, (logOf i ((System.start isClient params).run actions).conn.log).countP Event.isTerminal ≤ 1 := by
  have hw := System.WellFormed.start isClient params
  have hends : (System.start isClient params).All System.EndsOnce := by
    intro i self hself
    simp [System.start] at hself
  revert h hw hends
  generalize System.start isClient params = s
  induction actions generalizing s with
  | nil => exact fun _ hw hends => ⟨trivial, fun i => hw.endsOnce_all hends i⟩
  | cons a actions ih =>
    intro h hw hends
    obtain ⟨hdelivers, hends'⟩ := hw.endsOnce hends h.1
    obtain ⟨hrest, hcount⟩ := ih _ h.2 (hw.step a) hends'
    exact ⟨⟨hdelivers, hrest⟩, hcount⟩

/-- A request with a body and one DATA frame too many. -/
def System.finishedActions : List System.Action :=
  [.receive (requestFrame 1 0x4) false, .receive ⟨.data, 0x1, 1, [1, 2, 3]⟩ false,
    .receive ⟨.data, 0, 1, [4]⟩ false, .receive ⟨.rstStream, 0, 1, [0, 0, 0, 8]⟩ false]

theorem nothing_after_close_finished :
    Runs.Along System.step System.DeliversWhileOpen (System.start false (.new none .caseless)) System.finishedActions ∧
      ∀ i, (logOf i ((System.start false (.new none .caseless)).run System.finishedActions).conn.log).countP
        Event.isTerminal ≤ 1 :=
  nothing_after_close (by decide +kernel)

/-- A request that the peer resets. -/
def System.peerResetActions : List System.Action :=
  [.receive (requestFrame 1 0x4) false, .receive ⟨.rstStream, 0, 1, [0, 0, 0, 8]⟩ false]

theorem delivers_after_close : ¬ ∀ isClient params actions,
    Runs.Along System.step System.DeliversWhileOpen (System.start isClient params) actions := by
  intro h
  have hfacts : let s := (System.start false (.new none .caseless)).run System.peerResetActions
      IsClosed (logOf 1 s.conn.log) = true ∧ .called 1 (.dataReceived [1, 2, 3]) ∈
        (s.step (.receive ⟨.data, 0, 1, [1, 2, 3]⟩ false)).conn.log.drop s.conn.log.length := by
    decide +kernel
  obtain ⟨-, hdelivers, -⟩ := Runs.along_append.mp (h false (.new none .caseless)
    (System.peerResetActions ++ [.receive ⟨.data, 0, 1, [1, 2, 3]⟩ false]))
  revert hfacts hdelivers
  rw [System.run]
  generalize System.peerResetActions.foldl System.step (System.start false (.new none .caseless)) = s
  rintro ⟨hclosed, hcalled⟩ hdelivers
  obtain ⟨es, hes, hnone⟩ := hdelivers 1 hclosed
  rw [hes, List.drop_left] at hcalled
  exact absurd (hnone _ hcalled rfl) (by decide)

end TornadoHttp2
