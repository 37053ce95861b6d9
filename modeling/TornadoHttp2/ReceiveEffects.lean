import TornadoHttp2.SendEffects

/-! The receiving half of a stream leaves the sending half alone, except where a
WINDOW_UPDATE arrives or where a server refuses an over-long header block. -/

namespace TornadoHttp2

namespace Stream

open Prog Ctx

/-- The attributes of a stream that the receiving half changes only where it
collects a header block or delivers data. -/
def kept (s : Stream) := (s.sending, s.headerFrames, s.pendingCredits)

/-! Whatever the elementary operations of the receiving half keep, the functions
made of them keep. -/

section

variable {I : Ctx → Prop} {R : Ctx → Ctx → Prop} [Std.Refl R] [IsTrans Ctx R]

omit [IsTrans Ctx R] in
theorem isBodilessResponse_keeps {startLine : StartLine (Option Bytes)} : Keeps I R (isBodilessResponse startLine) :=
  .get_bind fun c _ => match startLine with
    | .request _ _ => .pure _
    | .response _ => match c.self.requestStartLine with
      | none => .raise _
      | some _ => .pure _

theorem stripPriority_keeps {frame : Frame} {data : Bytes} : Keeps I R (stripPriority frame data) :=
  .ite (fun _ => .bind .check fun _ => .bind .check fun _ => .pure _) fun _ => .pure _

omit [IsTrans Ctx R] in
theorem handlePriorityFrame_keeps {frame : Frame} : Keeps I R (handlePriorityFrame frame) :=
  .get_bind fun _ _ => .check

theorem handleRstStreamFrame_keeps {frame : Frame}
    (hclose : Keeps I R (callDelegate .onConnectionClose)) : Keeps I R (handleRstStreamFrame frame) :=
  .get_bind fun _ _ => .bind .check fun _ => .when fun _ => hclose

variable (hset : ∀ f : Stream → Stream, (∀ s, (f s).kept = s.kept) → Keeps I R (setSelf f))

include hset

theorem maybeEndStream_keeps {frame : Frame} (hfinish : Keeps I R (callDelegate .finish)) :
    Keeps I R (maybeEndStream frame) :=
  .ite (fun _ => .get_bind fun _ _ => .bind .check fun _ =>
    .bind (.when fun _ => .bind (hset _ fun _ => rfl) fun _ => hfinish)
      fun _ => .bind (hset _ fun _ => rfl) fun _ => .pure _) fun _ => .pure _

theorem readStartLine_keeps {p : ParsedHeaders} : Keeps I R (readStartLine p) :=
  .get_bind fun _ _ => .ite (fun _ => .bind (.ofExcept _) fun _ => .pure _) fun _ =>
    .bind .check fun _ => .bind (.ofExcept _) fun _ => .bind (.ofExcept _) fun _ =>
      .bind (hset _ fun _ => rfl) fun _ => .pure _

theorem setIncomingContent_keeps {startLine : StartLine (Option Bytes)} {headers : HTTPHeaders (Option Bytes)} :
    Keeps I R (setIncomingContent startLine headers) :=
  .bind isBodilessResponse_keeps fun _ => .ite (fun _ => hset _ fun _ => rfl) fun _ =>
    .ite (fun _ => .bind (.ofExcept _) fun _ => hset _ fun _ => rfl) fun _ => .pure _

theorem startRequest_keeps {p : ParsedHeaders}
    (hheaders : ∀ startLine headers, Keeps I R (callDelegate (.headersReceived startLine headers))) :
    Keeps I R (startRequest p) :=
  .get_bind fun _ _ => .bind .check fun _ => .bind .check fun _ =>
    .bind (readStartLine_keeps hset) fun _ => .bind (setIncomingContent_keeps hset) fun _ =>
      .bind (.when fun _ => hset _ fun _ => rfl) fun _ =>
        .bind (hset _ fun _ => rfl) fun _ => hheaders _ _

theorem parseBlock_keeps {frame : Frame} {data : Bytes}
    (hdecode : ∀ data, Keeps I R (decodeHeaders data))
    (hheaders : ∀ startLine headers, Keeps I R (callDelegate (.headersReceived startLine headers)))
    (hfinish : Keeps I R (callDelegate .finish)) : Keeps I R (parseBlock frame data) :=
  .bind stripPriority_keeps fun _ => .bind (hdecode _) fun _ =>
    .get_bind fun _ _ => .bind (.ofExcept _) fun _ =>
      .bind (.when fun _ => startRequest_keeps hset hheaders) fun _ =>
        .bind (maybeEndStream_keeps hset hfinish) fun _ => .get_bind fun _ _ => .check

theorem countIncoming_keeps {data : Bytes} : Keeps I R (countIncoming data) :=
  .get_bind fun c _ => match c.self.incomingContentRemaining with
    | none => .pure _
    | some _ => .bind (hset _ fun _ => rfl) fun _ => .check

theorem handleDataFrame_keeps {frame : Frame} {later : Bool}
    (hdeliver : ∀ f, frame.withoutPadding = .ok f → f.data ≠ [] → Keeps I R (deliverData later f.data))
    (hfinish : Keeps I R (callDelegate .finish)) : Keeps I R (handleDataFrame frame later) := by
  refine .get_bind fun c _ => .bind .check fun _ => .bind .check fun _ => .bind (hset _ fun _ => rfl) fun _ => ?_
  cases hpadding : frame.withoutPadding with
  | error e => exact fun c hc => ⟨hc, refl c⟩
  | ok f =>
    have hrest : Keeps I R (do
        countIncoming f.data
        when (f.data ≠ [] ∧ c.self.delegateStarted = true) (deliverData later f.data)
        let _ ← maybeEndStream f) :=
      .bind (countIncoming_keeps hset) fun _ => .bind (.when fun h => hdeliver f hpadding h.1) fun _ =>
        .bind (maybeEndStream_keeps hset hfinish) fun _ => .pure _
    exact hrest

end

/-- What keeps the elementary operations of the receiving half, DATA frames
apart. -/
structure KeepsReceiving (I : Ctx → Prop) (R : Ctx → Ctx → Prop) : Prop where
  set (f : Stream → Stream) : (∀ s, (f s).kept = s.kept) → Keeps I R (setSelf f)
  frames (f : Stream → List Frame) : Keeps I R (setSelf fun s => { s with headerFrames := f s })
  decode (data : Bytes) : Keeps I R (decodeHeaders data)
  headers (startLine : StartLine (Option Bytes)) (headers : HTTPHeaders (Option Bytes)) :
    Keeps I R (callDelegate (.headersReceived startLine headers))
  finish : Keeps I R (callDelegate .finish)
  close : Keeps I R (callDelegate .onConnectionClose)

section

variable {I : Ctx → Prop} {R : Ctx → Ctx → Prop} [Std.Refl R] [IsTrans Ctx R] {frame : Frame}

theorem KeepsReceiving.parseHeaders (h : KeepsReceiving I R) : Keeps I R parseHeaders :=
  .get_bind fun c _ => match c.self.headerFrames with
    | [] => .raise _
    | _ :: _ => .bind (h.frames fun _ => []) fun _ => parseBlock_keeps h.set h.decode h.headers h.finish

/-- The two calls that refuse a header block are the application's. -/
theorem KeepsReceiving.appendHeaderFrame (h : KeepsReceiving I R)
    (hwrite : Keeps I R (writeHeaders (.response 431) .empty [] none)) (hfinish : Keeps I R Stream.finish) :
    Keeps I R (appendHeaderFrame frame) := by
  refine .bind (h.frames fun s => s.headerFrames ++ [frame]) fun _ => .bind ?_ fun _ =>
    .when fun _ => h.parseHeaders
  exact .get_bind fun _ _ => .when fun _ => .ite (fun _ => h.close) fun _ =>
    .bind (h.set _ fun _ => rfl) fun _ => .bind hwrite fun _ => hfinish

theorem KeepsReceiving.handleFrame (h : KeepsReceiving I R)
    (hwrite : Keeps I R (writeHeaders (.response 431) .empty [] none)) (hfinish : Keeps I R Stream.finish)
    (hupdate : frame.type = .windowUpdate → Keeps I R (handleWindowUpdateFrame frame)) {later : Bool}
    (hdata : frame.type = .data → Keeps I R (handleDataFrame frame later)) :
    Keeps I R (handleFrame frame later) := by
  have append (frame : Frame) : Keeps I R (Stream.appendHeaderFrame frame) := h.appendHeaderFrame hwrite hfinish
  refine .get_bind fun c _ => ?_
  cases htype : frame.type with
  | priority => exact handlePriorityFrame_keeps
  | rstStream => exact handleRstStreamFrame_keeps h.close
  | windowUpdate => exact hupdate htype
  | settings => exact .raise _
  | goaway => exact .raise _
  | pushPromise => exact .raise _
  | ping => exact .bind .check fun _ => .pure _
  | unknown => exact .bind .check fun _ => .pure _
  | data => exact .bind .check fun _ => hdata htype
  | headers =>
    exact .bind .check fun _ => .get_bind fun _ _ =>
      .bind (.when fun _ => h.set _ fun _ => rfl) fun _ => .bind (.ofExcept _) fun _ => append _
  | continuation =>
    exact .bind .check fun _ => .get_bind fun _ _ => .bind .check fun _ => append _

end

/-! The receiving half as a whole. -/

section

variable {i : Nat}

theorem callDelegate_receives {call : DelegateCall} : Receives i (callDelegate call) :=
  .get_bind fun _ hc => .bind .check fun _ => emit_receives hc

theorem sendWindowUpdate_receives {amount : Nat} : Receives i (sendWindowUpdate amount) :=
  .get_bind fun _ hc => .bind .check fun _ =>
    .bind (writeFrame_receives ⟨rfl, rfl, .inl rfl⟩) fun _ => writeFrame_receives ⟨rfl, rfl, .inr hc⟩

theorem decodeHeaders_receives {data : Bytes} : Receives i (decodeHeaders data) :=
  .bind (emit_receives trivial) fun _ => .get_bind fun c _ => by
    rcases c.conn.hpackDecoder.decode c.conn.huffmanTree data with ⟨_ | _, _, _⟩
    · exact .bind (fun _ hc => ⟨hc, rfl, rfl, .refl⟩) fun _ => .raise _
    · exact .bind (fun _ hc => ⟨hc, rfl, rfl, .refl⟩) fun _ => .pure _

theorem keepsReceiving_receives : KeepsReceiving (fun c => c.self.streamId = i) (ReceivesOnly i) where
  set _ h := setSelf_receives fun s => congrArg Prod.fst (h s)
  frames _ := setSelf_receives fun _ => rfl
  decode _ := decodeHeaders_receives
  headers _ _ := callDelegate_receives
  finish := callDelegate_receives
  close := callDelegate_receives

theorem parseHeaders_receives : Receives i parseHeaders := keepsReceiving_receives.parseHeaders

theorem deliverData_receives {later : Bool} {data : Bytes} : Receives i (deliverData later data) :=
  .bind callDelegate_receives fun _ =>
    .ite (fun _ => setSelf_receives fun _ => rfl) fun _ => sendWindowUpdate_receives

theorem handleDataFrame_receives {frame : Frame} {later : Bool} :
    Receives i (handleDataFrame frame later) :=
  handleDataFrame_keeps keepsReceiving_receives.set (fun _ _ _ => deliverData_receives) callDelegate_receives

theorem handleRstStreamFrame_receives {frame : Frame} : Receives i (handleRstStreamFrame frame) :=
  handleRstStreamFrame_keeps callDelegate_receives

theorem resolveData_receives {k : Nat} : Receives i (resolveData k) :=
  .get_bind fun c _ => match c.self.pendingCredits[k]? with
    | none => .pure _
    | some _ => .bind (setSelf_receives fun _ => rfl) fun _ => sendWindowUpdate_receives

/-- A frame handler keeps whatever the receiving half, the two calls that
refuse a header block, and the handler of WINDOW_UPDATE keep. -/
theorem handleFrame_keeps {I : Ctx → Prop} {R : Ctx → Ctx → Prop} [Std.Refl R] [IsTrans Ctx R] {frame : Frame}
    (hI : ∀ c, I c → c.self.streamId = i) (hreceives : ∀ c c', I c → ReceivesOnly i c c' → I c' ∧ R c c')
    (hwrite : Keeps I R (writeHeaders (.response 431) .empty [] none)) (hfinish : Keeps I R finish)
    (hupdate : frame.type = .windowUpdate → Keeps I R (handleWindowUpdateFrame frame)) {later : Bool} :
    Keeps I R (handleFrame frame later) := by
  have lift {α : Type} {m : OnStream α} (hm : Receives i m) : Keeps I R m :=
    fun c hc => hreceives c _ hc (hm c (hI c hc)).2
  have hkeeps : KeepsReceiving I R := by
    refine ⟨fun f h => ?_, fun f => ?_, fun _ => ?_, fun _ _ => ?_, ?_, ?_⟩
    · exact lift (keepsReceiving_receives.set f h)
    · exact lift (keepsReceiving_receives.frames f)
    · exact lift decodeHeaders_receives
    all_goals exact lift callDelegate_receives
  exact hkeeps.handleFrame hwrite hfinish hupdate fun _ => lift handleDataFrame_receives

end

theorem handleFrame_windowUpdate {frame : Frame} {later : Bool} {c : Ctx}
    (htype : frame.type = .windowUpdate) :
    (handleFrame frame later).run c = (handleWindowUpdateFrame frame).run c := by
  rw [handleFrame, run_get_bind, htype]

end Stream

end TornadoHttp2
