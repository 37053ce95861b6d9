import TornadoHttp2.ReceiveEffects

/-! The errors that a frame can cause. The payload of a GOAWAY frame ends with
the message of the error, so the messages bound its length. -/

namespace TornadoHttp2

open Prog

/-- The message, if there is one, has at most 64 characters. -/
def PyException.isShort : PyException → Prop
  | connectionError _ (some text) => text.length ≤ 64
  | _ => True

/-- Neither a `ConnectionError` nor a `StreamError`. -/
def PyException.isLocal : PyException → Prop
  | connectionError .. => False
  | streamError .. => False
  | _ => True

theorem PyException.isLocal.isShort {e : PyException} (h : e.isLocal) : e.isShort := by
  cases e with
  | connectionError | streamError => exact h.elim
  | _ => trivial

/-- A program whose errors have short messages. -/
abbrev Terse {σ α : Type} (m : Prog σ PyException α) : Prop := Raises PyException.isShort m

/-- A program that raises no error of the protocol. -/
abbrev Local {σ α : Type} (m : Prog σ PyException α) : Prop := Raises PyException.isLocal m

theorem Local.terse {σ α : Type} {m : Prog σ PyException α} (h : Local m) : Terse m := h.mono fun _ => (·.isShort)

abbrev TerseResult {α : Type} (r : Except PyException α) : Prop := Terse (ofExcept r : Prog Unit PyException α)

abbrev LocalResult {α : Type} (r : Except PyException α) : Prop := Local (ofExcept r : Prog Unit PyException α)

theorem LocalResult.error {α : Type} {r : Except PyException α} (h : LocalResult r) {e : PyException}
    (hr : r = .error e) : e.isLocal := by
  subst hr
  exact h ()

/-- What a computation raises, the programs that run it raise. -/
theorem program {P : PyException → Prop} {σ α : Type} {r : Except PyException α}
    (h : Raises P (ofExcept r : Prog Unit PyException α)) : Raises P (ofExcept r : Prog σ PyException α) := by
  cases r with
  | ok a => exact .pure a
  | error e => exact .raise (h ())

section

variable {i : Nat} {headers : HTTPHeaders (Option Bytes)} {name : Bytes}

theorem nativeStr_local : ∀ {v}, LocalResult (nativeStr v)
  | none => .pure _
  | some s => by
    rw [nativeStr]
    split
    · exact .pure _
    · exact .raise trivial

theorem int_local {s : Bytes} : LocalResult (int s) := by
  rw [int]
  unfold asciiInt
  dsimp only
  split
  · exact .pure _
  · exact .raise trivial

theorem HTTPHeaders.add_local {u : Unicode} {v : Option Bytes} : LocalResult (headers.add u name v) := by
  unfold HTTPHeaders.add
  dsimp only
  split
  · exact .pure _
  · split
    · exact .pure _
    · exact .raise trivial

theorem HTTPHeaders.get_local : LocalResult (headers.get name) := by
  rw [HTTPHeaders.get]
  split
  · exact .raise trivial
  · exact .pure _
  · exact .pure _

theorem HTTPHeaders.getInt_local : LocalResult (headers.getInt name) := by
  refine .ofExcept_bind get_local fun v => ?_
  cases v with
  | none => exact .raise trivial
  | some v => exact int_local

theorem Frame.withoutPadding_terse {frame : Frame} : TerseResult frame.withoutPadding := by
  rw [withoutPadding]
  split
  · split
    · exact .raise trivial
    · dsimp only
      split
      · split
        · exact .raise (by decide : "invalid padding length".length ≤ 64)
        · exact .raise trivial
      · exact .pure _
  · exact .pure _

end

theorem Conn.writeFrame_local {frame : Frame} : Local (Conn.writeFrame frame) :=
  .bind (.check trivial) fun _ => .get_bind fun _ => .bind (.check trivial) fun _ => .modify

namespace Stream

open Ctx

variable {u : Unicode} {isClient : Bool} {i : Nat} {p : ParsedHeaders} {frame : Frame}

theorem addHeader_terse {header : Bytes × Option Bytes × HeaderIndexMode} :
    TerseResult (addHeader u isClient i p header) := by
  obtain ⟨k, v, mode⟩ := header
  rw [addHeader]
  split
  · exact .raise trivial
  · split
    · rw [addPseudoHeader]
      split
      · exact .raise trivial
      · refine .ofExcept_bind nativeStr_local.terse fun value => ?_
        dsimp only
        split
        · exact .ofExcept_bind HTTPHeaders.add_local.terse fun _ => .pure _
        · exact .pure _
    · exact .ofExcept_bind nativeStr_local.terse fun _ => .ofExcept_bind nativeStr_local.terse fun _ =>
        .ofExcept_bind HTTPHeaders.add_local.terse fun _ => .pure _

theorem addHeaders_terse {headers : List (Bytes × Option Bytes × HeaderIndexMode)} :
    TerseResult (addHeaders u isClient i p headers) := by
  induction headers generalizing p with
  | nil => exact .pure _
  | cons header rest ih =>
    have hheader : TerseResult (addHeader u isClient i p header) := addHeader_terse
    rw [addHeaders]
    cases h : addHeader u isClient i p header with
    | ok p => exact ih
    | error e =>
      rw [h] at hheader
      exact hheader

theorem pseudoHeader_local {key : Bytes} : LocalResult (pseudoHeader p key) := by
  rw [pseudoHeader]
  split
  · exact .pure _
  · exact .raise trivial

theorem statusCode_local : LocalResult (statusCode p) := by
  refine .ofExcept_bind pseudoHeader_local fun v => ?_
  cases v with
  | none => exact .raise trivial
  | some v => exact int_local

theorem readStartLine_terse : Terse (readStartLine p) :=
  .get_bind fun _ => .ite (.bind (program statusCode_local.terse) fun _ => .pure _)
    (.bind (.check trivial) fun _ => .bind (program pseudoHeader_local.terse) fun _ =>
      .bind (program pseudoHeader_local.terse) fun _ => .bind .modify fun _ => .pure _)

theorem isBodilessResponse_terse : ∀ {startLine}, Terse (isBodilessResponse startLine)
  | .request _ _ => .get_bind fun _ => .pure _
  | .response _ => .get_bind fun c => match c.self.requestStartLine with
    | none => .raise trivial
    | some _ => .pure _

theorem setIncomingContent_terse {startLine : StartLine (Option Bytes)}
    {headers : HTTPHeaders (Option Bytes)} :
    Terse (setIncomingContent startLine headers) :=
  .bind isBodilessResponse_terse fun _ => .ite .modify
    (.ite (.bind (program HTTPHeaders.getInt_local.terse) fun _ => .modify) (.pure _))

theorem emit_local {e : Event} : Local (emit e) := fun _ => trivial

theorem callDelegate_local {call : DelegateCall} : Local (callDelegate call) :=
  .get_bind fun _ => .bind (.check trivial) fun _ => emit_local

theorem startRequest_terse : Terse (startRequest p) :=
  .get_bind fun _ => .bind (.check (by decide : "connection header should not be present".length ≤ 64))
    fun _ => .bind (.check trivial) fun _ => .bind readStartLine_terse fun _ =>
      .bind setIncomingContent_terse fun _ => .bind (.when .modify) fun _ =>
        .bind .modify fun _ => callDelegate_local.terse

theorem stripPriority_terse {data : Bytes} : Terse (stripPriority frame data) :=
  .ite (.bind (.check trivial) fun _ =>
    .bind (.check (by decide : "stream cannot depend on itself".length ≤ 64)) fun _ => .pure _) (.pure _)

theorem decodeHeaders_terse {data : Bytes} : Terse (decodeHeaders data) :=
  .bind emit_local.terse fun _ => .get_bind fun c => by
    rcases c.conn.hpackDecoder.decode c.conn.huffmanTree data with ⟨_ | _, _, _⟩
    · exact .bind (.zoom .modify) fun _ => .raise trivial
    · exact .bind (.zoom .modify) fun _ => .pure _

theorem maybeEndStream_terse : Terse (maybeEndStream frame) :=
  .ite (.get_bind fun _ => .bind (.check trivial) fun _ =>
    .bind (.when (.bind .modify fun _ => callDelegate_local.terse)) fun _ => .bind .modify fun _ => .pure _) (.pure _)

theorem parseBlock_terse {data : Bytes} : Terse (parseBlock frame data) :=
  .bind stripPriority_terse fun _ => .bind decodeHeaders_terse fun _ => .get_bind fun _ =>
    .bind (program addHeaders_terse) fun _ => .bind (.when startRequest_terse) fun _ =>
      .bind maybeEndStream_terse fun _ => .get_bind fun _ => .check trivial

theorem parseHeaders_terse : Terse parseHeaders := .get_bind fun c => match c.self.headerFrames with
  | [] => .raise trivial
  | _ :: _ => .bind .modify fun _ => parseBlock_terse

theorem writeFrame_local : Local (writeFrame frame) := by
  unfold writeFrame onConn
  exact .zoom Conn.writeFrame_local

theorem sendWindowUpdate_local {amount : Nat} : Local (sendWindowUpdate amount) :=
  .get_bind fun _ => .bind (.check trivial) fun _ => .bind writeFrame_local fun _ => writeFrame_local

theorem handleDataFrame_terse {later : Bool} : Terse (handleDataFrame frame later) := by
  have count {data : Bytes} : Terse (countIncoming data) :=
    .get_bind fun c => match c.self.incomingContentRemaining with
      | none => .pure _
      | some _ => .bind .modify fun _ => .check trivial
  have deliver {data : Bytes} : Terse (deliverData later data) :=
    .bind callDelegate_local.terse fun _ => .ite .modify sendWindowUpdate_local.terse
  exact .get_bind fun _ => .bind (.check (by decide : "DATA without END_HEADERS".length ≤ 64)) fun _ =>
    .bind (.check (by decide : "DATA after trailers".length ≤ 64)) fun _ => .bind .modify fun _ =>
      .bind (program Frame.withoutPadding_terse) fun _ => .bind count fun _ => .bind (.when deliver) fun _ =>
        .bind maybeEndStream_terse fun _ => .pure _

/-! The response of `_check_header_length` raises what the calls of the
application raise. -/

theorem reset_local : Local reset := .get_bind fun _ => writeFrame_local

theorem resetOnError_local {m : OnStream Unit} (h : Local m) : Local (resetOnError m) :=
  .catching h fun _ he => .bind reset_local fun _ => .raise he

theorem runCallback_local : ∀ {callback}, Local (runCallback callback)
  | none => .get_bind fun _ => .pure _
  | some _ => .get_bind fun _ => emit_local

theorem resume_local {flushed : Bool} : Local (resume flushed) := .get_bind fun c => by
  have tryReset : Local (catching reset fun _ => pure ()) := .catching reset_local fun _ _ => .pure _
  rcases c.self.writeLock.owner with _ | ⟨⟨chunk, callback⟩ | _, point⟩ | _
  · exact .pure _
  · have hany : Raises (fun _ => True) (resumeChunk flushed chunk callback point) := fun _ => by
      rw [wp]
      split <;> trivial
    exact .catching hany fun _ _ => .bind .modify fun _ => tryReset
  · exact .get_bind fun _ => .bind (.catching writeFrame_local fun _ _ => tryReset) fun _ => .modify
  · exact .pure _

theorem acquire_local {job : Job} : Local (acquire job) :=
  .get_bind fun _ => .ite (.bind .modify fun _ => resume_local) .modify

theorem write_local {chunk : Bytes} {callback : Option Nat} : Local (write chunk callback) := by
  have count : Local (countOutgoing chunk) := .get_bind fun c => match c.self.outgoingContentRemaining with
    | none => .pure _
    | some _ => .bind .modify fun _ => .check trivial
  exact resetOnError_local (.get_bind fun _ => .bind (.when count) fun _ => .bind emit_local fun _ =>
    .ite runCallback_local acquire_local)

theorem setOutgoingContent_local {startLine : StartLine Bytes} {headers : HTTPHeaders Bytes} :
    Local (setOutgoingContent startLine headers) := by
  have declare {length : Int} : Local (declare length) := .get_bind fun _ => .bind .modify fun _ => emit_local
  have bodiless : Local (isBodiless startLine) := .get_bind fun c => .ite (.pure _) <|
    match c.self.requestStartLine with
    | none => .raise trivial
    | some _ => .ite (.pure _) <| match startLine with
      | .response _ => .pure _
      | .request _ _ => .raise trivial
  exact .bind bodiless fun _ => .ite declare
    (.ite (.bind (program HTTPHeaders.getInt_local) fun _ => declare) (.pure _))

theorem pseudoHeaderList_local {startLine : StartLine Bytes} : Local (pseudoHeaderList startLine) :=
  .get_bind fun c => by
    rcases c.conn.isClient <;> rcases startLine with ⟨method, path⟩ | code
    · exact .raise trivial
    · exact .pure _
    · exact .bind .modify fun _ => .pure _
    · exact .bind .modify fun _ => .raise trivial

/-- The encoder raises an `IndexError` or an `AssertionError` at most. -/
theorem encode_local {headerList : List (Bytes × Bytes × HeaderIndexMode)} :
    Local (HpackEncoder.encode headerList) := by
  have gcFrom (limit : Nat) (oldestFirst : List (Bytes × Bytes)) (size : Int) :
      LocalResult (DynamicTable.gcFrom limit oldestFirst size).1 := by
    induction oldestFirst generalizing size with
    | nil =>
      rw [DynamicTable.gcFrom]
      split
      · exact .raise trivial
      · exact .pure _
    | cons entry rest ih =>
      rw [DynamicTable.gcFrom]
      split
      · exact ih _
      · exact .pure _
  have add {k v : Bytes} : Local (DynamicTable.add k v) :=
    .bind .modify fun _ => .bind .modify fun _ => fun t => by
      have h := gcFrom t.limit t.entries.reverse t.size ()
      rw [wp]
      simp only [DynamicTable.gc]
      cases hr : (DynamicTable.gcFrom t.limit t.entries.reverse t.size).1 with
      | ok => trivial
      | error e =>
        rw [hr] at h
        exact h
  have writeBytes {e : BitEncoder} {s : Bytes} : LocalResult (e.writeString s) := by
    rw [BitEncoder.writeString]
    split
    · exact .pure _
    · exact .raise trivial
  have writeString {e : BitEncoder} {s : Bytes} : Local (HpackEncoder.writeString e s) :=
    .get_bind fun _ => (program writeBytes)
  have writeMode {e : BitEncoder} {k v : Bytes} (mode) : Local (HpackEncoder.writeMode e k v mode) := by
    cases mode with
    | yes =>
      unfold HpackEncoder.writeMode HpackEncoder.addToDynamicTable
      exact .bind (.zoom add) fun _ => .pure _
    | never => exact .pure _
    | no => exact .pure _
  have writeHeader {e : BitEncoder} {k v : Bytes} {mode : HeaderIndexMode} :
      Local (HpackEncoder.writeHeader e k v mode) := by
    unfold HpackEncoder.writeHeader
    refine .get_bind fun enc => ?_
    split
    · exact .pure _
    · refine .bind (writeMode mode) fun e => .get_bind fun enc => ?_
      dsimp only
      split
      · exact .bind (.pure _) fun _ => writeString
      · exact .bind writeString fun _ => writeString
  have loop {e : BitEncoder} : Local (HpackEncoder.encodeLoop e headerList) := by
    induction headerList generalizing e with
    | nil => exact .pure _
    | cons header rest ih => exact .bind writeHeader fun _ => ih
  exact .bind loop fun _ => .pure _

theorem writeHeaders_local {startLine : StartLine Bytes} {headers : HTTPHeaders Bytes} {chunk : Bytes}
    {callback : Option Nat} : Local (writeHeaders startLine headers chunk callback) := by
  have encode {headerList : List (Bytes × Bytes × HeaderIndexMode)} : Local (encodeHeaders headerList) := by
    unfold encodeHeaders onConn
    exact .zoom (.zoom encode_local)
  exact resetOnError_local (.get_bind fun _ => .bind emit_local fun _ => .bind setOutgoingContent_local fun _ =>
    .bind pseudoHeaderList_local fun _ => .bind (.get_bind fun _ => .pure _) fun _ =>
      .bind encode fun _ => .bind writeFrame_local fun _ => write_local)

theorem finish_local : Local finish :=
  resetOnError_local (.get_bind fun _ => .bind emit_local fun _ => .bind (.check trivial) fun _ => acquire_local)

/-! The frame handlers. -/

theorem applyWindowUpdate_terse : Terse (Window.applyWindowUpdate frame) := by
  have raiseError {α : Type} {code : ErrorCode} {message : String} (h : message.length ≤ 64) :
      Terse (Window.raiseError code message : Prog Window PyException α) := .get_bind fun w => by
    rcases w.streamId with _ | _
    · exact .raise h
    · exact .raise trivial
  rw [Window.applyWindowUpdate]
  cases unpackWord frame.data with
  | error e => exact .raise (by decide : "WINDOW_UPDATE incorrect size".length ≤ 64)
  | ok n =>
    refine .bind (.when (raiseError (by decide))) fun _ => .bind ?_ fun _ => .pure _
    exact .bind .modify fun _ => .get_bind fun _ => .bind (.when (raiseError (by decide))) fun _ => .modify

theorem appendHeaderFrame_terse : Terse (appendHeaderFrame frame) := by
  refine .bind .modify fun _ => .bind ?_ fun _ => .when parseHeaders_terse
  exact .get_bind fun _ => .when (.ite callDelegate_local.terse
    (.bind .modify fun _ => .bind writeHeaders_local.terse fun _ => finish_local.terse))

theorem handleFrame_terse {later : Bool} : Terse (handleFrame frame later) := .get_bind fun c => by
  cases frame.type with
  | priority => exact .get_bind fun _ => .check trivial
  | rstStream => exact .get_bind fun _ => .bind (.check trivial) fun _ => .when callDelegate_local.terse
  | windowUpdate =>
    unfold handleWindowUpdateFrame
    exact .get_bind fun _ => .bind (.zoom applyWindowUpdate_terse) fun _ => emit_local.terse
  | settings | goaway | pushPromise => exact .raise trivial
  | ping | unknown => exact .bind (.check trivial) fun _ => .pure _
  | data => exact .bind (.check trivial) fun _ => handleDataFrame_terse
  | headers =>
    exact .bind (.check trivial) fun _ => .get_bind fun _ => .bind (.when .modify) fun _ =>
      .bind (program Frame.withoutPadding_terse) fun _ => appendHeaderFrame_terse
  | continuation =>
    exact .bind (.check trivial) fun _ => .get_bind fun _ =>
      .bind (.check (by decide : "CONTINUATION without HEADERS".length ≤ 64)) fun _ => appendHeaderFrame_terse

end Stream

namespace Conn

theorem applySettings_terse : ∀ data, Terse (applySettings data)
  | [] => .pure _
  | b₀ :: b₁ :: b₂ :: b₃ :: b₄ :: b₅ :: data => by
    have refused {code value : Nat} : ∀ e, refusedSetting code value = some e → e.isShort := by
      intro e he
      unfold refusedSetting at he
      repeat' split at he
      all_goals cases he
      all_goals
        change String.length _ ≤ 64
        decide
    unfold applySettings
    cases hrefused : refusedSetting (unpackBytes [b₀, b₁]) (unpackBytes [b₂, b₃, b₄, b₅]) with
    | some e =>
      simp only [hrefused]
      exact .raise (refused e hrefused)
    | none =>
      simp only [hrefused]
      exact .bind .modify fun _ => applySettings_terse data
  | [_] | [_, _] | [_, _, _] | [_, _, _, _] | [_, _, _, _, _] =>
    .raise (by decide : "SETTINGS frames must be multiples of 6 bytes".length ≤ 64)

theorem handleFrame_terse {frame : Frame} : Terse (handleFrame frame) := by
  unfold handleFrame
  cases frame.type with
  | settings =>
    exact .ite (.check (by decide : "SETTINGS ACK must be empty".length ≤ 64))
      (.bind (applySettings_terse _) fun _ => writeFrame_local.terse)
  | windowUpdate =>
    unfold handleWindowUpdateFrame
    exact .bind (.zoom Stream.applyWindowUpdate_terse) fun _ => .modify
  | ping => exact .ite (.pure _) (.bind (.check trivial) fun _ => writeFrame_local.terse)
  | goaway => exact .bind .modify fun _ => .raise trivial
  | unknown => exact .pure _
  | _ => exact .raise (by decide : (_ : String).length ≤ 64)

end Conn

end TornadoHttp2
