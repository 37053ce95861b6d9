import TornadoHttp2.Effects

/-! The sending half of a stream. Whatever its elementary operations keep, the
functions made of them keep; in particular they leave the receiving half alone. -/

namespace TornadoHttp2

namespace Event

/-- The events of a sending half that are not frames. -/
def ofSendingState (i : Nat) (e : Event) : Prop := e.ofSending i ∧ ∀ frame, e ≠ .wrote frame

/-- The frames that a sending half writes, header blocks apart. -/
def ofSendingFrame (i : Nat) (frame : Frame) : Prop :=
  frame.streamId = i ∧ (frame.type = .data ∨ frame = ⟨.rstStream, 0, i, [0, 0, 0, 0]⟩)

end Event

namespace Stream

open Prog Ctx

/-- What keeps the elementary operations of the sending half, header blocks apart. -/
structure KeepsSending (i : Nat) (I : Ctx → Prop) (R : Ctx → Ctx → Prop) : Prop where
  self {c : Ctx} : I c → c.self.streamId = i
  set {f : Stream → Stream} : (∀ s, (f s).receiving = s.receiving) → Keeps I R (setSelf f)
  window (f : Conn → Window) : Keeps I R (onConn (modify fun conn => { conn with window := f conn }))
  emit {e : Event} : e.ofSendingState i → Keeps I R (emit e)
  frame {frame : Frame} : Event.ofSendingFrame i frame → Keeps I R (writeFrame frame)

namespace KeepsSending

variable {i : Nat} {I : Ctx → Prop} {R : Ctx → Ctx → Prop} [Std.Refl R] [IsTrans Ctx R]

section

variable (h : KeepsSending i I R)

include h

omit [Std.Refl R] [IsTrans Ctx R] in
theorem reset : Keeps I R reset :=
  .get_bind fun _ hc => h.frame ⟨h.self hc, .inr (by rw [h.self hc])⟩

theorem resetOnError {m : OnStream Unit} (hm : Keeps I R m) : Keeps I R (resetOnError m) :=
  .catching hm fun _ => .bind h.reset fun _ => .raise _

theorem tryReset : Keeps I R (catching Stream.reset fun _ => pure ()) := .catching h.reset fun _ => .pure _

omit [Std.Refl R] [IsTrans Ctx R] in
theorem setOwner {owner : Owner} : Keeps I R (setOwner owner) := h.set fun _ => rfl

omit [Std.Refl R] [IsTrans Ctx R] in
theorem release : Keeps I R release := h.set fun _ => rfl

theorem consumeParent {amount : Int} : Keeps I R (consumeParent amount) :=
  .get_bind fun _ hc => .ite (fun _ => .pure _) fun _ =>
    .bind .check fun _ =>
      .bind (h.window _) fun _ => .bind (h.emit ⟨h.self hc, nofun⟩) fun _ => .pure _

theorem consume {amount : Int} : Keeps I R (consume amount) :=
  .get_bind fun _ _ => .ite (fun _ => .pure _) fun _ => .bind .check fun _ => h.consumeParent

omit [IsTrans Ctx R] in
theorem runCallback {callback : Option Nat} : Keeps I R (runCallback callback) :=
  .get_bind fun _ hc => match callback with
    | none => .pure _
    | some _ => h.emit ⟨h.self hc, nofun⟩

theorem writeChunkLoop {chunk : Bytes} {callback : Option Nat} : Keeps I R (writeChunkLoop chunk callback) :=
  .ite (fun _ => .bind h.release fun _ => h.runCallback)
    fun _ => .bind h.consume fun _ => h.setOwner

theorem resumeChunk {flushed : Bool} {chunk : Bytes} {callback : Option Nat} :
    ∀ point, Keeps I R (resumeChunk flushed chunk callback point)
  | .lock => h.writeChunkLoop
  | .flush => .get_bind fun _ _ => .bind .check fun _ => h.writeChunkLoop
  | .cond _ => .get_bind fun _ _ => .when fun _ => h.writeChunkLoop
  | .parentCond _ _ => .get_bind fun _ _ => .when fun _ =>
      .bind h.consumeParent fun _ => h.setOwner
  | .parent _ => .get_bind fun _ hc => .bind (h.set fun _ => rfl) fun _ =>
      .bind (h.emit ⟨h.self hc, nofun⟩) fun _ => h.setOwner
  | .consume _ => .get_bind fun _ hc =>
      .bind (h.frame ⟨h.self hc, .inl rfl⟩) fun _ => h.setOwner

theorem resumeEndStream : Keeps I R resumeEndStream :=
  .get_bind fun _ hc =>
    .bind (.catching (h.frame ⟨h.self hc, .inl rfl⟩) fun _ => h.tryReset) fun _ => h.release

theorem resume {flushed : Bool} : Keeps I R (resume flushed) := .get_bind fun c _ => by
  rcases c.self.writeLock.owner with _ | ⟨_ | _, point⟩ | _
  · exact .pure _
  · exact .catching (h.resumeChunk point) fun _ => .bind h.setOwner fun _ => h.tryReset
  · exact h.resumeEndStream
  · exact .pure _

theorem acquire {job : Job} : Keeps I R (acquire job) :=
  .get_bind fun _ _ => .ite (fun _ => .bind h.setOwner fun _ => h.resume)
    fun _ => h.set fun _ => rfl

theorem writeChunk {chunk : Bytes} {callback : Option Nat} : Keeps I R (writeChunk chunk callback) :=
  .ite (fun _ => h.runCallback) fun _ => h.acquire

theorem countOutgoing {chunk : Bytes} : Keeps I R (countOutgoing chunk) :=
  .get_bind fun c _ => match c.self.outgoingContentRemaining with
    | none => .pure _
    | some _ => .bind (h.set fun _ => rfl) fun _ => .check

theorem write {chunk : Bytes} {callback : Option Nat} : Keeps I R (Stream.write chunk callback) :=
  h.resetOnError (.get_bind fun _ hc => .bind (.when fun _ => h.countOutgoing) fun _ =>
    .bind (h.emit ⟨h.self hc, nofun⟩) fun _ => h.writeChunk)

omit [Std.Refl R] in
theorem declare {length : Int} : Keeps I R (declare length) :=
  .get_bind fun _ hc => .bind (h.set fun _ => rfl) fun _ => h.emit ⟨h.self hc, nofun⟩

omit h [IsTrans Ctx R] in
theorem isBodiless {startLine : StartLine Bytes} : Keeps I R (isBodiless startLine) :=
  .get_bind fun c _ => .ite (fun _ => .pure _) fun _ =>
    match c.self.requestStartLine with
    | none => .raise _
    | some _ => .ite (fun _ => .pure _) fun _ =>
      match startLine with
      | .response _ => .pure _
      | .request _ _ => .raise _

theorem setOutgoingContent {startLine : StartLine Bytes} {headers : HTTPHeaders Bytes} :
    Keeps I R (setOutgoingContent startLine headers) :=
  .bind isBodiless fun _ => .ite (fun _ => h.declare) fun _ =>
    .ite (fun _ => .bind (.ofExcept _) fun _ => h.declare) fun _ => .pure _

theorem pseudoHeaderList {startLine : StartLine Bytes} : Keeps I R (pseudoHeaderList startLine) :=
  .get_bind fun c _ => by
    rcases c.conn.isClient <;> rcases startLine with ⟨method, path⟩ | code
    · exact .raise _
    · exact .pure _
    · exact .bind (h.set fun _ => rfl) fun _ => .pure _
    · exact .bind (h.set fun _ => rfl) fun _ => .raise _

omit h [IsTrans Ctx R] in
theorem regularHeaderList {headers : List (Bytes × Bytes)} : Keeps I R (regularHeaderList headers) :=
  .get_bind fun _ _ => .pure _

theorem finish : Keeps I R finish :=
  h.resetOnError (.get_bind fun _ hc => .bind (h.emit ⟨h.self hc, nofun⟩) fun _ =>
    .bind .check fun _ => h.acquire)

/-- All of `write_headers`, if a header block that is encoded and written at once
is kept, too. -/
theorem writeHeaders {startLine : StartLine Bytes} {headers : HTTPHeaders Bytes} {chunk : Bytes} {callback : Option Nat}
    (hblock : ∀ headerList, Keeps I R (do
      let data ← encodeHeaders headerList
      writeFrame ⟨.headers, FrameFlag.endHeaders.value, i, data⟩)) :
    Keeps I R (writeHeaders startLine headers chunk callback) := by
  refine h.resetOnError (.get_bind fun c hc => .bind (h.emit ⟨h.self hc, nofun⟩) fun _ =>
    .bind h.setOutgoingContent fun _ => .bind h.pseudoHeaderList fun pseudo =>
      .bind regularHeaderList fun regular => ?_)
  rw [← Prog.bind_assoc, h.self hc]
  exact .bind (hblock _) fun _ => h.write

end

end KeepsSending

variable {i : Nat}

theorem keepsSending_sends : KeepsSending i (fun c => c.self.streamId = i) (SendsOnly i) where
  self hc := hc
  set h := setSelf_sends h
  window _ _ hc := ⟨hc, rfl, rfl, .refl⟩
  emit h := emit_sends h.1
  frame h := writeFrame_sends ⟨h.1, .inr h.2⟩

theorem reset_sends : Sends i reset := keepsSending_sends.reset

theorem resume_sends {flushed : Bool} : Sends i (resume flushed) := keepsSending_sends.resume

theorem write_sends {chunk : Bytes} {callback : Option Nat} : Sends i (write chunk callback) :=
  keepsSending_sends.write

theorem writeHeaders_sends {startLine : StartLine Bytes} {headers : HTTPHeaders Bytes} {chunk : Bytes}
    {callback : Option Nat} : Sends i (writeHeaders startLine headers chunk callback) :=
  keepsSending_sends.writeHeaders fun _ => .bind (fun _ hc => ⟨hc, rfl, rfl, .refl⟩) fun _ =>
    writeFrame_sends ⟨rfl, .inl rfl⟩

theorem finish_sends : Sends i finish := keepsSending_sends.finish

/-- What `_check_header_length` of a server does with a block over the limit. -/
def refuse : OnStream Unit := do
  setSelf fun s => { s with requestStartLine := some (some (ascii "GET"), some (ascii "/")) }
  writeHeaders (.response 431) .empty [] none
  finish

theorem refuse_sends : Sends i refuse :=
  .bind (setSelf_sends fun _ => rfl) fun _ => .bind writeHeaders_sends fun _ => finish_sends

end Stream

end TornadoHttp2
