import TornadoHttp2.BlockWriting
import TornadoHttp2.FrameStream

/-! What `_write_frame` is called with, and what it writes: frames that `struct`
can pack, of the kinds that a stream and its connection make. -/

namespace TornadoHttp2

open Prog Ctx

/-- The four-byte fields of the header hold the length and the stream id. -/
structure Frame.Packs (f : Frame) : Prop where
  length : f.data.length < 2 ^ 31
  streamId : f.streamId < 2 ^ 31

/-- A frame as the program makes it. A block is never split, nothing is padded, and
only an empty DATA frame ends a stream. -/
def Frame.Regular (f : Frame) : Prop :=
  match f.type with
  | .data => f.flags = 0 ∨ f.flags = FrameFlag.endStream.value ∧ f.data = []
  | .headers => f.flags = FrameFlag.endHeaders.value
  | .rstStream | .windowUpdate => f.data.length = 4
  | .settings | .goaway => f.streamId = 0
  | .ping => f.streamId = 0 ∧ f.data.length ≤ 8
  | _ => False

theorem Frame.Regular.isMember {f : Frame} (h : f.Regular) : f.type.IsMember := by
  rw [Regular] at h
  split at h <;> simp_all [FrameType.IsMember]

def Event.writes (P : Frame → Prop) (e : Event) : Prop := ∀ f, e = .wrote f → P f

theorem Event.writes_wrote {P : Frame → Prop} {f : Frame} (h : P f) : (Event.wrote f).writes P := by
  rintro f' ⟨⟩
  exact h

theorem Grows.and {p q : Event → Prop} {log log' : List Event} (h : Grows p log log') (h' : Grows q log log') :
    Grows (fun e => p e ∧ q e) log log' := by
  obtain ⟨es, rfl, hp⟩ := h
  obtain ⟨es', heq, hq⟩ := h'
  obtain rfl := List.append_cancel_left heq
  exact ⟨es, rfl, fun e he => ⟨hp e he, hq e he⟩⟩

section

variable (P : Frame → Prop)

structure Conn.WritesOnly (c c' : Conn) : Prop where
  log : Grows (Event.writes P) c.log c'.log

instance : Std.Refl (Conn.WritesOnly P) := ⟨fun _ => ⟨.refl⟩⟩

instance : IsTrans Conn (Conn.WritesOnly P) := ⟨fun _ _ _ h h' => ⟨h.log.trans h'.log⟩⟩

/-- The relation between the connections of two states. -/
structure Ctx.WritesOnly (c c' : Ctx) : Prop where
  conn : c.conn.WritesOnly P c'.conn

instance : Std.Refl (Ctx.WritesOnly P) := ⟨fun _ => ⟨⟨.refl⟩⟩⟩

instance : IsTrans Ctx (Ctx.WritesOnly P) := ⟨fun _ _ _ h h' => ⟨⟨h.conn.log.trans h'.conn.log⟩⟩⟩

structure System.WritesOnly (s s' : System) : Prop where
  conn : s.conn.WritesOnly P s'.conn

instance : Std.Refl (System.WritesOnly P) := ⟨fun _ => ⟨⟨.refl⟩⟩⟩

instance : IsTrans System (System.WritesOnly P) := ⟨fun _ _ _ h h' => ⟨⟨h.conn.log.trans h'.conn.log⟩⟩⟩

end

/-- What is written: a proper frame can be packed and is regular. -/
structure Frame.Proper (f : Frame) : Prop where
  packs : f.Packs
  regular : f.Regular

/-! What can be packed. -/

namespace Conn

variable {P : Frame → Prop} {frame : Frame}

/-- What `struct` cannot pack is not written. -/
theorem writeFrame_writes (h : frame.Packs → P frame) : Keeps (fun _ => True) (WritesOnly P) (writeFrame frame) := by
  rw [Keeps.iff_wp]
  intro c _
  simp only [writeFrame, emit, wp_bind, wp_check, wp_get, wp_modify]
  refine ⟨fun _ => ⟨trivial, ⟨.refl⟩⟩, fun hpacks => ⟨fun _ => ⟨trivial, ⟨.refl⟩⟩, fun _ => ⟨trivial, ⟨.snoc ?_⟩⟩⟩⟩
  obtain ⟨hlength, hid⟩ := not_or.mp hpacks
  exact Event.writes_wrote (h ⟨not_le.mp hlength, not_le.mp hid⟩)

theorem handleFrame_proper : Keeps (fun _ => True) (WritesOnly Frame.Proper) (handleFrame frame) := by
  refine handleFrame_keeps (fun c f hid htype hlength _ => ⟨trivial, ⟨.snoc (Event.writes_wrote ?_)⟩⟩)
    (fun _ _ _ _ _ => ⟨trivial, ⟨.refl⟩⟩) (fun _ _ => ⟨trivial, ⟨.refl⟩⟩)
    fun _ => .bind (fun _ _ => ⟨trivial, ⟨.refl⟩⟩) fun _ => fun _ _ => ⟨trivial, ⟨.snoc nofun⟩⟩
  refine ⟨⟨Nat.lt_of_le_of_lt hlength (by decide), hid ▸ Nat.two_pow_pos 31⟩, ?_⟩
  rw [Frame.Regular]
  rcases htype with htype | htype <;> rw [htype]
  · exact hid
  · exact ⟨hid, hlength⟩

end Conn

namespace Ctx

theorem emit_writes {P : Frame → Prop} {I : Ctx → Prop}
    (hI : ∀ c e, I c → I (c.logged e)) {e : Event} (he : ∀ f, e ≠ .wrote f) :
    Keeps I (WritesOnly P) (emit e) := fun c hc => ⟨hI c e hc, ⟨⟨.snoc fun f h => absurd h (he f)⟩⟩⟩

theorem writeFrame_packs {i : Nat} {frame : Frame} :
    Keeps (fun c : Ctx => c.self.streamId = i) (WritesOnly Frame.Packs) (writeFrame frame) :=
  fun c hc => ⟨hc, ⟨(Conn.writeFrame_writes id c.conn trivial).2⟩⟩

end Ctx

namespace Stream

variable {i : Nat} {frame : Frame} {later : Bool}

theorem keepsSending_packs : KeepsSending i (fun c => c.self.streamId = i) (WritesOnly Frame.Packs) where
  self hc := hc
  set h := fun c hc => ⟨(congrArg Prod.fst (h c.self)).trans hc, ⟨⟨.refl⟩⟩⟩
  window _ := fun _ hc => ⟨hc, ⟨⟨.refl⟩⟩⟩
  emit h := emit_writes (fun _ _ hc => hc) h.2
  frame _ := writeFrame_packs

theorem writeHeaders_packs {startLine : StartLine Bytes}
    {headers : HTTPHeaders Bytes} {chunk : Bytes} {callback : Option Nat} :
    Keeps (fun c : Ctx => c.self.streamId = i) (WritesOnly Frame.Packs)
      (writeHeaders startLine headers chunk callback) :=
  keepsSending_packs.writeHeaders fun _ => .bind (fun _ hc => ⟨hc, ⟨⟨.refl⟩⟩⟩) fun _ => writeFrame_packs

theorem callDelegate_packs {call : DelegateCall} :
    Keeps (fun c : Ctx => c.self.streamId = i) (WritesOnly Frame.Packs) (callDelegate call) :=
  .get_bind fun _ _ => .bind .check fun _ => emit_writes (fun _ _ hc => hc) nofun

theorem sendWindowUpdate_packs {amount : Nat} :
    Keeps (fun c : Ctx => c.self.streamId = i) (WritesOnly Frame.Packs) (sendWindowUpdate amount) :=
  .get_bind fun _ _ => .bind .check fun _ => .bind (writeFrame_packs) fun _ => writeFrame_packs

theorem keepsReceiving_packs : KeepsReceiving (fun c => c.self.streamId = i) (WritesOnly Frame.Packs) where
  set f h := fun c hc => ⟨(congrArg (fun t => t.1.1) (h c.self)).trans hc, ⟨⟨.refl⟩⟩⟩
  frames _ := fun _ hc => ⟨hc, ⟨⟨.refl⟩⟩⟩
  decode _ := .bind (emit_writes (fun _ _ hc => hc) nofun) fun _ => .get_bind fun c _ => by
    rcases c.conn.hpackDecoder.decode c.conn.huffmanTree _ with ⟨_ | _, _, _⟩
    · exact .bind (fun _ hc => ⟨hc, ⟨⟨.refl⟩⟩⟩) fun _ => .raise _
    · exact .bind (fun _ hc => ⟨hc, ⟨⟨.refl⟩⟩⟩) fun _ => .pure _
  headers _ _ := callDelegate_packs
  finish := callDelegate_packs
  close := callDelegate_packs

theorem handleFrame_packs : Keeps (fun c : Ctx => c.self.streamId = i)
    (WritesOnly Frame.Packs) (handleFrame frame later) := by
  refine keepsReceiving_packs.handleFrame writeHeaders_packs keepsSending_packs.finish (fun _ => ?_) fun _ => ?_
  · exact .get_bind fun _ _ => .bind (fun _ hc => ⟨hc, ⟨⟨.refl⟩⟩⟩) fun _ => emit_writes (fun _ _ hc => hc) nofun
  · refine handleDataFrame_keeps keepsReceiving_packs.set (fun _ _ _ => ?_) callDelegate_packs
    exact .bind callDelegate_packs fun _ => .ite (fun _ => fun _ hc => ⟨hc, ⟨⟨.refl⟩⟩⟩) fun _ => sendWindowUpdate_packs

theorem method_packs {a : System.Action} {m : OnStream Unit} (ha : a.method = some (i, m)) {j : Nat} :
    Keeps (fun c : Ctx => c.self.streamId = j) (WritesOnly Frame.Packs) m := by
  cases a <;> simp only [System.Action.method, reduceCtorEq, Option.some.injEq, Prod.mk.injEq] at ha <;>
    obtain ⟨-, rfl⟩ := ha
  case writeHeaders => exact writeHeaders_packs
  case write => exact keepsSending_packs.write
  case finish => exact keepsSending_packs.finish
  case reset => exact keepsSending_packs.reset
  case resume => exact keepsSending_packs.resume
  case resolve k =>
    refine .get_bind fun c _ => ?_
    cases c.self.pendingCredits[k]? with
    | none => exact .pure _
    | some amount => exact .bind (fun _ hc => ⟨hc, ⟨⟨.refl⟩⟩⟩) fun _ => sendWindowUpdate_packs

end Stream

/-! What is regular. -/

/-- Only `write_headers` makes other frames than these. -/
structure Frame.Plain (f : Frame) : Prop where
  regular : f.Regular
  type : f.type ≠ .headers

namespace Ctx.WritesOnly

variable {c c' : Ctx} {job : Job} {chunk : Bytes} {callback : Option Nat}

/-- A change that logs nothing. -/
theorem same (h : c'.conn.log = c.conn.log) : c.WritesOnly Frame.Plain c' := ⟨⟨h ▸ .refl⟩⟩

theorem logged {e : Event} (h : e.writes Frame.Plain) : c.WritesOnly Frame.Plain (c.logged e) := ⟨⟨.snoc h⟩⟩

theorem trans {P : Frame → Prop} {c'' : Ctx} (h : c.WritesOnly P c') (h' : c'.WritesOnly P c'') : c.WritesOnly P c'' :=
  IsTrans.trans _ _ _ h h'

theorem calledBack : c.WritesOnly Frame.Plain (c.calledBack callback) := by
  cases callback with
  | none => exact same rfl
  | some token => exact logged nofun

theorem resets (h : Resets c c') : c.WritesOnly Frame.Plain c' := by
  rcases h with rfl | rfl
  · exact same rfl
  · exact logged (Event.writes_wrote ⟨rfl, nofun⟩)

theorem slice (h : Slice c c') : c.WritesOnly Frame.Plain c' := by
  cases h with
  | idle | waits | waitsParent => exact same rfl
  | failed _ h => exact (same rfl : c.WritesOnly _ (c.withOwner .lost)).trans (resets h)
  | finished => exact (same rfl : c.WritesOnly _ c.released).trans calledBack
  | takes | debits => exact ⟨⟨.snoc nofun⟩⟩
  | writes => exact ⟨⟨.snoc (Event.writes_wrote ⟨.inl rfl, nofun⟩)⟩⟩
  | ends => exact ⟨⟨.snoc (Event.writes_wrote ⟨.inr ⟨rfl, rfl⟩, nofun⟩)⟩⟩
  | aborts _ h => exact (resets h).trans (same rfl)

theorem acquires (h : Acquires c job c') : c.WritesOnly Frame.Plain c' := by
  cases h with
  | granted _ h => exact (same rfl : c.WritesOnly _ (c.withOwner (.writer job .lock))).trans (slice h)
  | queued => exact same rfl

theorem writes (h : Writes c chunk callback c') : c.WritesOnly Frame.Plain c' := by
  cases h with
  | rejected _ _ _ h => exact (same rfl : c.WritesOnly _ (c.counted chunk)).trans (resets h)
  | empty => exact (logged nofun : c.WritesOnly _ (c.logged (.accepted c.self.streamId []))).trans calledBack
  | accepted _ _ h =>
    have hcounted : c.WritesOnly Frame.Plain ((c.counted chunk).logged (.accepted c.self.streamId chunk)) :=
      ⟨⟨.snoc nofun⟩⟩
    exact hcounted.trans (acquires h)

theorem prepared (h : Prepared c c') : c.WritesOnly Frame.Plain c' := by
  cases h with
  | undeclared => exact same rfl
  | declared => exact ⟨⟨.snoc nofun⟩⟩

theorem regular (h : c.WritesOnly Frame.Plain c') : c.WritesOnly Frame.Regular c' :=
  ⟨⟨h.conn.log.mono fun _ he f hf => (he f hf).regular⟩⟩

theorem writesHeaders {startLine : StartLine Bytes} {headers : HTTPHeaders Bytes}
    (h : WritesHeaders c startLine headers chunk callback c') : c.WritesOnly Frame.Regular c' := by
  have hissued : c.WritesOnly Frame.Plain (c.issued .writeHeaders) := logged nofun
  cases h with
  | failed h hreset => exact ((hissued.trans (prepared h)).trans (resets hreset)).regular
  | written h hreset =>
    cases h with
    | @mk data c₁ _ _ h _ hwrite =>
      have hheaders : c₁.WritesOnly Frame.Regular (c₁.logged (.wrote (c.headersFrame data))) :=
        ⟨⟨.snoc (Event.writes_wrote rfl)⟩⟩
      exact ((hissued.trans (prepared h)).regular.trans hheaders).trans ((writes hwrite).trans (resets hreset)).regular

theorem finishes (h : Finishes c c') : c.WritesOnly Frame.Plain c' := by
  have hissued : c.WritesOnly Frame.Plain (c.issued .finish) := logged nofun
  cases h with
  | short _ _ h => exact hissued.trans (resets h)
  | ends _ h => exact hissued.trans (acquires h)

theorem receives {i : Nat} (h : ReceivesOnly i c c') : c.WritesOnly Frame.Plain c' := by
  refine ⟨⟨h.log.mono fun e he => ?_⟩⟩
  rintro f rfl
  obtain ⟨htype, hlength, -⟩ := he
  refine ⟨?_, by simp [htype]⟩
  rw [Frame.Regular, htype]
  exact hlength

end Ctx.WritesOnly

namespace Stream

variable {i : Nat} {frame : Frame} {later : Bool}

theorem handleFrame_regular : Keeps (fun c : Ctx => c.self.streamId = i)
    (WritesOnly Frame.Regular) (handleFrame frame later) := by
  refine handleFrame_keeps (fun _ hc => hc)
    (fun c c' hc h => ⟨h.acts.self.trans hc, (WritesOnly.receives h).regular⟩) (fun c hc => ?_)
    (fun c hc => ?_) fun _ => ?_
  · exact ⟨(writeHeaders_sends c hc).1, .writesHeaders (wp_state.mp writeHeaders_wp)⟩
  · exact ⟨(finish_sends c hc).1, (WritesOnly.finishes (wp_state.mp finish_wp)).regular⟩
  · exact .get_bind fun _ _ => .bind (fun _ hc => ⟨hc, ⟨⟨.refl⟩⟩⟩) fun _ => emit_writes (fun _ _ hc => hc) nofun

theorem method_regular {a : System.Action} {m : OnStream Unit} (ha : a.method = some (i, m)) (c : Ctx) :
    c.WritesOnly Frame.Regular (m.run c).2 := by
  have plain {c' c'' : Ctx} (h : c.WritesOnly Frame.Regular c') (h' : c'.WritesOnly Frame.Plain c'') :=
    h.trans h'.regular
  refine method_preserves (I := fun c' => c.WritesOnly Frame.Regular c') (fun _ _ hc hr => plain hc (.receives hr))
    (fun _ _ _ _ _ hc => hc.trans (.writesHeaders (wp_state.mp writeHeaders_wp)))
    (fun _ _ _ hc => plain hc (.writes (wp_state.mp write_wp)))
    (fun _ hc => plain hc (.finishes (wp_state.mp finish_wp))) (fun c' hc => plain hc ?_)
    (fun _ _ hc => plain hc (.slice (wp_state.mp (resume_wp (E := fun _ c' => Slice _ c'))))) ha (refl c)
  exact .resets (wp_state.mp (reset_wp (fun _ => .inl rfl) (.inr rfl)))

theorem proper {c c' : Ctx} (hpacks : c.WritesOnly Frame.Packs c') (hregular : c.WritesOnly Frame.Regular c') :
    c.WritesOnly Frame.Proper c' :=
  ⟨⟨(hpacks.conn.log.and hregular.conn.log).mono fun _ h f hf => ⟨h.1 f hf, h.2 f hf⟩⟩⟩

end Stream

namespace System

theorem onConn_proper {α : Type} {m : OnConn α} (hm : Keeps (fun _ => True) (Conn.WritesOnly Frame.Proper) m) :
    Keeps (fun _ => True) (WritesOnly Frame.Proper) (onConn m) := fun s _ => ⟨trivial, ⟨(hm s.conn trivial).2⟩⟩

theorem emit_proper {e : Event} (he : ∀ f, e ≠ .wrote f) :
    Keeps (fun _ => True) (WritesOnly Frame.Proper) (onConn (Conn.emit e)) :=
  onConn_proper fun _ _ => ⟨trivial, ⟨.snoc fun f h => absurd h (he f)⟩⟩

theorem modify_proper {f : System → System} (hf : ∀ s, (f s).conn.log = s.conn.log) :
    Keeps (fun _ => True) (WritesOnly Frame.Proper) (modify f : OnSystem Unit) := by
  intro s _
  have hlog : ((modify f : OnSystem Unit).run s).2.conn.log = s.conn.log := hf s
  exact ⟨trivial, ⟨⟨hlog ▸ .refl⟩⟩⟩

theorem onStream_proper {i : Nat} {m : OnStream Unit}
    (hm : ∀ c : Ctx, c.WritesOnly Frame.Proper (m.run c).2) :
    Keeps (fun _ => True) (WritesOnly Frame.Proper) (onStream i m) := .get_bind fun s _ => by
  cases s.streams i with
  | none => exact .pure _
  | some self => exact fun s' _ => ⟨trivial, ⟨(hm ⟨s'.conn, self⟩).conn⟩⟩

theorem openStream_proper {i : Nat} {hasDelegate : Bool} {requestStartLine : Option (Option Bytes × Option Bytes)} :
    Keeps (fun _ => True) (WritesOnly Frame.Proper) (openStream i hasDelegate requestStartLine) :=
  .get_bind fun _ _ => .bind (emit_proper nofun) fun _ => modify_proper fun _ => rfl

theorem handleStreamFrame_proper {frame : Frame} {later : Bool} :
    Keeps (fun _ => True) (WritesOnly Frame.Proper) (handleStreamFrame frame later) :=
  .bind (modify_proper fun _ => rfl) fun _ => onStream_proper fun c =>
    Stream.proper (Stream.handleFrame_packs c rfl).2 (Stream.handleFrame_regular c rfl).2

theorem dispatch_proper {frame : Frame} {later : Bool} :
    Keeps (fun _ => True) (WritesOnly Frame.Proper) (dispatch frame later) := by
  refine .get_bind fun s _ => .bind .check fun _ => .ite (fun _ => onConn_proper Conn.handleFrame_proper) fun _ =>
    .ite (fun _ => handleStreamFrame_proper) fun _ => .ite (fun _ => ?_) fun _ => ?_
  · refine .get_bind fun s _ => .bind .check fun _ => .bind (modify_proper fun _ => rfl) fun _ => ?_
    exact .bind openStream_proper fun _ => .bind (emit_proper nofun) fun _ => handleStreamFrame_proper
  · exact .get_bind fun s _ => .ite (fun _ => .check) fun _ => .raise _

/-- The frames that answer an exception are like any other. -/
theorem receive_proper {frame : Frame} {later : Bool} :
    Keeps (fun _ => True) (WritesOnly Frame.Proper) (receive frame later) := by
  have setLoop_proper (loop : ConnLoop) : Keeps (fun _ => True) (WritesOnly Frame.Proper) (setLoop loop) :=
    modify_proper fun _ => rfl
  have writeFrame_proper {f : Frame} (h : f.Regular) : Keeps
      (fun _ => True) (WritesOnly Frame.Proper) (onConn (Conn.writeFrame f)) :=
    onConn_proper (Conn.writeFrame_writes fun hpacks => ⟨hpacks, h⟩)
  have hread : Keeps (fun _ => True) (WritesOnly Frame.Proper) (onConn (Conn.readFrame frame)) :=
    onConn_proper (.get_bind fun c _ => .bind .check fun _ => fun c _ => ⟨trivial, ⟨.snoc nofun⟩⟩)
  refine .catching (.catching (.bind hread fun _ => dispatch_proper) fun e => ?_) fun e => ?_
  · cases e with
    | streamError => exact writeFrame_proper rfl
    | _ => exact .raise _
  · have hclosed : Keeps (fun _ => True) (WritesOnly Frame.Proper) (do closeSocket; setLoop .ended) :=
      .bind (onConn_proper fun _ _ => ⟨trivial, ⟨.refl⟩⟩) fun _ => setLoop_proper _
    cases e with
    | connectionError =>
      exact .catching (.bind (writeFrame_proper rfl) fun _ => setLoop_proper _) fun _ => setLoop_proper _
    | streamClosedError => exact setLoop_proper _
    | _ => exact hclosed

theorem perform_proper (a : Action) : Keeps (fun _ => True) (WritesOnly Frame.Proper) (perform a) := by
  have hcall (a : Action) {i : Nat} {m : OnStream Unit} (ha : a.method = some (i, m)) :
      Keeps (fun _ => True) (WritesOnly Frame.Proper) (onStream i m) :=
        onStream_proper fun c => Stream.proper (Stream.method_packs ha c rfl).2 (Stream.method_regular ha c)
  have hclose : Keeps (fun _ => True) (WritesOnly Frame.Proper) closeSocket :=
    onConn_proper fun _ _ => ⟨trivial, ⟨.refl⟩⟩
  cases a with
  | receive frame later => exact .get_bind fun s _ => .when fun _ => receive_proper
  | createStream =>
    exact .get_bind fun s _ => .bind (onConn_proper fun _ _ => ⟨trivial, ⟨.refl⟩⟩) fun _ => openStream_proper
  | upgrade method path => exact .get_bind fun s _ => .when fun _ => openStream_proper
  | goawayFlushed => exact .get_bind fun s _ => .when fun _ => .bind hclose fun _ => modify_proper fun _ => rfl
  | disconnect => exact hclose
  | writeHeaders i startLine headers chunk callback =>
      exact hcall (.writeHeaders i startLine headers chunk callback) rfl
  | write i chunk callback => exact hcall (.write i chunk callback) rfl
  | finish i => exact hcall (.finish i) rfl
  | reset i => exact hcall (.reset i) rfl
  | resume i flushed => exact hcall (.resume i flushed) rfl
  | resolve i k => exact hcall (.resolve i k) rfl

/-- Every frame that is written can be packed and is regular. -/
theorem written_proper (isClient : Bool) (params : Params) (actions : List Action) :
    ∀ frame ∈ framesOf ((start isClient params).run actions).conn.log, frame.Proper := by
  suffices h : ∀ e ∈ ((start isClient params).run actions).conn.log, e.writes Frame.Proper by
    intro frame hframe
    obtain ⟨e, he, hwrote⟩ := List.mem_filterMap.mp hframe
    exact h e he frame (by cases e <;> simp_all [Event.frame])
  refine actions.foldlRecOn step (motive := fun s => ∀ e ∈ s.conn.log, e.writes Frame.Proper) ?_ fun s hs a _ e he => ?_
  · intro e he f hf
    rw [List.mem_singleton.mp (show e ∈ [Event.wrote (settingsFrame isClient)] from he)] at hf
    cases hf
    cases isClient <;> exact ⟨⟨by decide, by decide⟩, rfl⟩
  · obtain ⟨es, hlog, hes⟩ := (perform_proper a s trivial).2.conn.log
    change e ∈ ((perform a).run s).2.conn.log at he
    rw [hlog, List.mem_append] at he
    exact he.elim (hs e) (hes e)

end System

end TornadoHttp2
