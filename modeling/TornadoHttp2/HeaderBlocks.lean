import TornadoHttp2.ErrorMessages
import TornadoHttp2.Invariants

/-! Header blocks: the fragments that a stream collects are the HEADERS frame and
the CONTINUATIONs that the connection has read last, and what the decoder gets is
their concatenation. -/

namespace TornadoHttp2

open Prog Ctx

def Event.receivedFrame : Event → Option Frame
  | received frame => some frame
  | _ => none

/-- The frames that the connection has read, in order. -/
def receivedFrames (log : List Event) : List Frame := log.filterMap Event.receivedFrame

/-- The header block of a HEADERS frame without its padding and its
CONTINUATIONs. -/
def blockData (first : Frame) (rest : List Frame) : Bytes :=
  let data := (first :: rest).flatMap Frame.data
  if first.has .priority then data.drop 5 else data

/-- The last of the frames are a HEADERS frame, `first` once its padding is
removed, and its CONTINUATIONs. -/
def Fragments (frames : List Frame) (first : Frame) (rest : List Frame) : Prop :=
  ∃ earlier headers, frames = earlier ++ headers :: rest ∧ headers.type = .headers ∧
    headers.withoutPadding = .ok first ∧ ∀ f ∈ rest, f.type = .continuation ∧ f.streamId = first.streamId

/-- The last of the frames are those of a complete header block. -/
def Assembled (frames : List Frame) (data : Bytes) : Prop :=
  ∃ first rest, Fragments frames first rest ∧ data = blockData first rest ∧
    ∃ before last, first :: rest = before ++ [last] ∧ last.has .endHeaders = true ∧
      ∀ f ∈ before, f.has .endHeaders = false

/-- Neither a frame that was read nor a call of the decoder. -/
def Event.isPlain : Event → Prop
  | received _ => False
  | decoded _ => False
  | _ => True

/-- An exception that ends the loop. -/
def Fatal (r : Except PyException Unit) : Prop := ∃ e, r = .error e ∧ ∀ i code, e ≠ .streamError i code

theorem PyException.isLocal.fatal {e : PyException} (h : e.isLocal) : Fatal (.error e) :=
  ⟨e, rfl, by rintro i code rfl; exact h⟩

/-- A step that neither adds to the header block nor calls the decoder. -/
structure Undecoded (c c' : Ctx) : Prop where
  frames : c'.self.headerFrames = c.self.headerFrames
  decoder : c'.conn.hpackDecoder = c.conn.hpackDecoder
  tree : c'.conn.huffmanTree = c.conn.huffmanTree
  log : Grows Event.isPlain c.conn.log c'.conn.log

instance : Std.Refl Undecoded := ⟨fun _ => ⟨rfl, rfl, rfl, .refl⟩⟩

instance : IsTrans Ctx Undecoded :=
  ⟨fun _ _ _ h h' =>
    ⟨h'.frames.trans h.frames, h'.decoder.trans h.decoder, h'.tree.trans h.tree, h.log.trans h'.log⟩⟩

/-- A step that does not touch what is being received. -/
structure Undisturbed (c c' : Ctx) : Prop extends Undecoded c c' where
  stream : (c'.self.streamId, c'.self.finished) = (c.self.streamId, c.self.finished)

instance : Std.Refl Undisturbed := ⟨fun c => ⟨refl c, rfl⟩⟩

instance : IsTrans Ctx Undisturbed :=
  ⟨fun _ _ _ h h' => ⟨IsTrans.trans _ _ _ h.toUndecoded h'.toUndecoded, h'.stream.trans h.stream⟩⟩

theorem SendsOnly.undisturbed {i : Nat} {c c' : Ctx} (h : SendsOnly i c c') : Undisturbed c c' where
  frames := congrArg (fun t => t.2.2.2.2.2.1) h.self
  decoder := congrArg (fun t => t.2.2.2.2.1) h.conn
  tree := congrArg (fun t => t.2.2.2.2.2.1) h.conn
  log := h.log.mono fun e he => by
    cases e with
    | received | decoded => exact he
    | _ => trivial
  stream := congrArg (fun t => (t.1, t.2.2.1)) h.self

/-- A step that calls the decoder once. -/
structure Decodes (data : Bytes) (c c' : Ctx) : Prop where
  frames : c'.self.headerFrames = c.self.headerFrames
  decoder : (c'.conn.hpackDecoder, c'.conn.huffmanTree) = (c.conn.hpackDecoder.decode c.conn.huffmanTree data).2
  log : ∃ log, Grows Event.isPlain c.conn.log log ∧ Grows Event.isPlain (log ++ [.decoded data]) c'.conn.log

theorem Decodes.undecoded {data : Bytes} {c c' c'' : Ctx} (h : Decodes data c c') (h' : Undecoded c' c'') :
    Decodes data c c'' := by
  obtain ⟨log, hbefore, hafter⟩ := h.log
  refine ⟨h'.frames.trans h.frames, ?_, log, hbefore, hafter.trans h'.log⟩
  rw [h'.decoder, h'.tree, h.decoder]

theorem Undecoded.decodes {data : Bytes} {c c' c'' : Ctx} (h : Undecoded c c') (h' : Decodes data c' c'') :
    Decodes data c c'' := by
  obtain ⟨log, hbefore, hafter⟩ := h'.log
  refine ⟨h'.frames.trans h.frames, ?_, log, h.log.trans hbefore, hafter⟩
  rw [h'.decoder, h.decoder, h.tree]

def Ctx.withFrames (c : Ctx) (frames : List Frame) : Ctx := ⟨c.conn, { c.self with headerFrames := frames }⟩

/-- What a frame adds to the header block of its stream. -/
def Ctx.Adds (c : Ctx) (frame f : Frame) : Prop :=
  frame.type = .headers ∧ frame.withoutPadding = .ok f ∨
    frame.type = .continuation ∧ c.self.headerFrames ≠ [] ∧ f = frame

/-- What a frame does to the header block of its stream. -/
inductive Collects (frame : Frame) (c : Ctx) : Except PyException Unit → Ctx → Prop
  | nothing {r : Except PyException Unit} {c' : Ctx}
      (hframe : frame.type ≠ .headers ∧ frame.type ≠ .continuation ∨ c.self.finished = true ∨ Fatal r)
      (h : Undecoded c c') : Collects frame c r c'
  | fragment {f : Frame} {r : Except PyException Unit} {c' : Ctx} (hadds : c.Adds frame f)
      (hends : frame.has .endHeaders = false ∨ Fatal r) (hopen : c'.self.finished = false)
      (h : Undecoded (c.withFrames (c.self.headerFrames ++ [f])) c') : Collects frame c r c'
  | abandoned {r : Except PyException Unit} {c' : Ctx} (hfatal : Fatal r) (h : Undecoded (c.withFrames []) c') :
    Collects frame c r c'
  | block {f first : Frame} {rest : List Frame} {r : Except PyException Unit} {c' : Ctx} (hadds : c.Adds frame f)
      (hends : frame.has .endHeaders = true) (hframes : c.self.headerFrames ++ [f] = first :: rest)
      (h : Decodes (blockData first rest) (c.withFrames []) c') : Collects frame c r c'

theorem Collects.ofPhase {frame : Frame} {c : Ctx} {phase : HTTPPhase} {r : Except PyException Unit} {c' : Ctx}
    (h : Collects frame ⟨c.conn, { c.self with phase }⟩ r c') : Collects frame c r c' := by
  cases h with
  | nothing hframe h => exact .nothing hframe ⟨h.frames, h.decoder, h.tree, h.log⟩
  | fragment hadds hends hopen h => exact .fragment hadds hends hopen ⟨h.frames, h.decoder, h.tree, h.log⟩
  | abandoned hfatal h => exact .abandoned hfatal ⟨h.frames, h.decoder, h.tree, h.log⟩
  | block hadds hends hframes h => exact .block hadds hends hframes ⟨h.frames, h.decoder, h.log⟩

namespace Stream

variable {c : Ctx} {frame : Frame}

abbrev KeepsBlock {α : Type} (m : OnStream α) : Prop := Keeps (fun _ => True) Undecoded m

theorem setSelf_undecoded {f : Stream → Stream} (h : ∀ s, (f s).kept = s.kept) : KeepsBlock (setSelf f) :=
  fun c _ => ⟨trivial, congrArg (fun t => t.2.1) (h c.self), rfl, rfl, .refl⟩

theorem callDelegate_undecoded {call : DelegateCall} : KeepsBlock (callDelegate call) :=
  .get_bind fun _ _ => .bind .check fun _ => fun _ _ => ⟨trivial, rfl, rfl, rfl, .snoc trivial⟩

theorem writeFrame_undisturbed : Keeps (fun _ => True) Undisturbed (writeFrame frame) := by
  refine Keeps.iff_wp.mpr fun c _ => ?_
  rw [writeFrame_wp]
  split
  · exact ⟨trivial, refl c⟩
  · split
    · exact ⟨trivial, refl c⟩
    · exact ⟨trivial, ⟨rfl, rfl, rfl, .snoc trivial⟩, rfl⟩

theorem sendWindowUpdate_undisturbed {amount : Nat} :
    Keeps (fun _ => True) Undisturbed (sendWindowUpdate amount) :=
  .get_bind fun _ _ => .bind .check fun _ => .bind writeFrame_undisturbed fun _ => writeFrame_undisturbed

theorem resolveData_undisturbed {k : Nat} : Keeps (fun _ => True) Undisturbed (resolveData k) :=
  .get_bind fun c _ => match c.self.pendingCredits[k]? with
    | none => .pure _
    | some _ => .bind (fun _ _ => ⟨trivial, ⟨rfl, rfl, rfl, .refl⟩, rfl⟩) fun _ => sendWindowUpdate_undisturbed

theorem stripPriority_strips {data : Bytes} :
    wp (stripPriority frame data) (fun data' c' => data' = (if frame.has .priority then data.drop 5 else data) ∧ c' = c)
      (fun e c' => Fatal (.error e) ∧ c' = c) c := by
  rw [stripPriority, wp_ite]
  refine ⟨fun hpriority => ?_, fun hpriority => ⟨by rw [if_neg hpriority], rfl⟩⟩
  rw [wp_bind, wp_check]
  refine ⟨fun _ => ⟨PyException.isLocal.fatal trivial, rfl⟩, fun _ => ?_⟩
  rw [wp_bind, wp_check]
  exact ⟨fun _ => ⟨⟨_, rfl, nofun⟩, rfl⟩, fun _ => ⟨by rw [if_pos hpriority], rfl⟩⟩

theorem decodeHeaders_decodes {data : Bytes} :
    wp (decodeHeaders data) (fun _ => Decodes data c) (fun _ => Decodes data c) c := by
  rw [decodeHeaders, wp_bind]
  have hlog : ∃ log, Grows Event.isPlain c.conn.log log ∧
      Grows Event.isPlain (log ++ [.decoded data]) (c.conn.log ++ [.decoded data]) := ⟨_, .refl, .refl⟩
  change wp (Prog.get >>= _) _ _ (⟨{ c.conn with log := c.conn.log ++ [.decoded data] }, c.self⟩ : Ctx)
  rw [wp_bind, wp_get]
  dsimp only
  rcases hdecode : c.conn.hpackDecoder.decode c.conn.huffmanTree data with ⟨e | headers, decoder, tree⟩
  · exact ⟨rfl, by rw [hdecode]; rfl, hlog⟩
  · exact ⟨rfl, by rw [hdecode]; rfl, hlog⟩

theorem parseBlock_decodes {data : Bytes} :
    let block := if frame.has .priority then data.drop 5 else data
    wp (parseBlock frame data) (fun _ => Decodes block c)
      (fun e c' => Fatal (.error e) ∧ c' = c ∨ Decodes block c c') c := by
  intro block
  have hrest (headerList : List (Bytes × Option Bytes × HeaderIndexMode)) : KeepsBlock (do
      let c ← get
      let p ← ofExcept
        (addHeaders c.conn.params.unicode c.conn.isClient c.self.streamId
          ⟨[], .empty, c.self.phase = .trailers⟩ headerList)
      when (c.self.phase = .headers) (startRequest p)
      let ended ← maybeEndStream frame
      let c ← get
      check (ended = false ∧ c.self.phase = .trailers) (.streamError c.self.streamId .protocolError)) :=
    .get_bind fun _ _ => .bind (.ofExcept _) fun _ =>
      .bind (.when fun _ => startRequest_keeps (fun _ => setSelf_undecoded) fun _ _ => callDelegate_undecoded) fun _ =>
        .bind (maybeEndStream_keeps (fun _ => setSelf_undecoded) callDelegate_undecoded) fun _ =>
          .get_bind fun _ _ => .check
  rw [parseBlock, wp_bind]
  refine wp_mono stripPriority_strips ?_ fun _ _ h => .inl h
  rintro _ _ ⟨rfl, rfl⟩
  rw [wp_bind]
  refine wp_mono decodeHeaders_decodes (fun headerList c₁ h₁ => ?_) fun _ _ h => .inr h
  exact (hrest headerList).wp trivial (fun _ _ _ h => h₁.undecoded h) fun _ _ _ h => .inr (h₁.undecoded h)

theorem checkHeaderLength_undisturbed :
    wp checkHeaderLength (fun _ => Undisturbed c) (fun e c' => Fatal (.error e) ∧ Undisturbed c c') c := by
  have hlocal : Local refuse := .bind .modify fun _ => .bind writeHeaders_local fun _ => finish_local
  rw [checkHeaderLength, wp_bind, wp_get, wp_when]
  refine ⟨fun _ => ?_, fun _ => refl c⟩
  rw [wp_ite]
  refine ⟨fun _ => ?_, fun _ => ?_⟩
  · rw [callDelegate, wp_bind, wp_get, wp_bind, wp_check]
    exact ⟨fun _ => ⟨PyException.isLocal.fatal trivial, refl c⟩, fun _ => ⟨⟨rfl, rfl, rfl, .snoc trivial⟩, rfl⟩⟩
  · exact wp_mono (wp_and (hlocal c) (Keeps.iff_wp.mp refuse_sends c rfl)) (fun _ _ h => h.2.2.undisturbed)
      fun _ _ h => ⟨h.1.fatal, h.2.2.undisturbed⟩

theorem appendHeaderFrame_collects {f : Frame} (hadds : c.Adds frame f) (hflags : f.flags = frame.flags)
    (hopen : c.self.finished = false) :
    wp (appendHeaderFrame f) (fun _ => Collects frame c (.ok ())) (fun e => Collects frame c (.error e)) c := by
  rw [appendHeaderFrame, setSelf, wp_bind, wp_modify, wp_bind]
  have hopened {c' : Ctx} (h : Undisturbed (c.withFrames (c.self.headerFrames ++ [f])) c') : c'.self.finished = false :=
    (congrArg Prod.snd h.stream).trans hopen
  refine wp_mono checkHeaderLength_undisturbed (fun _ c₁ h₁ => ?_) fun _ _ h =>
    .fragment hadds (.inr h.1) (hopened h.2) h.2.toUndecoded
  rw [wp_when, Frame.has_congr hflags]
  refine ⟨fun hends => ?_, fun hends =>
    .fragment hadds (.inl (Bool.eq_false_iff.mpr hends)) (hopened h₁) h₁.toUndecoded⟩
  have hframes : c₁.self.headerFrames = c.self.headerFrames ++ [f] := h₁.frames
  rw [parseHeaders, wp_bind, wp_get]
  cases hlist : c₁.self.headerFrames with
  | nil => simp [hlist] at hframes
  | cons first rest =>
    have h₂ : Undecoded (c.withFrames []) ⟨c₁.conn, { c₁.self with headerFrames := [] }⟩ :=
      ⟨rfl, h₁.decoder, h₁.tree, h₁.log⟩
    have hblock : c.self.headerFrames ++ [f] = first :: rest := hframes.symm.trans hlist
    dsimp only
    rw [setSelf, wp_bind, wp_modify]
    refine wp_mono parseBlock_decodes (fun _ c' h => .block hadds hends hblock (h₂.decodes h)) ?_
    rintro e c' (⟨hfatal, rfl⟩ | h)
    · exact .abandoned hfatal h₂
    · exact .block hadds hends hblock (h₂.decodes h)

theorem withoutPadding_fatal {e : PyException} (htype : frame.type = .headers) (h : frame.withoutPadding = .error e) :
    Fatal (.error e) := by
  refine ⟨e, rfl, ?_⟩
  rintro i code rfl
  rw [Frame.withoutPadding] at h
  split at h
  · split at h
    · cases h
    · dsimp only at h
      split at h
      · cases h
      · cases h
  · cases h

theorem handleHeadersFrame_collects (htype : frame.type = .headers) (hopen : c.self.finished = false) :
    wp (handleHeadersFrame frame) (fun _ => Collects frame c (.ok ())) (fun e => Collects frame c (.error e)) c := by
  have append {c : Ctx} (hopen : c.self.finished = false) :
      wp (ofExcept frame.withoutPadding >>= appendHeaderFrame) (fun _ => Collects frame c (.ok ()))
        (fun e => Collects frame c (.error e)) c := by
    cases hpadding : frame.withoutPadding with
    | error e => exact .nothing (.inr (.inr (withoutPadding_fatal htype hpadding))) (refl c)
    | ok f =>
      exact appendHeaderFrame_collects (.inl ⟨htype, hpadding⟩) (Frame.withoutPadding_same hpadding).2.1 hopen
  rw [handleHeadersFrame, wp_bind, wp_get, wp_bind, wp_when]
  refine ⟨fun _ => ?_, fun _ => append hopen⟩
  rw [setSelf, wp_modify]
  exact wp_mono (append (c := ⟨c.conn, { c.self with phase := .trailers }⟩) hopen) (fun _ _ h => h.ofPhase)
    fun _ _ h => h.ofPhase

theorem handleContinuationFrame_collects (htype : frame.type = .continuation) (hopen : c.self.finished = false) :
    wp (handleContinuationFrame frame) (fun _ => Collects frame c (.ok ()))
      (fun e => Collects frame c (.error e)) c := by
  rw [handleContinuationFrame, wp_bind, wp_get, wp_bind, wp_check]
  refine ⟨fun _ => .nothing (.inr (.inr ⟨_, rfl, nofun⟩)) (refl c), fun hframes => ?_⟩
  exact appendHeaderFrame_collects (.inr ⟨htype, hframes, rfl⟩) rfl hopen

theorem handleFrame_collects {later : Bool} :
    Collects frame c ((handleFrame frame later).run c).1 ((handleFrame frame later).run c).2 := by
  have other (htype : frame.type ≠ .headers ∧ frame.type ≠ .continuation) {m : OnStream Unit}
      (hm : KeepsBlock m) : Collects frame c (m.run c).1 (m.run c).2 := .nothing (.inl htype) (hm c trivial).2
  have unfinished {m : OnStream Unit} (hm : c.self.finished = false →
      Collects frame c (m.run c).1 (m.run c).2) :
      wp (do
        check (c.self.finished = true) (.streamError c.self.streamId .streamClosed)
        m) (fun _ => Collects frame c (.ok ())) (fun e => Collects frame c (.error e)) c := by
    rw [wp_bind, wp_check]
    refine ⟨fun hfinished => .nothing (.inr (.inl hfinished)) (refl c), fun hopen => ?_⟩
    exact wp_result.mpr (hm (by simpa using hopen))
  rw [handleFrame, run_get_bind]
  cases htype : frame.type with
  | priority => exact other (by simp [htype]) handlePriorityFrame_keeps
  | rstStream => exact other (by simp [htype]) (handleRstStreamFrame_keeps callDelegate_undecoded)
  | windowUpdate =>
    exact other (by simp [htype]) (.get_bind fun _ _ => .bind (fun _ _ => ⟨trivial, rfl, rfl, rfl, .refl⟩)
      fun _ => fun _ _ => ⟨trivial, rfl, rfl, rfl, .snoc trivial⟩)
  | settings | goaway | pushPromise => exact other (by simp [htype]) (.raise _)
  | ping | unknown => exact wp_result.mp (unfinished fun _ => other (by simp [htype]) (.pure ()))
  | data =>
    have deliver {data : Bytes} : KeepsBlock (deliverData later data) :=
      .bind callDelegate_undecoded fun _ =>
        .ite (fun _ => fun _ _ => ⟨trivial, rfl, rfl, rfl, .refl⟩)
          fun _ => sendWindowUpdate_undisturbed.mono fun _ _ => (·.toUndecoded)
    exact wp_result.mp (unfinished fun _ => other (by simp [htype]) (handleDataFrame_keeps
      (fun _ => setSelf_undecoded) (fun _ _ _ => deliver) callDelegate_undecoded))
  | headers =>
    exact wp_result.mp (unfinished fun hopen => wp_result.mp (handleHeadersFrame_collects htype hopen))
  | continuation =>
    exact wp_result.mp (unfinished fun hopen => wp_result.mp (handleContinuationFrame_collects htype hopen))

end Stream

section

variable {log log' : List Event} {frames : List Frame} {frame f first : Frame} {rest : List Frame} {c : Ctx}

theorem receivedFrames_append : receivedFrames (log ++ log') = receivedFrames log ++ receivedFrames log' :=
  List.filterMap_append ..

theorem Grows.receivedFrames (h : Grows Event.isPlain log log') : receivedFrames log' = receivedFrames log := by
  obtain ⟨es, rfl, hes⟩ := h
  have hnil : TornadoHttp2.receivedFrames es = [] := List.filterMap_eq_nil_iff.mpr fun e he => by
    have hplain := hes e he
    cases e with
    | received => exact hplain.elim
    | _ => rfl
  rw [receivedFrames_append, hnil, List.append_nil]

/-- Every call of the decoder in a log got a complete header block, whose frames
were the last to be read. -/
def AllAssembled (log : List Event) : Prop :=
  ∀ before data after, log = before ++ .decoded data :: after → Assembled (receivedFrames before) data

theorem AllAssembled.snoc (h : AllAssembled log) {e : Event}
    (he : ∀ data, e = .decoded data → Assembled (receivedFrames log) data) : AllAssembled (log ++ [e]) := by
  intro before data after hlog
  rcases List.eq_nil_or_concat after with rfl | ⟨after, last, rfl⟩
  · obtain ⟨rfl, heq⟩ := List.append_inj' hlog rfl
    exact he data (List.singleton_inj.mp heq)
  · rw [List.concat_eq_append, ← List.cons_append, ← List.append_assoc] at hlog
    exact h before data after (List.append_inj' hlog rfl).1

theorem AllAssembled.plain (h : AllAssembled log) (hg : Grows Event.isPlain log log') : AllAssembled log' := by
  obtain ⟨es, rfl, hes⟩ := hg
  induction es generalizing log with
  | nil => rwa [List.append_nil]
  | cons e es ih =>
    rw [← List.singleton_append, ← List.append_assoc]
    refine ih (h.snoc ?_) fun e he => hes e (List.mem_cons_of_mem _ he)
    rintro data rfl
    exact (hes _ List.mem_cons_self).elim

/-- The fragments that a stream has collected so far. -/
structure Buffered (stream : Stream) (frames : List Frame) (first : Frame) (rest : List Frame) : Prop where
  isOpen : stream.finished = false
  fragments : Fragments frames first rest
  streamId : first.streamId = stream.streamId
  incomplete : ∀ f ∈ first :: rest, f.has .endHeaders = false

/-- A stream that a frame meets has fragments only if the frame continues them. -/
def Continues (self : Stream) (frames : List Frame) (frame : Frame) : Prop :=
  ∀ first rest, self.headerFrames = first :: rest →
    frame.type = .continuation ∧ Buffered self frames first rest

theorem Ctx.Adds.fragments (h : c.Adds frame f) (hid : c.self.streamId = frame.streamId)
    (hcontinues : Continues c.self frames frame) (hframes : c.self.headerFrames ++ [f] = first :: rest) :
    Fragments (frames ++ [frame]) first rest ∧ first.streamId = c.self.streamId ∧ f.flags = frame.flags ∧
      ∀ g ∈ c.self.headerFrames, g.has .endHeaders = false := by
  rcases h with ⟨htype, hpadding⟩ | ⟨htype, hne, rfl⟩
  · cases hlist : c.self.headerFrames with
    | cons first rest => simp [(hcontinues first rest hlist).1] at htype
    | nil =>
      rw [hlist, List.nil_append, List.cons.injEq] at hframes
      obtain ⟨rfl, rfl⟩ := hframes
      obtain ⟨-, hflags, hstream⟩ := Frame.withoutPadding_same hpadding
      exact ⟨⟨frames, frame, rfl, htype, hpadding, by simp⟩, hstream.trans hid.symm, hflags, by simp⟩
  · obtain ⟨first', rest', hlist⟩ := List.exists_cons_of_ne_nil hne
    rw [hlist, List.cons_append, List.cons.injEq] at hframes
    obtain ⟨rfl, rfl⟩ := hframes
    obtain ⟨-, -, ⟨earlier, headers, rfl, htype', hpadding, hrest⟩, hstream, hincomplete⟩ := hcontinues _ _ hlist
    refine ⟨⟨earlier, headers, by simp, htype', hpadding, fun g hg => ?_⟩, hstream, rfl, hlist ▸ hincomplete⟩
    rcases List.mem_append.mp hg with hg | hg
    · exact hrest g hg
    · rw [List.mem_singleton.mp hg, hstream, hid]
      exact ⟨htype, rfl⟩

end

def Conn.PlainLog (c c' : Conn) : Prop := Grows Event.isPlain c.log c'.log

instance : Std.Refl Conn.PlainLog := ⟨fun _ => .refl⟩

instance : IsTrans Conn Conn.PlainLog := ⟨fun _ _ _ h h' => h.trans h'⟩

theorem Conn.handleFrame_plain : Keeps (fun _ => True) Conn.PlainLog (Conn.handleFrame frame) :=
  Conn.handleFrame_keeps (fun _ _ _ _ _ _ => ⟨trivial, .snoc trivial⟩) (fun _ _ _ _ _ => ⟨trivial, .refl⟩)
    (fun _ _ => ⟨trivial, .refl⟩) fun _ => .bind (fun _ _ => ⟨trivial, .refl⟩) fun _ =>
      fun _ _ => ⟨trivial, .snoc trivial⟩

namespace System

/-- The invariant of the header blocks; the fragments matter only as long as the
loop is `reading`. -/
structure Collecting (s : System) (reading : Prop) : Prop where
  last {i : Nat} {self : Stream} (hself : s.streams i = some self) (hframes : self.headerFrames ≠ []) :
    s.lastStream = some i
  buffered {i : Nat} {self : Stream} {first : Frame} {rest : List Frame} (hreading : reading)
    (hself : s.streams i = some self) (hframes : self.headerFrames = first :: rest) :
    Buffered self (receivedFrames s.conn.log) first rest
  assembled : AllAssembled s.conn.log

/-- A frame that meets the stream with the fragments, if there are any. -/
theorem Collecting.handled {s : System} {frame : Frame} {later : Bool} {self : Stream} {frames : List Frame}
    (hid : self.streamId = frame.streamId)
    (hothers : ∀ j other, s.streams j = some other → other.headerFrames ≠ [] → j = frame.streamId)
    (hreceived : receivedFrames s.conn.log = frames ++ [frame]) (hcontinues : Continues self frames frame)
    (hassembled : AllAssembled s.conn.log) :
    (s.handled frame later self).Collecting (¬ Fatal (s.atStream frame later self).1) := by
  have honly {j : Nat} {other : Stream} (hj : (s.handled frame later self).streams j = some other)
      (hframes : other.headerFrames ≠ []) : j = frame.streamId ∧ other = (s.atStream frame later self).2.self := by
    by_cases hjd : j = frame.streamId
    · subst hjd
      rw [System.handled, setStream_self, Option.some.injEq] at hj
      exact ⟨rfl, hj.symm⟩
    · rw [System.handled, setStream_of_ne hjd] at hj
      exact absurd (hothers j other hj hframes) hjd
  have hlast {j : Nat} {other : Stream} (hj : (s.handled frame later self).streams j = some other)
      (hframes : other.headerFrames ≠ []) : (s.handled frame later self).lastStream = some j := by
    rw [(honly hj hframes).1]
    rfl
  have hid' : (s.atStream frame later self).2.self.streamId = frame.streamId :=
    (Stream.handleFrame_acts frame later ⟨s.conn, self⟩ hid).1
  have hcollects : Collects frame ⟨s.conn, self⟩ (s.atStream frame later self).1 (s.atStream frame later self).2 :=
    Stream.handleFrame_collects
  revert hcollects hid' honly
  generalize hr : (s.atStream frame later self).1 = r
  generalize hc : (s.atStream frame later self).2 = c'
  intro honly hid' hcollects
  have hlog : (s.handled frame later self).conn.log = c'.conn.log := by rw [← hc]; rfl
  refine ⟨hlast, fun {j other first rest} hreading hj hframes => ?_, hlog ▸ ?_⟩
  · obtain ⟨-, rfl⟩ := honly hj (by simp [hframes])
    rw [hlog]
    cases hcollects with
    | nothing hframe h =>
      obtain ⟨htype, hbuffered⟩ := hcontinues first rest (h.frames.symm.trans hframes)
      rcases hframe with ⟨-, hframe⟩ | hfinished | hfatal
      · exact absurd htype hframe
      · exact absurd (hbuffered.isOpen.symm.trans hfinished) (by simp)
      · exact absurd hfatal hreading
    | fragment hadds hends hopen h =>
      obtain ⟨hfragments, hstream, hflags, hincomplete⟩ := hadds.fragments hid hcontinues (h.frames.symm.trans hframes)
      refine ⟨hopen, ?_, (hstream.trans hid).trans hid'.symm, ?_⟩
      · rw [h.log.receivedFrames]
        exact hreceived ▸ hfragments
      · rw [← hframes, h.frames]
        intro g hg
        rcases List.mem_append.mp hg with hg | hg
        · exact hincomplete g hg
        · rw [List.mem_singleton.mp hg, Frame.has_congr hflags]
          exact hends.resolve_right hreading
    | abandoned hfatal => exact absurd hfatal hreading
    | block _ _ _ h => simp [h.frames, Ctx.withFrames] at hframes
  · cases hcollects with
    | nothing _ h | fragment _ _ _ h | abandoned _ h => exact hassembled.plain h.log
    | @block f first rest _ _ hadds hends hframes h =>
      obtain ⟨hfragments, -, hflags, hincomplete⟩ := hadds.fragments hid hcontinues hframes
      obtain ⟨log, hbefore, hafter⟩ := h.log
      refine ((hassembled.plain hbefore).snoc fun data hdata => ?_).plain hafter
      cases hdata
      have hread : receivedFrames log = frames ++ [frame] := hbefore.receivedFrames.trans hreceived
      refine ⟨first, rest, hread ▸ hfragments, rfl, self.headerFrames, f, hframes.symm, ?_, hincomplete⟩
      rw [Frame.has_congr hflags, hends]

variable {s s' : System} {p p' : Prop}

theorem Collecting.mono (h : s.Collecting p) (hstreams : s'.streams = s.streams)
    (hlast : s'.lastStream = s.lastStream) (hassembled : AllAssembled s'.conn.log)
    (hbuffered : p' → p ∧ receivedFrames s'.conn.log = receivedFrames s.conn.log ∨
      ∀ i self, s.streams i = some self → self.headerFrames = []) : s'.Collecting p' := by
  refine ⟨fun hself hframes => ?_, fun {i self first rest} hp' hself hframes => ?_, hassembled⟩
  · exact hlast.trans (h.last (hstreams ▸ hself) hframes)
  · rw [hstreams] at hself
    rcases hbuffered hp' with ⟨hp, hreceived⟩ | hempty
    · exact hreceived ▸ h.buffered hp hself hframes
    · simp [hempty i self hself] at hframes

theorem Collecting.withStream (h : s.Collecting p) {self : Stream} (hframes : self.headerFrames = []) :
    (s.withStream self).Collecting p := by
  have hlog : Grows Event.isPlain s.conn.log (s.withStream self).conn.log := .snoc trivial
  have hold {i : Nat} {other : Stream} (hi : (s.withStream self).streams i = some other)
      (hne : other.headerFrames ≠ []) : s.streams i = some other := by
    by_cases hid : i = self.streamId
    · subst hid
      rw [withStream_self, Option.some.injEq] at hi
      exact absurd (hi ▸ hframes) hne
    · rwa [withStream_of_ne hid] at hi
  refine ⟨fun hi hne => h.last (hold hi hne) hne, fun hp hi hlist => ?_, h.assembled.plain hlog⟩
  rw [hlog.receivedFrames]
  exact h.buffered hp (hold hi (by simp [hlist])) hlist

theorem Collecting.method (h : s.Collecting p) {i : Nat} {self : Stream} {c : Ctx} (hself : s.streams i = some self)
    (hc : Undisturbed ⟨s.conn, self⟩ c) : (s.setStream i c).Collecting p := by
  have hold {j : Nat} {other : Stream} (hj : (s.setStream i c).streams j = some other) :
      ∃ old, s.streams j = some old ∧ other.headerFrames = old.headerFrames ∧
        (other.streamId, other.finished) = (old.streamId, old.finished) := by
    by_cases hij : j = i
    · subst hij
      rw [setStream_self, Option.some.injEq] at hj
      subst hj
      exact ⟨self, hself, hc.frames, hc.stream⟩
    · rw [setStream_of_ne hij] at hj
      exact ⟨other, hj, rfl, rfl⟩
  refine ⟨fun hj hne => ?_, fun hp hj hlist => ?_, h.assembled.plain hc.log⟩
  · obtain ⟨old, hold, hframes, -⟩ := hold hj
    exact h.last hold (hframes ▸ hne)
  · obtain ⟨old, hold, hframes, hstream⟩ := hold hj
    have hb := h.buffered hp hold (hframes.symm.trans hlist)
    refine ⟨(congrArg Prod.snd hstream).trans hb.isOpen, ?_, hb.streamId.trans (congrArg Prod.fst hstream).symm,
      hb.incomplete⟩
    rw [show receivedFrames (s.setStream i c).conn.log = receivedFrames s.conn.log from hc.log.receivedFrames]
    exact hb.fragments

/-- With fragments collected, a frame that does not continue them is refused. -/
theorem Collecting.continues (hw : WellFormed s) (h : s.Collecting p) {frame : Frame}
    (hblock : s.breaksHeaderBlock frame = false) {i : Nat} {self : Stream} (hself : s.streams i = some self)
    (hframes : self.headerFrames ≠ []) : frame.type = .continuation ∧ frame.streamId = i := by
  rw [breaksHeaderBlock, h.last hself hframes, Option.bind_some, hself] at hblock
  simpa [Stream.needsContinuation, hframes, hw.streamId hself] using hblock

theorem Collecting.handledFrame (hw : WellFormed s) (h : s.Collecting (s.loop = .running)) (hloop : s.loop = .running)
    {frame : Frame} {later : Bool} {r : Except PyException Unit} (hh : Handled s frame later r s') :
    s'.Collecting (¬ Fatal r) := by
  have hreceived : AllAssembled (s.logged (.received frame)).conn.log := h.assembled.snoc nofun
  have hframes : receivedFrames (s.logged (.received frame)).conn.log = receivedFrames s.conn.log ++ [frame] :=
    receivedFrames_append
  cases hh with
  | oversized => exact h.mono rfl rfl h.assembled fun hfatal => absurd ⟨_, rfl, nofun⟩ hfatal
  | interrupted => exact h.mono rfl rfl hreceived fun hfatal => absurd ⟨_, rfl, nofun⟩ hfatal
  | passed _ hblock hd =>
    have hcontinues {i : Nat} {self : Stream} (hself : s.streams i = some self) (hne : self.headerFrames ≠ []) :
        frame.type = .continuation ∧ frame.streamId = i := h.continues hw hblock hself hne
    -- No stream has fragments if the frame is not one that continues them.
    have hempty (hnone : frame.type = .continuation → s.streams frame.streamId = none) (i : Nat) (self : Stream)
        (hself : s.streams i = some self) : self.headerFrames = [] := by
      by_contra hne
      obtain ⟨htype, rfl⟩ := hcontinues hself hne
      exact absurd (hself.symm.trans (hnone htype)) nofun
    cases hd with
    | conn hid =>
      refine h.mono rfl rfl (hreceived.plain (Conn.handleFrame_plain _ trivial).2) fun _ => .inr (hempty fun _ => ?_)
      rw [hid]
      exact hw.zero
    | @stream self hid hself =>
      refine Collecting.handled (hw.streamId hself) (fun j other hj hne => (hcontinues hj hne).2.symm) hframes
        (fun first rest hlist => ?_) hreceived
      exact ⟨(hcontinues hself (by simp [hlist])).1, h.buffered hloop hself hlist⟩
    | accepted hid hself hserver htype hremote =>
      have hplain : Grows Event.isPlain (s.logged (.received frame)).conn.log
          ((s.logged (.received frame)).accepted frame).conn.log :=
        Grows.trans (.snoc (e := .opened frame.streamId _) trivial) (.snoc (e := .startRequest _) trivial)
      refine Collecting.handled rfl (fun j other hj hne => ?_) (hplain.receivedFrames.trans hframes) nofun
        (hreceived.plain hplain)
      by_contra hid
      have hold : s.streams j = some other := (Function.update_of_ne hid _ _).symm.trans hj
      exact hne (hempty (by simp [htype]) j other hold)
    | invalid _ hself | ignored _ hself | past _ hself | future _ hself =>
      exact h.mono rfl rfl hreceived fun _ => .inr (hempty fun _ => hself)

theorem Collecting.step (hw : WellFormed s) (h : s.Collecting (s.loop = .running)) (a : Action) :
    (s.step a).Collecting ((s.step a).loop = .running) := by
  have hs := step_cases s a
  revert hs
  generalize s.step a = s'
  intro hs
  cases hs with
  | @received _ _ _ s₁ _ hloop hh ha =>
    have h₁ := h.handledFrame hw hloop hh
    cases ha with
    | nothing =>
      refine h₁.mono rfl rfl h₁.assembled fun _ => .inl ⟨?_, rfl⟩
      rintro ⟨_, he, _⟩
      cases he
    | @reset i code =>
      have hplain : Grows Event.isPlain s₁.conn.log (s₁.logged (.wrote (rstStreamFrame i code))).conn.log :=
        .snoc trivial
      refine h₁.mono rfl rfl (h₁.assembled.plain hplain) fun _ => .inl ⟨?_, hplain.receivedFrames⟩
      rintro ⟨_, he, hne⟩
      cases he
      exact hne _ _ rfl
    | goaway => exact h₁.mono rfl rfl (h₁.assembled.plain (.snoc trivial)) nofun
    | ended => exact h₁.mono rfl rfl h₁.assembled nofun
  | created =>
    exact Collecting.withStream (s := { s with conn := { s.conn with nextStreamId := s.conn.nextStreamId + 2 } })
      ⟨h.last, h.buffered, h.assembled⟩ rfl
  | upgraded => exact h.withStream rfl
  | closed hloop => exact h.mono rfl rfl h.assembled fun hl => .inl ⟨hloop hl, rfl⟩
  | method ha hself =>
    refine h.method hself ?_
    rcases Stream.method_sends ha with hm | ⟨k, rfl⟩
    · exact (hm _ _ rfl).2.undisturbed
    · exact (Stream.resolveData_undisturbed _ trivial).2
  | idle => exact h

/-- A frame that breaks a header block ends the connection and changes nothing
else. -/
theorem Collecting.interrupted (hw : WellFormed s) (h : s.Collecting p) (hloop : s.loop = .running) {i : Nat}
    {self : Stream} (hself : s.streams i = some self) (hframes : self.headerFrames ≠ []) {frame : Frame}
    (hframe : ¬(frame.type = .continuation ∧ frame.streamId = i)) (later : Bool) :
    (∃ code message, s.outcome frame later = .error (.connectionError code message)) ∧
      (s.step (.receive frame later)).streams = s.streams ∧
      (s.step (.receive frame later)).conn.hpackDecoder = s.conn.hpackDecoder := by
  obtain ⟨s₁, hh, ha⟩ := step_outcome hloop frame later
  have hdecoder : (s.step (.receive frame later)).conn.hpackDecoder = s₁.conn.hpackDecoder := by
    revert ha
    generalize s.outcome frame later = r
    generalize s.step (.receive frame later) = s'
    intro ha
    cases ha <;> rfl
  rw [ha.streams, hdecoder]
  revert hh
  generalize s.outcome frame later = r
  intro hh
  cases hh with
  | oversized => exact ⟨⟨_, _, rfl⟩, rfl, rfl⟩
  | interrupted => exact ⟨⟨_, _, rfl⟩, rfl, rfl⟩
  | passed _ hblock => exact absurd (h.continues hw hblock hself hframes) hframe

theorem Collecting.start (isClient : Bool) (params : Params) : (start isClient params).Collecting True := by
  have hnil : AllAssembled [] := fun before data after hlog => by simp at hlog
  exact ⟨fun hself => by simp [System.start] at hself, fun _ hself => by simp [System.start] at hself, hnil.snoc nofun⟩

/-- At most one stream has fragments, the last one that was handed a frame; only
a CONTINUATION of that stream is let through then; and the decoder gets complete
header blocks whose frames came one after the other. -/
theorem header_blocks (isClient : Bool) (params : Params) (actions : List Action) :
    let s := (start isClient params).run actions
    (∀ i self, s.streams i = some self → self.headerFrames ≠ [] → s.lastStream = some i ∧
      (s.loop = .running → ∀ frame later, ¬(frame.type = .continuation ∧ frame.streamId = i) →
        (∃ code message, s.outcome frame later = .error (.connectionError code message)) ∧
          (s.step (.receive frame later)).streams = s.streams ∧
          (s.step (.receive frame later)).conn.hpackDecoder = s.conn.hpackDecoder)) ∧
      ∀ before data after, s.conn.log = before ++ .decoded data :: after → Assembled (receivedFrames before) data := by
  intro s
  obtain ⟨hw, h⟩ := List.foldlRecOn (motive := fun s => WellFormed s ∧ s.Collecting (s.loop = .running)) actions
    System.step ⟨.start isClient params, (Collecting.start isClient params).mono rfl rfl
      (Collecting.start isClient params).assembled fun _ => .inl ⟨trivial, rfl⟩⟩
    fun _ h a _ => ⟨h.1.step a, h.2.step h.1 a⟩
  refine ⟨fun i self hself hframes => ⟨h.last hself hframes, fun hloop frame later hframe => ?_⟩, h.assembled⟩
  exact h.interrupted hw hloop hself hframes hframe later

/-- A HEADERS frame with the PRIORITY flag and two bytes of payload, and the
rest of its block. -/
def splitPriority : List Action :=
  [.receive ⟨.headers, 0x20, 1, [0, 0]⟩ false,
    .receive ⟨.continuation, 0x4, 1, [0, 0, 7, 0x82, 0x84, 0x87]⟩ false]

/-- The five bytes are not taken from the HEADERS payload alone. -/
theorem priority_not_from_headers : ¬ ∀ isClient params actions before data after,
    ((start isClient params).run actions).conn.log = before ++ .decoded data :: after →
      ∃ earlier headers rest first, receivedFrames before = earlier ++ headers :: rest ∧
        headers.type = .headers ∧ headers.withoutPadding = .ok first ∧
        (∀ f ∈ rest, f.type = .continuation ∧ f.streamId = headers.streamId) ∧
        data = (if first.has .priority then first.data.drop 5 else first.data) ++ rest.flatMap Frame.data := by
  intro h
  have hlog : ((start false (.new none .caseless)).run splitPriority).conn.log =
      [.wrote (settingsFrame false), .received ⟨.headers, 0x20, 1, [0, 0]⟩, .opened 1 65535, .startRequest 1,
        .received ⟨.continuation, 0x4, 1, [0, 0, 7, 0x82, 0x84, 0x87]⟩] ++ .decoded [0x82, 0x84, 0x87] ::
        [.called 1 (.headersReceived (.request (some (ascii "GET")) (some (ascii "/"))) .empty)] := by
    decide +kernel
  obtain ⟨earlier, headers, rest, first, hframes, htype, hpadding, -, hdata⟩ :=
    h false (.new none .caseless) _ _ _ _ hlog
  have hread : [⟨.headers, 0x20, 1, [0, 0]⟩, ⟨.continuation, 0x4, 1, [0, 0, 7, 0x82, 0x84, 0x87]⟩] =
      earlier ++ headers :: rest := hframes
  cases earlier with
  | nil =>
    obtain ⟨rfl, rfl⟩ := List.cons.inj hread
    cases hpadding
    exact absurd hdata (by decide)
  | cons frame earlier =>
    obtain ⟨-, hread⟩ := List.cons.inj hread
    cases earlier with
    | nil =>
      obtain ⟨rfl, -⟩ := List.cons.inj hread
      cases htype
    | cons frame earlier => simp at hread

end System

end TornadoHttp2
