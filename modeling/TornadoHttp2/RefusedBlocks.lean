import TornadoHttp2.BlockReceipt
import TornadoHttp2.BlockWriting
import TornadoHttp2.DecoderSync
import TornadoHttp2.HeaderBlocks
import TornadoHttp2.ProtocolErrors
import TornadoHttp2.SharedInvariants

/-! Header blocks over the limit, fragment by fragment. A server answers the one
that takes its block past `max_header_size` with a 431 and every one after it
with another, and a block that is complete is parsed whatever its length. -/

namespace TornadoHttp2

open Prog Ctx

namespace Stream

/-- The fields of the block are a message that the delegate is told of. -/
def FieldsStart (c : Ctx) (data : Bytes) : Prop :=
  c.self.phase = .headers ∧ ∃ headers p, (c.conn.hpackDecoder.decode c.conn.huffmanTree data).1 = .ok headers ∧
    addHeaders c.conn.params.unicode c.conn.isClient c.self.streamId
      ⟨[], .empty, c.self.phase = .trailers⟩ headers = .ok p ∧
      ¬ p.IsInvalid c.conn.isClient ∧ Startable c p

/-- The same of what comes after the stream dependency and the weight. -/
def BlockStarts (c : Ctx) (first : Frame) (data : Bytes) : Prop :=
  if first.has .priority then
    5 ≤ data.length ∧ unpackBytes (data.take 4) &&& 0x7fffffff ≠ first.streamId ∧ FieldsStart c (data.drop 5)
  else FieldsStart c data

variable {c : Ctx} {p : ParsedHeaders} {frame first : Frame} {rest : List Frame}

theorem messages_callDelegate {startLine : StartLine (Option Bytes)} {headers : HTTPHeaders (Option Bytes)} :
    wp (callDelegate (.headersReceived startLine headers))
      (fun _ c' => messages c'.conn.log = messages c.conn.log ++ [(c.self.streamId, startLine, headers)])
      (fun _ c' => messages c'.conn.log = messages c.conn.log) c := by
  rw [callDelegate, wp_bind, wp_get, wp_bind, wp_check]
  exact ⟨fun _ => rfl, fun _ => messages_append ..⟩

/-- `_start_request` tells the delegate of a message at its end. -/
theorem startRequest_tells : wp (startRequest p)
    (fun _ c' => ∃ m, messages c'.conn.log = messages c.conn.log ++ [m])
    (fun _ c' => messages c'.conn.log = messages c.conn.log) c := by
  have hset (f : Stream → Stream) (_ : ∀ s, (f s).kept = s.kept) :
      Keeps (fun c' : Ctx => messages c'.conn.log = messages c.conn.log) Anything (setSelf f) := fun _ h => ⟨h, trivial⟩
  rw [startRequest, wp_bind, wp_get, wp_bind, wp_check]
  refine ⟨fun _ => rfl, fun _ => ?_⟩
  rw [wp_bind, wp_check]
  refine ⟨fun _ => rfl, fun _ => ?_⟩
  rw [wp_bind]
  refine (readStartLine_keeps hset).wp rfl (fun startLine c₁ h₁ _ => ?_) fun _ _ h _ => h
  rw [wp_bind]
  refine (setIncomingContent_keeps hset).wp h₁ (fun _ c₂ h₂ _ => ?_) fun _ _ h _ => h
  have hcall {c' : Ctx} (h : messages c'.conn.log = messages c.conn.log) : wp (do
      setSelf fun s => { s with delegateStarted := true }
      callDelegate (.headersReceived startLine p.headers))
      (fun _ c' => ∃ m, messages c'.conn.log = messages c.conn.log ++ [m])
      (fun _ c' => messages c'.conn.log = messages c.conn.log) c' := by
    rw [setSelf, wp_bind, wp_modify, ← h]
    exact wp_mono messages_callDelegate (fun _ _ h => ⟨_, h⟩) fun _ _ h => h
  rw [wp_bind, wp_when]
  exact ⟨fun _ => hcall h₂, fun _ => hcall h₂⟩

theorem startRequest_messages (hserver : c.conn.isClient = false) (hc : c.Delegated) :
    messages ((startRequest p).run c).2.conn.log = messages c.conn.log ↔
      ¬ (¬ p.IsInvalid c.conn.isClient ∧ Startable c p) := by
  have htells := @startRequest_tells c p
  have hanswers := @startRequest_answers (fun _ => True) c p (fun _ _ => trivial) hc
  rcases hrun : (startRequest p).run c with ⟨e | _, c'⟩
  · refine iff_of_true ((wp_of_error hrun).mp htells) ?_
    rintro ⟨hvalid, hstart⟩
    have hpresent {k : Bytes} (hk : k ∈ [ascii ":method", ascii ":scheme", ascii ":path"]) :
        ∃ v, p.pseudoHeaders.lookup k = some v := by
      cases hlookup : p.pseudoHeaders.lookup k with
      | some v => exact ⟨v, rfl⟩
      | none => exact absurd (.inr (.inr ⟨hserver, List.any_eq_true.mpr ⟨k, hk, by rw [hlookup]; rfl⟩⟩)) hvalid
    obtain ⟨method, hmethod⟩ := hpresent (k := ascii ":method") (by simp)
    obtain ⟨path, hpath⟩ := hpresent (k := ascii ":path") (by simp)
    rw [Startable, hserver, if_neg Bool.false_ne_true] at hstart
    obtain ⟨_, _, hok, -⟩ := @startRequest_run c p (.request method path) hstart.1 hvalid
      ⟨hserver, hmethod, hpath⟩ hstart.2
    cases (congrArg Prod.fst hrun).symm.trans (congrArg Prod.fst hok)
  · obtain ⟨m, hm⟩ := (wp_of_ok hrun).mp htells
    refine iff_of_false (fun h => ?_) (not_not.mpr ?_)
    · rw [hm] at h
      simp at h
    · have hvalid : ¬ p.IsInvalid c.conn.isClient := fun hinvalid => by
        obtain ⟨e, herror, -⟩ := startRequest_invalid hinvalid
        cases (congrArg Prod.fst hrun).symm.trans (congrArg Prod.fst herror)
      exact ⟨hvalid, (hanswers.mp ((wp_of_ok hrun).mpr trivial)).resolve_left hvalid⟩

theorem takeFields_messages (hserver : c.conn.isClient = false) (hc : c.Delegated)
    {headers : List (Bytes × Option Bytes × HeaderIndexMode)} :
    messages ((takeFields frame headers).run c).2.conn.log = messages c.conn.log ↔
      ¬ (c.self.phase = .headers ∧ ∃ p,
        addHeaders c.conn.params.unicode c.conn.isClient c.self.streamId
          ⟨[], .empty, c.self.phase = .trailers⟩ headers = .ok p ∧
          ¬ p.IsInvalid c.conn.isClient ∧ Startable c p) := by
  rw [takeFields, run_get_bind]
  cases haddHeaders : addHeaders c.conn.params.unicode c.conn.isClient c.self.streamId
    ⟨[], .empty, c.self.phase = .trailers⟩ headers with
  | error e =>
    refine iff_of_true rfl ?_
    rintro ⟨_, p, h, _⟩
    cases h
  | ok p =>
    change messages
      ((when (c.self.phase = .headers) (startRequest p) >>= fun _ => endBlock frame).run c).2.conn.log = _ ↔ _
    by_cases hphase : c.self.phase = .headers
    · have hstart : messages ((startRequest p >>= fun _ => endBlock frame).run c).2.conn.log =
          messages ((startRequest p).run c).2.conn.log := by
        rcases hrun : (startRequest p).run c with ⟨e | _, c'⟩
        · rw [bind_error hrun]
        · rw [bind_ok hrun]
          exact endBlock_messages
      rw [when, if_pos hphase, hstart, startRequest_messages hserver hc]
      simp [hphase]
    · rw [when, if_neg hphase]
      exact iff_of_true endBlock_messages fun h => hphase h.1

theorem decodeHeaders_run {data : Bytes} {result : Except PyException (List (Bytes × Option Bytes × HeaderIndexMode))}
    {hpackDecoder : HpackDecoder} {huffmanTree : HuffmanTree}
    (h : c.conn.hpackDecoder.decode c.conn.huffmanTree data = (result, hpackDecoder, huffmanTree)) :
    (decodeHeaders data).run c = (result.mapError fun _ => .connectionError .compressionError none,
      ⟨{ c.conn with log := c.conn.log ++ [.decoded data], hpackDecoder, huffmanTree }, c.self⟩) := by
  have hemit : (emit (.decoded data)).run c = (.ok (), c.logged (.decoded data)) := rfl
  have hdecode : (c.logged (.decoded data)).conn.hpackDecoder.decode (c.logged (.decoded data)).conn.huffmanTree data =
      (result, hpackDecoder, huffmanTree) := h
  rw [decodeHeaders, bind_ok hemit, run_get_bind, hdecode]
  cases result <;> rfl

theorem decodeFields_messages (hserver : c.conn.isClient = false) (hc : c.Delegated) {data : Bytes} :
    messages ((decodeHeaders data >>= takeFields frame).run c).2.conn.log = messages c.conn.log ↔
    ¬ FieldsStart c data := by
  have hlogged : messages (c.conn.log ++ [.decoded data]) = messages c.conn.log :=
    (messages_append ..).trans (List.append_nil _)
  rcases hdecode : c.conn.hpackDecoder.decode c.conn.huffmanTree data with ⟨e | headers, hpackDecoder, huffmanTree⟩
  · rw [bind_error (decodeHeaders_run hdecode), FieldsStart, hdecode]
    refine iff_of_true hlogged ?_
    rintro ⟨_, _, _, h, _⟩
    cases h
  · have htake := @takeFields_messages
      ⟨{ c.conn with log := c.conn.log ++ [.decoded data], hpackDecoder, huffmanTree }, c.self⟩ frame hserver hc headers
    rw [bind_ok (decodeHeaders_run hdecode), ← hlogged, FieldsStart, hdecode]
    refine htake.trans (not_congr (and_congr_right fun _ => ?_))
    constructor
    · rintro ⟨p, h⟩
      exact ⟨headers, p, rfl, h⟩
    · rintro ⟨_, p, heq, h⟩
      cases heq
      exact ⟨p, h⟩

/-- The delegate is told of a message exactly if the complete block is one. -/
theorem parseHeaders_messages (hserver : c.conn.isClient = false) (hc : c.Delegated)
    (hframes : c.self.headerFrames = first :: rest) :
    messages (parseHeaders.run c).2.conn.log = messages c.conn.log ↔
      ¬ BlockStarts c first ((first :: rest).flatMap Frame.data) := by
  rw [parseHeaders, run_get_bind, hframes]
  change messages ((parseBlock first ((first :: rest).flatMap Frame.data)).run
    ⟨c.conn, { c.self with headerFrames := [] }⟩).2.conn.log = _ ↔ _
  rw [parseBlock_eq, stripPriority, BlockStarts]
  split
  · by_cases hlength : ((first :: rest).flatMap Frame.data).length < 5
    · rw [Prog.bind_assoc, run_check_of_pos hlength]
      exact iff_of_true rfl fun h => by omega
    · rw [Prog.bind_assoc, run_check_of_neg hlength, Prog.bind_assoc]
      by_cases hself : unpackBytes (((first :: rest).flatMap Frame.data).take 4) &&& 0x7fffffff = first.streamId
      · rw [run_check_of_pos hself]
        exact iff_of_true rfl fun h => h.2.1 hself
      · rw [run_check_of_neg hself, run_pure_bind]
        refine Iff.trans (@decodeFields_messages ⟨c.conn, { c.self with headerFrames := [] }⟩ first hserver hc _)
          (not_congr ?_)
        exact ⟨fun h => ⟨by omega, hself, h⟩, fun h => h.2.2⟩
  · exact @decodeFields_messages ⟨c.conn, { c.self with headerFrames := [] }⟩ first hserver hc _

end Stream

/-- The header blocks that were written for a stream. -/
def headerBlocks (i : Nat) (log : List Event) : List Frame :=
  (framesOf log).filter fun f => f.type = .headers ∧ f.streamId = i

/-- The frames that were written to end a stream. -/
def endings (i : Nat) (log : List Event) : List Frame :=
  (framesOf log).filter fun f => f.has .endStream = true ∧ f.streamId = i ∧ (f.type = .headers ∨ f.type = .data)

section

variable {i : Nat} {log log' : List Event} {frames : List Frame}

theorem headerBlocks_append : headerBlocks i (log ++ log') = headerBlocks i log ++ headerBlocks i log' := by
  rw [headerBlocks, framesOf_append, List.filter_append, headerBlocks, headerBlocks]

theorem endings_append : endings i (log ++ log') = endings i log ++ endings i log' := by
  rw [endings, framesOf_append, List.filter_append, endings, endings]

end

/-- Nothing that opens or ends a response is written. -/
structure Ctx.Hushed (c c' : Ctx) : Prop where
  blocks (i : Nat) : headerBlocks i c'.conn.log = headerBlocks i c.conn.log
  endings (i : Nat) : endings i c'.conn.log = endings i c.conn.log

theorem Ctx.Hushed.receives {i : Nat} {c c' : Ctx} (h : ReceivesOnly i c c') : c.Hushed c' := by
  obtain ⟨es, hlog, hes⟩ := h.log
  have hframes : ∀ f ∈ framesOf es, f.type = .windowUpdate := by
    intro f hf
    obtain ⟨e, he, hframe⟩ := List.mem_filterMap.mp hf
    cases e with
    | wrote frame =>
      cases hframe
      exact (hes _ he).1
    | _ => cases hframe
  constructor
  · intro j
    rw [hlog, headerBlocks_append]
    refine List.append_right_eq_self.mpr (List.filter_eq_nil_iff.mpr fun f hf => ?_)
    simp [hframes f hf]
  · intro j
    rw [hlog, endings_append]
    refine List.append_right_eq_self.mpr (List.filter_eq_nil_iff.mpr fun f hf => ?_)
    simp [hframes f hf]

namespace Stream

theorem appendHeaderFrame_server {c : Ctx} {frame : Frame} (hserver : c.conn.isClient = false) :
    (appendHeaderFrame frame).run c =
      (when (c.conn.params.maxHeaderSize < c.self.headerLength + frame.data.length) refuse >>=
      fun _ => when (frame.has .endHeaders = true) parseHeaders).run
        ⟨c.conn, { c.self with headerFrames := c.self.headerFrames ++ [frame] }⟩ := by
  rw [appendHeaderFrame, setSelf, run_modify_bind, checkHeaderLength, Prog.bind_assoc, run_get_bind]
  dsimp only
  rw [headerLength_append, hserver]
  rfl

variable {c : Ctx}

theorem headerBlock_refusal (hserver : c.conn.isClient = false)
    (hstart : c.self.requestStartLine = some (some (ascii "GET"), some (ascii "/"))) :
    (headerBlock (.response 431) .empty).run c = (encodeHeaders [(ascii ":status", ascii "431", .yes)]).run c := by
  have hmethod : ¬ some (ascii "GET") = some (ascii "HEAD") := by decide
  have hcode : ascii (toString (431 : Int)) = ascii "431" := by decide
  have hbodiless : (isBodiless (.response 431)).run c = (.ok false, c) :=
    (isBodiless_run hserver hstart).trans (by simp [hmethod])
  have hcontent : (setOutgoingContent (.response 431) .empty).run c = (.ok (), c) := by
    rw [setOutgoingContent, bind_ok hbodiless]
    rfl
  have hpseudo : (pseudoHeaderList (.response 431)).run c = (.ok [(ascii ":status", ascii "431", .yes)], c) := by
    rw [pseudoHeaderList, run_get_bind, hserver]
    dsimp only
    rw [hcode]
    rfl
  rw [headerBlock, bind_ok hcontent, bind_ok hpseudo]
  rfl

theorem resetOnError_run {m : OnStream Unit} {c' : Ctx} (h : m.run c = (.ok (), c')) :
    (resetOnError m).run c = (.ok (), c') := by
  simp only [resetOnError, catching, h]

/-- The 431 goes out, and the stream is as before. -/
theorem writeHeaders_refusal (hserver : c.conn.isClient = false) (hencoder : c.conn.hpackEncoder.Small)
    (hopen : c.conn.closed = false) (hid : c.self.streamId < 2 ^ 31)
    (hstart : c.self.requestStartLine = some (some (ascii "GET"), some (ascii "/"))) :
    ∃ block table, (writeHeaders (.response 431) .empty [] none).run c = (.ok (), ⟨{ c.conn with
        hpackEncoder := { c.conn.hpackEncoder with table }
        log := c.conn.log ++ [.issued c.self.streamId .writeHeaders, .wrote (c.headersFrame block),
          .accepted c.self.streamId []] }, c.self⟩) ∧
      Carries c.conn.hpackEncoder.table block [(ascii ":status", ascii "431")] table ∧
      HpackEncoder.Small { c.conn.hpackEncoder with table } := by
  have hencodes (tree : HuffmanTree) (htree : tree.Complete) :=
    @decode_encode_block _ inStep_eq _ ⟨c.conn.hpackEncoder.table⟩ tree hencoder.sized rfl htree
      [(ascii ":status", ascii "431", .yes)]
  obtain ⟨block, table, -, -, hencode, -⟩ := hencodes huffmanTree huffmanTree_complete
  have hsmall : HpackEncoder.Small { c.conn.hpackEncoder with table } :=
    hencoder.encodes (.inr ⟨_, (congrArg Prod.snd hencode).symm⟩)
  let c₁ : Ctx := ⟨{ c.conn with
    hpackEncoder := { c.conn.hpackEncoder with table }
    log := c.conn.log ++ [.issued c.self.streamId .writeHeaders] }, c.self⟩
  have hblock : (headerBlock (.response 431) .empty).run (c.issued .writeHeaders) = (.ok block, c₁) := by
    have hencode' : (HpackEncoder.encode [(ascii ":status", ascii "431", .yes)]).run
        (c.issued .writeHeaders).conn.hpackEncoder =
        (.ok block, { c.conn.hpackEncoder with table }) := hencode
    rw [@headerBlock_refusal (c.issued .writeHeaders) hserver hstart,
      encodeHeaders, onConn, run_zoom, run_zoom, hencode']
    rfl
  have hlength : block.length < 2 ^ 31 := by
    have hshort := headerBlock_status (c := c.issued .writeHeaders) hencoder (congrArg Prod.fst hblock)
    omega
  refine ⟨block, table, ?_, fun tree htree => ?_, hsmall⟩
  · have hemit : (emit (.issued c.self.streamId .writeHeaders)).run c = (.ok (), c.issued .writeHeaders) := rfl
    have hwrite : (writeFrame (c.headersFrame block)).run c₁ = (.ok (), c₁.logged (.wrote (c.headersFrame block))) :=
      writeFrame_run hlength hid hopen
    have hempty : (write [] none).run (c₁.logged (.wrote (c.headersFrame block))) =
        (.ok (), (c₁.logged (.wrote (c.headersFrame block))).logged (.accepted c.self.streamId [])) :=
          resetOnError_run rfl
    rw [writeHeaders_eq]
    refine resetOnError_run ?_
    rw [run_get_bind, bind_ok hemit, bind_ok hblock]
    refine (bind_ok hwrite _).trans (hempty.trans ?_)
    simp [c₁, logged]
  · obtain ⟨_, _, _, decoded, hencode', hdecode, hmap, -, rfl⟩ := hencodes tree htree
    cases hencode.symm.trans hencode'
    exact ⟨decoded, hdecode, hmap⟩

end Stream

/-- END_STREAM can be written: the socket is open, no writer holds the lock, and
no content is missing. -/
structure Ctx.CanEnd (c : Ctx) : Prop where
  socket : c.conn.closed = false
  lock : c.self.writeLock.owner = .free
  content : ∀ n ∈ c.self.outgoingContentRemaining, n = 0

/-- One 431 and one END_STREAM have been written. -/
structure Ctx.Refusal (c c' : Ctx) : Prop where
  self : c'.self = { c.self with requestStartLine := some (some (ascii "GET"), some (ascii "/")) }
  conn : c'.conn.receiving = c.conn.receiving
  encoder : c'.conn.hpackEncoder.Small
  blocks : ∃ block table, headerBlocks c.self.streamId c'.conn.log =
    headerBlocks c.self.streamId c.conn.log ++ [c.headersFrame block] ∧
    Carries c.conn.hpackEncoder.table block [(ascii ":status", ascii "431")] table
  endings : endings c.self.streamId c'.conn.log = endings c.self.streamId c.conn.log ++ [c.endStreamFrame]
  messages : messages c'.conn.log = messages c.conn.log

theorem endings_headersFrame {c : Ctx} {i : Nat} {block : Bytes} : endings i [.wrote (c.headersFrame block)] = [] := by
  have hflag : FrameFlag.endHeaders.value &&& FrameFlag.endStream.value = 0 := by decide
  simp [endings, framesOf, Event.frame, Ctx.headersFrame, Frame.has, hflag]

theorem endings_endStreamFrame {c : Ctx} : endings c.self.streamId [.wrote c.endStreamFrame] = [c.endStreamFrame] := by
  have hflag : FrameFlag.endStream.value &&& FrameFlag.endStream.value ≠ 0 := by decide
  refine List.filter_eq_self.mpr fun f hf => ?_
  rw [List.mem_singleton.mp hf]
  exact decide_eq_true ⟨decide_eq_true hflag, rfl, .inr rfl⟩

theorem Ctx.Resets.endings {c c' : Ctx} {i : Nat} (h : c.Resets c') : endings i c'.conn.log = endings i c.conn.log := by
  rcases h with rfl | rfl
  · rfl
  · have hreset : TornadoHttp2.endings i [.wrote c.resetFrame] = [] := by
      simp [TornadoHttp2.endings, framesOf, Event.frame, Ctx.resetFrame, Frame.has]
    rw [Ctx.logged, endings_append, hreset, List.append_nil]

theorem Ctx.Resets.same {c c' : Ctx} (h : c.Resets c') : c'.self = c.self ∧ c'.conn.closed = c.conn.closed := by
  rcases h with rfl | rfl <;> exact ⟨rfl, rfl⟩

namespace Stream

variable {c : Ctx}

theorem finish_free (hopen : c.conn.closed = false) (hid : c.self.streamId < 2 ^ 31)
    (hlock : c.self.writeLock = ⟨.free, []⟩) (hcontent : ∀ n ∈ c.self.outgoingContentRemaining, n = 0) :
    finish.run c = (.ok (), (c.issued .finish).logged (.wrote c.endStreamFrame)) := by
  have hcheck : ¬ c.self.outgoingContentRemaining.any (· ≠ 0) = true := by
    cases hremaining : c.self.outgoingContentRemaining with
    | none => simp
    | some n => simpa using hcontent n hremaining
  let c₁ : Ctx := (c.issued .finish).withOwner (.writer .endStream .lock)
  have hemit : (emit (.issued c.self.streamId .finish)).run c = (.ok (), c.issued .finish) := rfl
  have hwrite : (writeFrame c.endStreamFrame).run c₁ = (.ok (), c₁.logged (.wrote c.endStreamFrame)) :=
    writeFrame_run (Nat.two_pow_pos 31) hid hopen
  have hcaught : (catching (writeFrame ⟨.data, FrameFlag.endStream.value, c₁.self.streamId, []⟩) fun _ =>
      catching reset fun _ => pure ()).run c₁ = (.ok (), c₁.logged (.wrote c.endStreamFrame)) := by
    rw [catching]
    dsimp only
    rw [show (writeFrame ⟨.data, FrameFlag.endStream.value, c₁.self.streamId, []⟩).run c₁ = _ from hwrite]
  have hresume : resumeEndStream.run c₁ = (.ok (), (c₁.logged (.wrote c.endStreamFrame)).released) := by
    rw [resumeEndStream, run_get_bind, bind_ok hcaught]
    rfl
  have hrelease : (c₁.logged (.wrote c.endStreamFrame)).self.writeLock.release = c.self.writeLock := by
    change WriteLock.release ⟨.writer .endStream .lock, c.self.writeLock.waiters⟩ = _
    rw [hlock]
    rfl
  have hreleased : (c₁.logged (.wrote c.endStreamFrame)).released =
      (c.issued .finish).logged (.wrote c.endStreamFrame) := by
    rw [released, hrelease]
    rfl
  have hfree : (c.issued .finish).self.writeLock.owner = .free := congrArg WriteLock.owner hlock
  refine resetOnError_run ?_
  rw [run_get_bind, bind_ok hemit, run_check_of_neg hcheck, writeEndStream, acquire, run_get_bind,
    if_pos hfree, ← hreleased]
  exact hresume

/-- Where END_STREAM cannot be written, `finish` does not write it, and it still cannot be. -/
theorem finish_mute {i : Nat} (h : ¬ c.CanEnd) :
    endings i (finish.run c).2.conn.log = endings i c.conn.log ∧ ¬ (finish.run c).2.CanEnd := by
  have hissued : endings i (c.issued .finish).conn.log = endings i c.conn.log :=
    endings_append.trans (List.append_nil _)
  have hfinishes : Finishes c (finish.run c).2 := wp_state.mp finish_wp
  revert hfinishes
  generalize (finish.run c).2 = c'
  intro hfinishes
  cases hfinishes with
  | short hremaining hshort hr =>
    refine ⟨hr.endings.trans hissued, fun hend => hshort (hend.content _ ?_)⟩
    rw [hr.same.1]
    exact hremaining
  | ends hremaining ha =>
    cases ha with
    | granted hfree hs =>
      have hclosed : ∀ c' : Ctx, c'.conn.closed = c.conn.closed → ¬ c'.CanEnd := by
        intro c' hsame hend
        exact h ⟨hsame.symm.trans hend.socket, hfree, hremaining⟩
      cases hs with
      | idle => exact ⟨hissued, hclosed _ rfl⟩
      | ends _ hopen => exact absurd ⟨hopen, hfree, hremaining⟩ h
      | aborts _ hr => exact ⟨hr.endings.trans hissued, hclosed _ hr.same.2⟩
      | failed howner => cases howner
      | finished howner => cases howner
      | waits howner => cases howner
      | waitsParent howner => cases howner
      | takes howner => cases howner
      | debits howner => cases howner
      | writes howner => cases howner
    | queued hbusy => exact ⟨hissued, fun hend => hbusy hend.lock⟩

theorem refuse_run (hserver : c.conn.isClient = false) (hencoder : c.conn.hpackEncoder.Small)
    (hopen : c.conn.closed = false)
    (hid : c.self.streamId < 2 ^ 31) (hlock : c.self.writeLock = ⟨.free, []⟩)
    (hcontent : ∀ n ∈ c.self.outgoingContentRemaining, n = 0) : ∃ c', refuse.run c = (.ok (), c') ∧ c.Refusal c' := by
  obtain ⟨block, table, hheaders, hcarries, hsmall⟩ := @writeHeaders_refusal
    ⟨c.conn, { c.self with requestStartLine := some (some (ascii "GET"), some (ascii "/")) }⟩
      hserver hencoder hopen hid rfl
  let es : List Event :=
    [.issued c.self.streamId .writeHeaders, .wrote (c.headersFrame block), .accepted c.self.streamId [],
    .issued c.self.streamId .finish, .wrote c.endStreamFrame]
  let c₁ : Ctx := ⟨{ c.conn with
    hpackEncoder := { c.conn.hpackEncoder with table }
    log := c.conn.log ++ [.issued c.self.streamId .writeHeaders,
      .wrote (c.headersFrame block), .accepted c.self.streamId []] },
    { c.self with requestStartLine := some (some (ascii "GET"), some (ascii "/")) }⟩
  have hfinish : finish.run c₁ = (.ok (), (c₁.issued .finish).logged (.wrote c₁.endStreamFrame)) :=
    finish_free hopen hid hlock hcontent
  have hlog : ((c₁.issued .finish).logged (.wrote c₁.endStreamFrame)).conn.log = c.conn.log ++ es := by
    simp [c₁, es, issued, logged, endStreamFrame]
  have hframes : framesOf es = [c.headersFrame block, c.endStreamFrame] := rfl
  refine ⟨_, (bind_ok hheaders _).trans hfinish, rfl, rfl, hsmall, ⟨block, table, ?_, hcarries⟩, ?_, ?_⟩
  · rw [hlog, headerBlocks_append, headerBlocks, headerBlocks, hframes]
    refine congrArg _ ?_
    simp [headersFrame, endStreamFrame]
  · have hends : endings c.self.streamId es = endings c.self.streamId [.wrote (c.headersFrame block)] ++
        endings c.self.streamId [.wrote c.endStreamFrame] :=
          @endings_append _ [.wrote (c.headersFrame block)] [.wrote c.endStreamFrame]
    rw [hlog, endings_append, hends, endings_headersFrame, endings_endStreamFrame, List.nil_append]
  · rw [hlog, messages_append]
    exact List.append_nil _

/-- Where END_STREAM cannot be written, a refusal does not write it. -/
theorem refuse_mute {i : Nat} (hserver : c.conn.isClient = false) (hencoder : c.conn.hpackEncoder.Small)
    (hid : c.self.streamId < 2 ^ 31) (h : ¬ c.CanEnd) :
    endings i (refuse.run c).2.conn.log = endings i c.conn.log ∧ ¬ (refuse.run c).2.CanEnd := by
  let c₁ : Ctx := ⟨c.conn, { c.self with requestStartLine := some (some (ascii "GET"), some (ascii "/")) }⟩
  have h₁ : ¬ c₁.CanEnd := fun hend => h ⟨hend.socket, hend.lock, hend.content⟩
  have hheaders : endings i ((writeHeaders (.response 431) .empty [] none).run c₁).2.conn.log = endings i c.conn.log ∧
      ¬ ((writeHeaders (.response 431) .empty [] none).run c₁).2.CanEnd := by
    by_cases hopen : c.conn.closed = false
    · obtain ⟨block, table, hrun, -⟩ := @writeHeaders_refusal c₁ hserver hencoder hopen hid rfl
      rw [hrun]
      refine ⟨?_, fun hend => h₁ ⟨hopen, hend.lock, hend.content⟩⟩
      have hnone : endings i [.issued c₁.self.streamId .writeHeaders,
          .wrote (c₁.headersFrame block), .accepted c₁.self.streamId []] = [] :=
        endings_headersFrame
      rw [endings_append, hnone, List.append_nil]
    · have hwrites : WritesHeaders c₁ (.response 431) .empty
          [] none ((writeHeaders (.response 431) .empty [] none).run c₁).2 :=
        wp_state.mp writeHeaders_wp
      have hsame : ((writeHeaders (.response 431) .empty [] none).run c₁).2.conn.closed = c.conn.closed :=
        congrArg (fun t => t.2.2.2.2.2.2) (writeHeaders_sends c₁ rfl).2.conn
      refine ⟨?_, fun hend => hopen (hsame.symm.trans hend.socket)⟩
      revert hwrites
      generalize ((writeHeaders (.response 431) .empty [] none).run c₁).2 = c'
      intro hwrites
      cases hwrites with
      | failed hprepared hr =>
        obtain ⟨es, hes, hframes⟩ := hprepared.frames
        have hnone : endings i (.issued c.self.streamId .writeHeaders :: es) = [] := by
          rw [endings, show framesOf (.issued c.self.streamId .writeHeaders :: es) = framesOf es from rfl, hframes]
          rfl
        rw [hr.endings, hes, issued, logged, List.append_assoc, endings_append]
        exact (congrArg _ hnone).trans (List.append_nil _)
      | written hheads =>
        cases hheads with
        | mk _ _ hopen' => exact absurd hopen' hopen
  have hrun : refuse.run c = (writeHeaders (.response 431) .empty [] none >>= fun _ => finish).run c₁ := rfl
  rw [hrun]
  rcases hfails : (writeHeaders (.response 431) .empty [] none).run c₁ with ⟨e | _, c'⟩
  · rw [hfails] at hheaders
    rw [bind_error hfails]
    exact hheaders
  · rw [hfails] at hheaders
    rw [bind_ok hfails]
    have hfinish := @finish_mute c' i hheaders.2
    exact ⟨hfinish.1.trans hheaders.1, hfinish.2⟩

end Stream

/-! The fragments of a block, and how many of them are over the limit. -/

section

variable {limit before n : Nat} {frames : List Frame}

def payload (frames : List Frame) : Nat := (frames.map fun f => f.data.length).sum

@[simp] theorem payload_nil : payload [] = 0 := rfl

@[simp] theorem payload_cons {f : Frame} : payload (f :: frames) = f.data.length + payload frames := List.sum_cons

/-- The fragments that find or take the block past the limit. -/
def refusals (limit before : Nat) : List Frame → Nat
  | [] => 0
  | f :: fs => (if limit < before + f.data.length then 1 else 0) + refusals limit (before + f.data.length) fs

theorem refusals_over (h : limit < before) : refusals limit before frames = frames.length := by
  induction frames generalizing before with
  | nil => rfl
  | cons f fs ih =>
    have hover : limit < before + f.data.length := by omega
    rw [refusals, if_pos hover, ih hover, List.length_cons, add_comm]

/-- One fragment is refused exactly if it is the last. -/
theorem refusals_eq_one_iff (h : before ≤ limit) : refusals limit before frames = 1 ↔
    before + payload frames.dropLast ≤ limit ∧ limit < before + payload frames := by
  induction frames generalizing before with
  | nil => exact iff_of_false (by simp [refusals]) fun h' => by simp at h'; omega
  | cons f fs ih =>
    by_cases hover : limit < before + f.data.length
    · rw [refusals, if_pos hover, refusals_over hover]
      cases fs with
      | nil => simp [h, hover]
      | cons g gs =>
        refine iff_of_false (by rw [List.length_cons]; omega) fun h' => ?_
        rw [List.dropLast_cons_cons, payload_cons] at h'
        omega
    · rw [refusals, if_neg hover, zero_add, ih (not_lt.mp hover)]
      cases fs with
      | nil => exact iff_of_false (fun h' => by simp at h'; omega) fun h' => by simp at h'; omega
      | cons g gs => simp only [List.dropLast_cons_cons, payload_cons, add_assoc]

/-- The frames of a header block, up to the one with END_HEADERS. -/
def untilEnd : List Frame → List Frame
  | [] => []
  | f :: fs => if f.has .endHeaders = true then [f] else f :: untilEnd fs

/-- Before the block has ended, all but the last of its fragments are among all but the last of the whole block. -/
theorem payload_dropLast_le (h : ¬ (frames.take n).any (·.has .endHeaders) = true) :
    payload (frames.take n).dropLast ≤ payload (untilEnd frames).dropLast := by
  induction frames generalizing n with
  | nil => simp
  | cons f fs ih =>
    cases n with
    | zero => simp
    | succ n =>
      rw [List.take_succ_cons, List.any_cons, Bool.or_eq_true, not_or] at h
      rw [List.take_succ_cons, untilEnd, if_neg h.1]
      cases hrest : fs.take n with
      | nil => simp
      | cons g gs =>
        have ih' := ih h.2
        have hne : untilEnd fs ≠ [] := by
          cases fs with
          | nil => simp at hrest
          | cons g' gs' =>
            rw [untilEnd]
            split <;> exact List.cons_ne_nil _ _
        rw [hrest] at ih'
        rw [List.dropLast_cons_cons, List.dropLast_cons_of_ne_nil hne, payload_cons, payload_cons]
        omega

end

/-- After `n` fragments over the limit there are `n` more header blocks, the first
of them with the 431, and `n` more END_STREAMs. -/
structure Ctx.Refused (n : Nat) (c c' : Ctx) : Prop where
  streamId : c'.self.streamId = c.self.streamId
  blocks : ∃ sent, headerBlocks c.self.streamId c'.conn.log =
    headerBlocks c.self.streamId c.conn.log ++ sent ∧ sent.length = n ∧
    ∀ f ∈ sent.head?, ∃ block table, f = c.headersFrame block ∧
      Carries c.conn.hpackEncoder.table block [(ascii ":status", ascii "431")] table
  encoder : n = 0 → c'.conn.hpackEncoder = c.conn.hpackEncoder
  endings : endings c.self.streamId c'.conn.log = endings c.self.streamId c.conn.log ++
    List.replicate n c.endStreamFrame

namespace Ctx.Refused

variable {m n i : Nat} {c c' c'' : Ctx}

theorem refl : c.Refused 0 c :=
    ⟨rfl, ⟨[], (List.append_nil _).symm, rfl, by simp⟩, fun _ => rfl, (List.append_nil _).symm⟩

theorem trans (h : Refused m c c') (h' : Refused n c' c'') : Refused (m + n) c c'' := by
  obtain ⟨sent, hsent, hm, hfirst⟩ := h.blocks
  obtain ⟨sent', hsent', hn, hfirst'⟩ := h'.blocks
  refine ⟨h'.streamId.trans h.streamId, ⟨sent ++ sent', ?_, ?_, fun f hf => ?_⟩, fun hzero => ?_, ?_⟩
  · rw [h.streamId] at hsent'
    rw [hsent', hsent, List.append_assoc]
  · rw [List.length_append, hm, hn]
  · cases sent with
    | nil =>
      obtain ⟨block, table, hframe, hcarries⟩ := hfirst' f hf
      rw [h.encoder hm.symm] at hcarries
      exact ⟨block, table, by rw [hframe, headersFrame, headersFrame, h.streamId], hcarries⟩
    | cons g gs => exact hfirst f hf
  · exact (h'.encoder (by omega)).trans (h.encoder (by omega))
  · have hends := h'.endings
    rw [endStreamFrame, h.streamId] at hends
    rw [hends, h.endings, List.append_assoc, endStreamFrame, List.replicate_append_replicate]

theorem receives (h : Refused n c c') (hr : ReceivesOnly i c' c'') : Refused n c c'' := by
  have hhushed := Ctx.Hushed.receives hr
  have hreceived : Refused 0 c' c'' := by
    refine ⟨congrArg (fun t => t.1) hr.self, ⟨[], ?_, rfl, by simp⟩,
      fun _ => congrArg (fun t => t.2.2.2.2.1) hr.conn, ?_⟩
    · rw [hhushed.blocks, List.append_nil]
    · rw [hhushed.endings]
      exact (List.append_nil _).symm
  exact h.trans hreceived

end Ctx.Refused

theorem Ctx.Refusal.refused {c c' : Ctx} (h : c.Refusal c') : c.Refused 1 c' := by
  obtain ⟨block, table, hblocks, hcarries⟩ := h.blocks
  refine ⟨by rw [h.self], ⟨[c.headersFrame block], hblocks, rfl, fun f hf => ?_⟩,
    fun h => absurd h one_ne_zero, h.endings⟩
  obtain rfl := Option.some.inj hf
  exact ⟨block, table, rfl, hcarries⟩

/-- A server's stream that can be answered at once. -/
structure Ctx.Answering (c : Ctx) : Prop where
  server : c.conn.isClient = false
  encoder : c.conn.hpackEncoder.Small
  id : c.self.streamId < 2 ^ 31
  socket : c.conn.closed = false
  lock : c.self.writeLock = ⟨.free, []⟩
  content : ∀ n ∈ c.self.outgoingContentRemaining, n = 0

/-- Header frames have been collected, and nothing else has changed on the receiving side. -/
structure Ctx.Advances (n : Nat) (frames : List Frame) (c c' : Ctx) : Prop where
  refused : c.Refused n c'
  self : ∃ requestStartLine, c'.self = { c.self with headerFrames := frames, requestStartLine }
  conn : c'.conn.receiving = c.conn.receiving
  encoder : c'.conn.hpackEncoder.Small
  messages : messages c'.conn.log = messages c.conn.log

theorem Ctx.Advances.answering {n : Nat} {frames : List Frame}
    {c c' : Ctx} (h : c.Advances n frames c') (hc : c.Answering) :
    c'.Answering := by
  obtain ⟨requestStartLine, hself⟩ := h.self
  refine ⟨?_, h.encoder, ?_, ?_, ?_, ?_⟩
  · exact (congrArg (fun t => t.1) h.conn).trans hc.server
  · rw [hself]
    exact hc.id
  · exact (congrArg (fun t => t.2.2.2.2.2.2) h.conn).trans hc.socket
  · rw [hself]
    exact hc.lock
  · rw [hself]
    exact hc.content

namespace Stream

variable {c : Ctx} {frame : Frame}

/-- A fragment before it is parsed. -/
theorem appendHeaderFrame_advances (hc : c.Answering) : ∃ c',
    (appendHeaderFrame frame).run c = (when (frame.has .endHeaders = true) parseHeaders).run c' ∧
      c.Advances (if c.conn.params.maxHeaderSize < c.self.headerLength + frame.data.length then 1 else 0)
        (c.self.headerFrames ++ [frame]) c' := by
  have happended : c.Refused 0 ⟨c.conn, { c.self with headerFrames := c.self.headerFrames ++ [frame] }⟩ :=
    Refused.refl.receives (i := c.self.streamId) ⟨rfl, rfl, .refl⟩
  rw [appendHeaderFrame_server hc.server]
  split
  · obtain ⟨c', hrefuse, h⟩ :=
      @refuse_run ⟨c.conn, { c.self with headerFrames := c.self.headerFrames ++ [frame] }⟩ hc.server
      hc.encoder hc.socket hc.id hc.lock hc.content
    refine ⟨c', ?_, ?_⟩
    · rw [when, if_pos ‹_›, bind_ok hrefuse]
    · exact ⟨happended.trans h.refused, ⟨_, h.self⟩, h.conn, h.encoder, h.messages⟩
  · refine ⟨⟨c.conn, { c.self with headerFrames := c.self.headerFrames ++ [frame] }⟩, ?_, ?_⟩
    · rw [when, if_neg ‹_›, run_pure_bind]
    · exact ⟨happended, ⟨c.self.requestStartLine, rfl⟩, rfl, hc.encoder, rfl⟩

theorem parseHeaders_frames : (parseHeaders.run c).2.self.headerFrames = [] := by
  have hset (f : Stream → Stream) (hf : ∀ s, (f s).kept = s.kept) :
      Keeps (fun c : Ctx => c.self.headerFrames = []) Anything (setSelf f) :=
    fun c hc => ⟨(congrArg (fun t => t.2.1) (hf c.self)).trans hc, trivial⟩
  have hcall {call : DelegateCall} : Keeps (fun c : Ctx => c.self.headerFrames = []) Anything (callDelegate call) :=
    .get_bind fun _ _ => .bind .check fun _ => fun _ hc => ⟨hc, trivial⟩
  have hdecode (data : Bytes) : Keeps (fun c : Ctx => c.self.headerFrames = []) Anything (decodeHeaders data) := by
    intro c hc
    rcases hdecode : c.conn.hpackDecoder.decode c.conn.huffmanTree data with ⟨result, hpackDecoder, huffmanTree⟩
    rw [decodeHeaders_run hdecode]
    exact ⟨hc, trivial⟩
  rw [parseHeaders, run_get_bind]
  cases hframes : c.self.headerFrames with
  | nil => exact hframes
  | cons first rest =>
    have hblock : Keeps (fun c : Ctx => c.self.headerFrames = []) Anything
        (parseBlock first ((first :: rest).flatMap Frame.data)) :=
      parseBlock_keeps hset hdecode (fun _ _ => hcall) hcall
    exact (hblock ⟨c.conn, { c.self with headerFrames := [] }⟩ rfl).1

/-- What a server reads does not depend on the frames collected or the request answered. -/
theorem blockStarts_congr {c' : Ctx} {first : Frame} {data : Bytes} (hserver : c.conn.isClient = false)
    (hconn : c'.conn.receiving = c.conn.receiving)
    (hself : (c'.self.streamId, c'.self.hasDelegate, c'.self.phase) =
      (c.self.streamId, c.self.hasDelegate, c.self.phase)) :
    BlockStarts c' first data ↔ BlockStarts c first data := by
  obtain ⟨hid, hdelegate, hphase⟩ := by simpa only [Prod.mk.injEq] using hself
  obtain ⟨hclient, hparams, -, -, hdecoder, htree, -⟩ := by simpa only [Conn.receiving, Prod.mk.injEq] using hconn
  simp only [BlockStarts, FieldsStart, Startable, hid, hdelegate, hphase, hclient, hparams, hdecoder, htree, hserver,
    Bool.false_eq_true, if_false]

/-- The frames are handled one after the other, whatever they raise. -/
def handleFrames (c : Ctx) (frames : List Frame) : Ctx :=
  frames.foldl (fun c frame => ((handleFrame frame false).run c).2) c

theorem handleFrame_continuation_run (htype : frame.type = .continuation) (hfinished : c.self.finished = false)
    (hframes : c.self.headerFrames ≠ []) : (handleFrame frame false).run c = (appendHeaderFrame frame).run c := by
  rw [handleFrame_continuation htype, if_neg (by simp [hfinished]),
    handleContinuationFrame, run_get_bind, run_check_of_neg hframes]

theorem handleFrames_idle {frames : List Frame} (h : ∀ f ∈ frames, ((handleFrame f false).run c).2 = c) :
    handleFrames c frames = c := by
  induction frames with
  | nil => rfl
  | cons f fs ih =>
    rw [handleFrames, List.foldl_cons, h f List.mem_cons_self]
    exact ih fun g hg => h g (List.mem_cons_of_mem f hg)

/-- After its end a block takes no more frames. -/
theorem handleFrames_ended {frames : List Frame} (htypes : ∀ f ∈ frames, f.type = .continuation)
    (hframes : c.self.headerFrames = []) : handleFrames c frames = c := by
  refine handleFrames_idle fun f hf => ?_
  rw [handleFrame_continuation (htypes f hf)]
  split
  · rfl
  · rw [handleContinuationFrame, run_get_bind, run_check_of_pos hframes]

theorem handleFrames_finished {frames : List Frame} (htypes : ∀ f ∈ frames, f.type = .headers ∨ f.type = .continuation)
    (hfinished : c.self.finished = true) : handleFrames c frames = c := by
  refine handleFrames_idle fun f hf => ?_
  rcases htypes f hf with htype | htype
  · rw [handleFrame_headers htype, if_pos hfinished]
    rfl
  · rw [handleFrame_continuation htype, if_pos hfinished]
    rfl

/-- What becomes of the frames of a block, from those on that have been collected. -/
structure Collected (c : Ctx) (frames : List Frame) (c' : Ctx) : Prop where
  refused : c.Refused (refusals c.conn.params.maxHeaderSize c.self.headerLength (untilEnd frames)) c'
  left : c'.self.headerFrames = if frames.any (·.has .endHeaders) = true then [] else c.self.headerFrames ++ frames
  unheard : messages c'.conn.log = messages c.conn.log ↔ (frames.any (·.has .endHeaders) = true →
    ∀ first ∈ (c.self.headerFrames ++ frames).head?,
      ¬ BlockStarts c first ((c.self.headerFrames ++ untilEnd frames).flatMap Frame.data))

theorem Collected.of_advances {n : Nat} {c' c'' : Ctx} {g : Frame} {gs : List Frame} (hserver : c.conn.isClient = false)
    (h : c.Advances n (c.self.headerFrames ++ [frame]) c')
    (hn : n = if c.conn.params.maxHeaderSize < c.self.headerLength + frame.data.length then 1 else 0)
    (hend : ¬ frame.has .endHeaders = true) (h' : Collected c' (g :: gs) c'') : Collected c (frame :: g :: gs) c'' := by
  obtain ⟨requestStartLine, hself⟩ := h.self
  have hframes : c'.self.headerFrames = c.self.headerFrames ++ [frame] := by rw [hself]
  have hlength : c'.self.headerLength = c.self.headerLength + frame.data.length := by
    rw [hself, ← headerLength_append]
    rfl
  have hparams : c'.conn.params = c.conn.params := congrArg (fun t => t.2.1) h.conn
  have hany : (frame :: g :: gs).any (·.has .endHeaders) = (g :: gs).any (·.has .endHeaders) := by
    rw [List.any_cons, Bool.eq_false_iff.mpr hend, Bool.false_or]
  have hlist (others : List Frame) : c.self.headerFrames ++ frame :: others = c'.self.headerFrames ++ others := by
    rw [hframes, List.append_assoc]
    rfl
  refine ⟨?_, ?_, ?_⟩
  · have hrefused := h'.refused
    rw [hparams, hlength] at hrefused
    rw [untilEnd, if_neg hend, refusals, ← hn]
    exact h.refused.trans hrefused
  · rw [hany, hlist]
    exact h'.left
  · have hstarts {first : Frame} {data : Bytes} : BlockStarts c' first data ↔ BlockStarts c first data :=
      blockStarts_congr hserver h.conn (by rw [hself])
    rw [hany, untilEnd, if_neg hend, hlist, hlist, ← h.messages]
    simpa only [hstarts] using h'.unheard

/-- The frame with END_HEADERS has the block parsed, and the frames after it do nothing. -/
theorem collected_ended {rest : List Frame} (hc : c.Answering) (hdelegated : c.Delegated)
    (hend : frame.has .endHeaders = true) (htypes : ∀ f ∈ rest, f.type = .continuation) :
    Collected c (frame :: rest) (handleFrames ((appendHeaderFrame frame).run c).2 rest) := by
  obtain ⟨c', hrun, h⟩ := @appendHeaderFrame_advances c frame hc
  obtain ⟨requestStartLine, hself⟩ := h.self
  have hframes : c'.self.headerFrames = c.self.headerFrames ++ [frame] := by rw [hself]
  have hany : (frame :: rest).any (·.has .endHeaders) = true := by rw [List.any_cons, hend, Bool.true_or]
  rw [hrun, when, if_pos hend, handleFrames_ended htypes parseHeaders_frames]
  refine ⟨?_, ?_, ?_⟩
  · rw [untilEnd, if_pos hend]
    exact h.refused.receives (parseHeaders_receives c' rfl).2
  · rw [if_pos hany]
    exact parseHeaders_frames
  · obtain ⟨first, others, hcons⟩ : ∃ first others, c.self.headerFrames ++ [frame] = first :: others :=
      List.exists_cons_of_ne_nil (by simp)
    have hhead : (c.self.headerFrames ++ frame :: rest).head? = some first := by
      rw [List.append_cons, hcons]
      rfl
    have hstarts {data : Bytes} : BlockStarts c' first data ↔ BlockStarts c first data :=
      blockStarts_congr hc.server h.conn (by rw [hself])
    have hdelegated' : c'.Delegated := by
      rw [Delegated, hself]
      exact hdelegated
    rw [hhead, untilEnd, if_pos hend, ← h.messages,
      parseHeaders_messages (h.answering hc).server hdelegated' (hframes.trans hcons), hstarts, ← hcons]
    simp [hany]

theorem collected {rest : List Frame} (hc : c.Answering)
    (hdelegated : c.Delegated) (hunfinished : c.self.finished = false)
    (htypes : ∀ f ∈ rest, f.type = .continuation) :
    Collected c (frame :: rest) (handleFrames ((appendHeaderFrame frame).run c).2 rest) := by
  induction rest generalizing c frame with
  | nil =>
    by_cases hend : frame.has .endHeaders = true
    · exact collected_ended hc hdelegated hend htypes
    · obtain ⟨c', hrun, h⟩ := @appendHeaderFrame_advances c frame hc
      obtain ⟨requestStartLine, hself⟩ := h.self
      have hany : ¬ [frame].any (·.has .endHeaders) = true := by simpa using hend
      rw [hrun, when, if_neg hend]
      refine ⟨?_, ?_, iff_of_true h.messages fun h => absurd h hany⟩
      · rw [untilEnd, if_neg hend]
        exact h.refused
      · rw [if_neg hany]
        exact congrArg (fun s : Stream => s.headerFrames) hself
  | cons g gs ih =>
    by_cases hend : frame.has .endHeaders = true
    · exact collected_ended hc hdelegated hend htypes
    · obtain ⟨c', hrun, h⟩ := @appendHeaderFrame_advances c frame hc
      obtain ⟨requestStartLine, hself⟩ := h.self
      have hframes : c'.self.headerFrames ≠ [] := by
        rw [hself]
        simp
      have hunfinished' : c'.self.finished = false := by rw [hself, hunfinished]
      have hdelegated' : c'.Delegated := by
        rw [Delegated, hself]
        exact hdelegated
      have hgs := @ih c' g (h.answering hc) hdelegated' hunfinished' fun f hf => htypes f (List.mem_cons_of_mem g hf)
      have hstep : handleFrames c' (g :: gs) = handleFrames ((appendHeaderFrame g).run c').2 gs := by
        rw [handleFrames, List.foldl_cons, handleFrame_continuation_run
          (htypes g List.mem_cons_self) hunfinished' hframes]
        rfl
      rw [hrun, when, if_neg hend]
      exact .of_advances hc.server h rfl hend (hstep ▸ hgs)

end Stream

/-- A server's stream that cannot end its response. -/
structure Ctx.Mute (c : Ctx) : Prop where
  server : c.conn.isClient = false
  encoder : c.conn.hpackEncoder.Small
  id : c.self.streamId < 2 ^ 31
  mute : ¬ c.CanEnd

namespace Stream

variable {c : Ctx} {frame : Frame} {i : Nat}

theorem appendHeaderFrame_mute (h : c.Mute) : endings i ((appendHeaderFrame frame).run c).2.conn.log =
    endings i c.conn.log ∧ ¬ ((appendHeaderFrame frame).run c).2.CanEnd := by
  let c₁ : Ctx := ⟨c.conn, { c.self with headerFrames := c.self.headerFrames ++ [frame] }⟩
  have hmute : ¬ c₁.CanEnd := fun hend => h.mute ⟨hend.socket, hend.lock, hend.content⟩
  have hparse {c' : Ctx} (hends : endings i c'.conn.log = endings i c.conn.log) (hmute : ¬ c'.CanEnd) :
      endings i ((when (frame.has .endHeaders = true) parseHeaders).run c').2.conn.log = endings i c.conn.log ∧
        ¬ ((when (frame.has .endHeaders = true) parseHeaders).run c').2.CanEnd := by
    rw [when]
    split
    · have hreceives := (parseHeaders_receives c' rfl).2
      refine ⟨((Ctx.Hushed.receives hreceives).endings i).trans hends, fun hend => hmute ⟨?_, ?_, ?_⟩⟩
      · exact (congrArg (fun t => t.2.2.2.2.2.2) hreceives.conn).symm.trans hend.socket
      · exact (congrArg (fun t => t.2.2.1.owner) hreceives.self).symm.trans hend.lock
      · rw [← show (parseHeaders.run c').2.self.outgoingContentRemaining = c'.self.outgoingContentRemaining from
          congrArg (fun t => t.2.2.2.1) hreceives.self]
        exact hend.content
    · exact ⟨hends, hmute⟩
  rw [appendHeaderFrame_server h.server]
  by_cases hover : c.conn.params.maxHeaderSize < c.self.headerLength + frame.data.length
  · have hrefuse := @refuse_mute c₁ i h.server h.encoder h.id hmute
    rw [when, if_pos hover]
    rcases hrun : refuse.run c₁ with ⟨e | _, c'⟩
    · rw [hrun] at hrefuse
      rw [bind_error hrun]
      exact hrefuse
    · rw [hrun] at hrefuse
      rw [bind_ok hrun]
      exact hparse hrefuse.1 hrefuse.2
  · rw [when, if_neg hover, run_pure_bind]
    exact hparse rfl hmute

theorem handleFrame_mute (htype : frame.type = .headers ∨ frame.type = .continuation) (h : c.Mute) :
    endings i ((handleFrame frame false).run c).2.conn.log = endings i c.conn.log ∧
    ((handleFrame frame false).run c).2.Mute := by
  have hacts := handleFrame_acts frame false c rfl
  have hfits := (@handleFrame_fits 5 c.self.streamId frame false (le_refl 5) c ⟨rfl, h.encoder⟩).1.2
  have hsame : endings i ((handleFrame frame false).run c).2.conn.log = endings i c.conn.log ∧
      ¬ ((handleFrame frame false).run c).2.CanEnd := by
    rcases htype with htype | htype
    · rw [handleFrame_headers htype]
      split
      · exact ⟨rfl, h.mute⟩
      · have hin : c.inHeaders.Mute :=
          ⟨h.server, h.encoder, h.id, fun hend => h.mute ⟨hend.socket, hend.lock, hend.content⟩⟩
        rw [handleHeadersFrame_run]
        cases frame.withoutPadding with
        | error e => exact ⟨rfl, hin.mute⟩
        | ok f => exact appendHeaderFrame_mute hin
    · rw [handleFrame_continuation htype]
      split
      · exact ⟨rfl, h.mute⟩
      · rw [handleContinuationFrame, run_get_bind]
        by_cases hframes : c.self.headerFrames = []
        · rw [run_check_of_pos hframes]
          exact ⟨rfl, h.mute⟩
        · rw [run_check_of_neg hframes]
          exact appendHeaderFrame_mute h
  refine ⟨hsame.1, (congrArg (fun t => t.1) hacts.2.conn).trans h.server, hfits, ?_, hsame.2⟩
  rw [hacts.1]
  exact h.id

theorem handleFrames_mute {frames : List Frame} (htypes : ∀ f ∈ frames, f.type = .headers ∨ f.type = .continuation)
    (h : c.Mute) : endings i (handleFrames c frames).conn.log = endings i c.conn.log := by
  induction frames generalizing c with
  | nil => rfl
  | cons f fs ih =>
    obtain ⟨hends, hmute⟩ := @handleFrame_mute c f i (htypes f List.mem_cons_self) h
    exact (ih (fun g hg => htypes g (List.mem_cons_of_mem f hg)) hmute).trans hends

/-- While the frames are handled, one 431 and one END_STREAM are written, the
delegate is not told of a message, and what is kept without its last fragment is
within the limit. -/
structure RefusedOnce (c : Ctx) (frames : List Frame) : Prop where
  answered : ∃ block table, headerBlocks c.self.streamId (handleFrames c frames).conn.log =
      headerBlocks c.self.streamId c.conn.log ++ [c.headersFrame block] ∧
    Carries c.conn.hpackEncoder.table block [(ascii ":status", ascii "431")] table
  ended : endings c.self.streamId (handleFrames c frames).conn.log =
    endings c.self.streamId c.conn.log ++ [c.endStreamFrame]
  unheard : messages (handleFrames c frames).conn.log = messages c.conn.log
  kept (n : Nat) : payload (handleFrames c (frames.take n)).self.headerFrames.dropLast ≤ c.conn.params.maxHeaderSize

/-- It is the last fragment that takes the block past the limit, the stream can
end its response, and the block, if it ends, is no message. -/
structure Refusable (c : Ctx) (first : Frame) (rest : List Frame) : Prop where
  unfinished : c.self.finished = false
  canEnd : c.CanEnd
  before : payload (untilEnd (first :: rest)).dropLast ≤ c.conn.params.maxHeaderSize
  exceeds : c.conn.params.maxHeaderSize < payload (untilEnd (first :: rest))
  noMessage : (first :: rest).any (·.has .endHeaders) = true →
    ¬ BlockStarts c first ((untilEnd (first :: rest)).flatMap Frame.data)

/-- A server's stream that waits for HEADERS. -/
structure Awaits (c : Ctx) : Prop where
  server : c.conn.isClient = false
  encoder : c.conn.hpackEncoder.Small
  lock : c.self.writeLock.owner = .free → c.self.writeLock.waiters = []
  delegated : c.conn.closed = false → c.Delegated
  frames : c.self.headerFrames = []

variable {first : Frame} {rest : List Frame}

theorem blockStarts_inHeaders {data : Bytes} (hserver : c.conn.isClient = false) :
    BlockStarts c.inHeaders first data ↔ BlockStarts c first data := by
  by_cases hphase : c.self.phase = .body
  · have hin : ¬ c.inHeaders.self.phase = .headers := by
      rw [inHeaders, if_pos hphase]
      simp
    have hout : ¬ c.self.phase = .headers := by
      rw [hphase]
      simp
    simp only [BlockStarts, FieldsStart, hin, hout, false_and, and_false, if_false_right]
  · refine blockStarts_congr hserver rfl ?_
    rw [inHeaders, if_neg hphase]

theorem Awaits.collected (h : Awaits c) (hfinished : c.self.finished = false) (hend : c.CanEnd)
    (hid : c.self.streamId < 2 ^ 31) (htype : frame.type = .headers) (hpadding : frame.withoutPadding = .ok first)
    (hrest : ∀ f ∈ rest, f.type = .continuation) :
    Collected c.inHeaders (first :: rest) (handleFrames c (frame :: rest)) := by
  have hlock : c.self.writeLock = ⟨.free, []⟩ := by
    rw [← hend.lock, ← h.lock hend.lock]
  have hanswering : c.inHeaders.Answering := ⟨h.server, h.encoder, hid, hend.socket, hlock, hend.content⟩
  have hstep : handleFrames c (frame :: rest) = handleFrames ((appendHeaderFrame first).run c.inHeaders).2 rest := by
    rw [handleFrames, List.foldl_cons, handleFrame_headers_run htype hfinished, handleHeadersFrame_run, hpadding]
    rfl
  exact hstep ▸ Stream.collected hanswering (h.delegated hend.socket) hfinished hrest

theorem endings_ne {log : List Event} : endings i log ≠ endings i log ++ [c.endStreamFrame] := by simp

theorem RefusedOnce.unfinished (h : RefusedOnce c (frame :: rest)) (htype : frame.type = .headers)
    (hrest : ∀ f ∈ rest, f.type = .continuation) : c.self.finished = false := by
  by_contra hfinished
  have htypes : ∀ f ∈ frame :: rest, f.type = .headers ∨ f.type = .continuation :=
    List.forall_mem_cons.mpr ⟨.inl htype, fun f hf => .inr (hrest f hf)⟩
  have hended := h.ended
  rw [handleFrames_finished htypes (by simpa using hfinished)] at hended
  exact endings_ne hended

theorem RefusedOnce.canEnd (h : RefusedOnce c (frame :: rest)) (hawaits : Awaits c) (hid : c.self.streamId < 2 ^ 31)
    (htype : frame.type = .headers) (hrest : ∀ f ∈ rest, f.type = .continuation) : c.CanEnd := by
  by_contra hmute
  have htypes : ∀ f ∈ frame :: rest, f.type = .headers ∨ f.type = .continuation :=
    List.forall_mem_cons.mpr ⟨.inl htype, fun f hf => .inr (hrest f hf)⟩
  have hended := h.ended
  rw [handleFrames_mute htypes ⟨hawaits.server, hawaits.encoder, hid, hmute⟩] at hended
  exact endings_ne hended

theorem refusedOnce_iff (h : Awaits c) (hid : c.self.streamId < 2 ^ 31) (htype : frame.type = .headers)
    (hpadding : frame.withoutPadding = .ok first) (hrest : ∀ f ∈ rest, f.type = .continuation) :
    RefusedOnce c (frame :: rest) ↔ Refusable c first rest := by
  have hlength : c.inHeaders.self.headerLength = 0 := by
    rw [headerLength, show c.inHeaders.self.headerFrames = [] from h.frames]
    rfl
  have hlist (fs : List Frame) : c.inHeaders.self.headerFrames ++ fs = fs := by
    rw [show c.inHeaders.self.headerFrames = [] from h.frames, List.nil_append]
  have hone : refusals c.conn.params.maxHeaderSize 0 (untilEnd (first :: rest)) = 1 ↔
      payload (untilEnd (first :: rest)).dropLast ≤ c.conn.params.maxHeaderSize ∧
        c.conn.params.maxHeaderSize < payload (untilEnd (first :: rest)) := by
    rw [refusals_eq_one_iff (Nat.zero_le _), zero_add, zero_add]
  constructor
  · intro honce
    have hfinished := honce.unfinished htype hrest
    have hend := honce.canEnd h hid htype hrest
    have hcollected := h.collected hfinished hend hid htype hpadding hrest
    have hended := hcollected.refused.endings.symm.trans honce.ended
    have hrefusals := congrArg List.length (List.append_cancel_left hended)
    rw [List.length_replicate, hlength, List.length_singleton] at hrefusals
    obtain ⟨hbefore, hover⟩ := hone.mp hrefusals
    refine ⟨hfinished, hend, hbefore, hover, fun hany hstarts => ?_⟩
    have hunheard := hcollected.unheard.mp honce.unheard hany first (by rw [hlist]; rfl)
    rw [hlist, blockStarts_inHeaders h.server] at hunheard
    exact hunheard hstarts
  · intro hrefusable
    have hcollected := h.collected hrefusable.unfinished hrefusable.canEnd hid htype hpadding hrest
    have hrefused := hcollected.refused
    rw [hlength, show refusals c.inHeaders.conn.params.maxHeaderSize 0 (untilEnd (first :: rest)) = 1 from
      hone.mpr ⟨hrefusable.before, hrefusable.exceeds⟩] at hrefused
    obtain ⟨sent, hblocks, hsent, hfirst⟩ := hrefused.blocks
    obtain ⟨f, rfl⟩ := List.length_eq_one_iff.mp hsent
    obtain ⟨block, table, rfl, hcarries⟩ := hfirst f rfl
    refine ⟨⟨block, table, hblocks, hcarries⟩, hrefused.endings,
      hcollected.unheard.mpr fun hany first' hfirst' => ?_, fun n => ?_⟩
    · rw [hlist] at hfirst'
      cases hfirst'
      rw [hlist, blockStarts_inHeaders h.server]
      exact hrefusable.noMessage hany
    · cases n with
      | zero =>
        rw [List.take_zero, show (handleFrames c []).self.headerFrames = [] from h.frames]
        exact Nat.zero_le _
      | succ n =>
        have hsome := h.collected hrefusable.unfinished hrefusable.canEnd hid htype hpadding
          fun f hf => hrest f (List.mem_of_mem_take (i := n) hf)
        rw [List.take_succ_cons, hsome.left, hlist]
        split
        · exact Nat.zero_le _
        · exact (payload_dropLast_le (n := n + 1) ‹_›).trans hrefusable.before

end Stream

/-- A lock that nobody holds has no waiters. -/
def WriteLock.Unclaimed (lock : WriteLock) : Prop := lock.owner = .free → lock.waiters = []

theorem WriteLock.release_unclaimed {lock : WriteLock} : lock.release.Unclaimed := by
  intro hfree
  rw [release] at hfree ⊢
  cases hwaiters : lock.waiters with
  | nil => rfl
  | cons job waiters =>
    rw [hwaiters] at hfree
    cases hfree

theorem Slice.unclaimed {c c' : Ctx} (h : Slice c c') (hc : c.self.writeLock.Unclaimed) :
    c'.self.writeLock.Unclaimed := by
  have busy {owner : Owner} {waiters : List Job} (howner : owner ≠ .free) : WriteLock.Unclaimed ⟨owner, waiters⟩ :=
    fun hfree => absurd hfree howner
  cases h with
  | idle => exact hc
  | failed _ hr =>
    rw [hr.same.1]
    exact busy (by simp)
  | @finished callback => cases callback <;> exact WriteLock.release_unclaimed
  | ends => exact WriteLock.release_unclaimed
  | aborts _ hr => exact WriteLock.release_unclaimed
  | _ => exact busy (by simp)

theorem Acquires.unclaimed {c c' : Ctx} {job : Job} (h : Acquires c job c') : c'.self.writeLock.Unclaimed := by
  cases h with
  | granted _ hs => exact hs.unclaimed fun hfree => by cases hfree
  | queued hbusy => exact fun hfree => absurd hfree hbusy

theorem unclaimed_guards : Guards (fun _ => True) (fun _ _ lock => lock.Unclaimed) Anything where
  base _ _ := trivial
  change _ h := h
  new _ _ _ _ := rfl
  update _ _ _ _ h := h
  updateConn _ _ := trivial
  acquire _ _ _ := ⟨(wp_state.mp Stream.acquire_wp : Acquires _ _ _).unclaimed, trivial⟩

namespace System

/-- What a server keeps that is needed to refuse a header block. -/
structure Serving (s : System) : Prop where
  sound : s.Sound
  server : s.conn.isClient = false
  collecting : s.Collecting (s.loop = .running)
  unclaimed : s.Each (fun _ => True) fun _ self => self.writeLock.Unclaimed

theorem Serving.start (params : Params) : (start false params).Serving where
  sound := .start false params
  server := rfl
  collecting := (Collecting.start false params).mono rfl rfl (Collecting.start false params).assembled
    fun _ => .inl ⟨trivial, rfl⟩
  unclaimed := ⟨trivial, by simp [System.start]⟩

variable {s : System} {frame first : Frame} {rest : List Frame} {c : Ctx}

theorem Serving.step (h : s.Serving) {a : Action} (ha : a.OnWire) : (s.step a).Serving where
  sound := h.sound.step ha
  server := (step_isClient h.sound.wellFormed a).trans h.server
  collecting := h.collecting.step h.sound.wellFormed a
  unclaimed := unclaimed_guards.step h.unclaimed fun _ _ _ _ _ hself =>
    ⟨(wp_state.mp Stream.resume_wp : Slice _ _).unclaimed hself, trivial⟩

theorem Serving.awaits (h : s.Serving) (hreads : s.Reads frame)
    (hmeets : s.Meets frame c) (htype : frame.type = .headers) :
    Stream.Awaits c := by
  cases hmeets with
  | known hself =>
    refine ⟨h.server, h.sound.bounded.encoder, h.unclaimed.stream hself,
      fun hopen => h.sound.delegated hreads.1 hopen _ _ hself, ?_⟩
    by_contra hframes
    have hcontinues := h.collecting.continues h.sound.wellFormed hreads.2.2 hself hframes
    cases htype.symm.trans hcontinues.1
  | opened => exact ⟨h.server, h.sound.bounded.encoder, fun _ => rfl, fun _ _ => rfl, rfl⟩

/-- A header block is refused once exactly if it is its last fragment that takes
it past the limit, the stream can end its response, and the block, if it ends, is
no message. -/
theorem refused_once {params : Params} {actions : List Action} (hwire : ∀ a ∈ actions, a.OnWire)
    (hreads : ((start false params).run actions).Reads frame)
    (hmeets : ((start false params).run actions).Meets frame c)
    (htype : frame.type = .headers) (hid : frame.streamId < 2 ^ 31) (hpadding : frame.withoutPadding = .ok first)
    (hrest : ∀ f ∈ rest, f.type = .continuation) :
    Stream.RefusedOnce c (frame :: rest) ↔ Stream.Refusable c first rest := by
  have hserving : ((start false params).run actions).Serving :=
    actions.foldlRecOn System.step (.start params) fun _ h a ha => h.step (hwire a ha)
  have hstream : c.self.streamId = frame.streamId := by
    cases hmeets with
    | known hself => exact hserving.sound.wellFormed.streamId hself
    | opened => rfl
  exact Stream.refusedOnce_iff (hserving.awaits hreads hmeets htype) (hstream ▸ hid) htype hpadding hrest

/-- The stream that is opened by the first frame of a connection. -/
def openedBy (params : Params) (frame : Frame) : Ctx :=
  ⟨(((start false params).logged (.received frame)).accepted frame).conn,
    .new (start false params).conn frame.streamId true⟩

/-- A second `:method` takes the block past the limit and ends it. -/
def repeatedMethod : Frame := ⟨.continuation, 0x4, 1, [0x82]⟩

theorem refused_once_headers :
    Stream.RefusedOnce (openedBy (.new (some 3) .caseless) (requestFrame 1 0)) [requestFrame 1 0, repeatedMethod] := by
  let c := openedBy (.new (some 3) .caseless) (requestFrame 1 0)
  let fields (headers : List (Bytes × Option Bytes × HeaderIndexMode)) : Option Stream.ParsedHeaders :=
    (Stream.addHeaders .caseless false 1 ⟨[], .empty, false⟩ headers).toOption
  have hrefused : ((c.conn.hpackDecoder.decode c.conn.huffmanTree
      [0x82, 0x84, 0x87, 0x82]).1.toOption.bind fields).isSome =
      false := by decide +kernel
  refine (@refused_once (requestFrame 1 0) (requestFrame 1 0) [repeatedMethod] c (.new (some 3) .caseless) [] (by simp)
    ⟨rfl, by decide, rfl⟩ (.opened rfl rfl rfl) rfl (by decide) rfl (by simp [repeatedMethod])).mpr ?_
  refine ⟨rfl, ⟨rfl, rfl, by simp [c, openedBy, Stream.new]⟩, by decide, by decide, fun _ hstarts => ?_⟩
  obtain ⟨-, headers, p, hheaders, hfields, -⟩ := hstarts
  have hheaders : (c.conn.hpackDecoder.decode c.conn.huffmanTree [0x82, 0x84, 0x87, 0x82]).1 = .ok headers := hheaders
  have hfields : Stream.addHeaders .caseless false 1 ⟨[], .empty, false⟩ headers = .ok p := hfields
  have hsome : fields headers = some p := congrArg Except.toOption hfields
  rw [hheaders, Except.toOption, Option.bind_some, hsome] at hrefused
  cases hrefused

/-- An empty CONTINUATION has the request refused once more, and delivered. -/
theorem not_refused_once :
    let c := openedBy (.new (some 2) .caseless) (requestFrame 1 0)
    let frames := [requestFrame 1 0, ⟨.continuation, 0x4, 1, []⟩]
    (start false (.new (some 2) .caseless)).Meets (requestFrame 1 0) c ∧ c.conn.params.maxHeaderSize < payload frames ∧
      (headerBlocks 1 (Stream.handleFrames c frames).conn.log).length = 2 ∧
      endings 1 (Stream.handleFrames c frames).conn.log = [c.endStreamFrame, c.endStreamFrame] ∧
      messages (Stream.handleFrames c frames).conn.log =
        [(1, .request (some (ascii "GET")) (some (ascii "/")), .empty)] ∧
      ¬ Stream.RefusedOnce c frames := by
  intro c frames
  have hmessages : messages (Stream.handleFrames c frames).conn.log =
      [(1, .request (some (ascii "GET")) (some (ascii "/")), .empty)] := by decide +kernel
  refine ⟨.opened rfl rfl rfl, by decide, by decide +kernel, by decide +kernel, hmessages, fun h => ?_⟩
  have hunheard : messages (Stream.handleFrames c frames).conn.log = [] := h.unheard
  cases hmessages.symm.trans hunheard

end System

end TornadoHttp2
