import TornadoHttp2.HeaderBlocks
import TornadoHttp2.HeaderLimit

/-! The padding of HEADERS and DATA frames. A stream keeps the PADDED flag with
the fragments of a header block, so two runs can be compared only up to it. -/

namespace TornadoHttp2

open Prog Ctx

namespace Frame

/-- The PADDED flag is taken away. -/
def unflagged (f : Frame) : Frame := { f with flags := f.flags &&& ~~~FrameFlag.padded.value }

/-- What is left of `rest`, which follows the pad length `p`. -/
def stripped (p : UInt8) (rest : Bytes) : Bytes :=
  if p = 0 then [] else if p.toNat < 128 then rest.take (rest.length - p.toNat) else rest.take (255 - p.toNat)

/-- The error of a frame with an invalid pad length. -/
def paddingError (f : Frame) : PyException :=
  if f.type = .headers then .connectionError .protocolError (some "invalid padding length")
  else .streamError f.streamId .protocolError

variable {f : Frame} {p : UInt8} {rest : Bytes}

theorem has_unflagged {flag : FrameFlag} (h : flag ≠ .padded) : f.unflagged.has flag = f.has flag := by
  have hmask : ~~~FrameFlag.padded.value &&& flag.value = flag.value := by
    cases flag with
    | padded => exact absurd rfl h
    | _ => decide
  rw [has, has, unflagged, UInt8.and_assoc, hmask]

theorem unflagged_padded : f.unflagged.has .padded = false := by
  have hmask : ~~~FrameFlag.padded.value &&& FrameFlag.padded.value = 0 := by decide
  rw [has, unflagged, UInt8.and_assoc, hmask, UInt8.and_zero]
  rfl

theorem unflagged_unflagged : f.unflagged.unflagged = f.unflagged := by
  rw [unflagged, unflagged, UInt8.and_assoc, UInt8.and_self]

theorem withoutPadding_unflagged : f.unflagged.withoutPadding = .ok f.unflagged := by
  rw [withoutPadding, unflagged_padded]
  rfl

theorem withoutPadding_stripped (hpadded : f.has .padded = true) (hdata : f.data = p :: rest)
    (hlength : p.toNat ≤ rest.length ∨ 128 ≤ p.toNat) :
    f.withoutPadding = .ok { f with data := stripped p rest } := by
  have hlt := p.toNat_lt
  have hnot : ¬ signedByte p > ((p :: rest).length : Int) - 1 := by
    rw [signedByte, List.length_cons]
    split <;> omega
  have hslice : slice (p :: rest) 1 (-signedByte p) = stripped p rest := by
    rw [slice, stripped, signedByte]
    by_cases hzero : p = 0
    · subst hzero
      simp
    · have hpos : 0 < p.toNat := Nat.pos_of_ne_zero fun h => hzero (UInt8.toNat_inj.mp h)
      by_cases hsmall : p.toNat < 128
      · have hle : p.toNat ≤ rest.length := hlength.resolve_right (by omega)
        have hstop : ((rest.length : Int) + 1 + -(p.toNat : Int)).toNat = rest.length - p.toNat + 1 := by omega
        simp [hzero, hsmall, hpos, hstop]
      · have hstop : (-((p.toNat : Int) - 256)).toNat = 255 - p.toNat + 1 := by omega
        have hneg : ¬ -((p.toNat : Int) - 256) < 0 := by omega
        simp only [hzero, hsmall, if_false, hneg, hstop]
        simp
  rw [withoutPadding, if_pos hpadded, hdata]
  dsimp only
  rw [if_neg hnot, hslice]

theorem withoutPadding_invalid (hpadded : f.has .padded = true) (hdata : f.data = p :: rest)
    (hsmall : p.toNat < 128) (hlength : rest.length < p.toNat) : f.withoutPadding = .error f.paddingError := by
  have hinvalid : signedByte p > ((p :: rest).length : Int) - 1 := by
    rw [signedByte, if_pos hsmall, List.length_cons]
    omega
  rw [withoutPadding, if_pos hpadded, hdata]
  dsimp only
  rw [if_pos hinvalid, paddingError]
  split <;> rfl

end Frame

namespace Stream

/-! The sending half does not look at the header block that is being received. -/

abbrev IgnoresBlock {α : Type} (m : OnStream α) : Prop := Ignores (fun frames c => c.withFrames frames) m

theorem reset_ignores : IgnoresBlock reset := fun _ _ => rfl

theorem resetOnError_ignores {m : OnStream Unit} (h : IgnoresBlock m) : IgnoresBlock (resetOnError m) :=
  .catching h fun _ => .bind reset_ignores fun _ => .raise _

theorem consumeParent_ignores {amount : Int} : IgnoresBlock (consumeParent amount) :=
  .get_bind (fun _ _ => rfl) fun _ => .ite (.pure _) (.bind .check fun _ => fun _ _ => rfl)

theorem consume_ignores {amount : Int} : IgnoresBlock (consume amount) :=
  .get_bind (fun _ _ => rfl) fun _ => .ite (.pure _) (.bind .check fun _ => consumeParent_ignores)

theorem runCallback_ignores {callback : Option Nat} : IgnoresBlock (runCallback callback) := by
  cases callback with
  | none => exact fun _ _ => rfl
  | some token => exact fun _ _ => rfl

theorem writeChunkLoop_ignores {chunk : Bytes} {callback : Option Nat} :
    IgnoresBlock (writeChunkLoop chunk callback) :=
  .ite (.bind (fun _ _ => rfl) fun _ => runCallback_ignores) (.bind consume_ignores fun _ => fun _ _ => rfl)

theorem resumeChunk_ignores {flushed : Bool} {chunk : Bytes} {callback : Option Nat} (point : YieldPoint) :
    IgnoresBlock (resumeChunk flushed chunk callback point) := by
  cases point with
  | lock => exact writeChunkLoop_ignores
  | flush => exact .get_bind (fun _ _ => rfl) fun _ => .bind .check fun _ => writeChunkLoop_ignores
  | cond => exact .get_bind (fun _ _ => rfl) fun _ => .when writeChunkLoop_ignores
  | parentCond =>
    exact .get_bind (fun _ _ => rfl) fun _ => .when (.bind consumeParent_ignores fun _ => fun _ _ => rfl)
  | parent => exact fun _ _ => rfl
  | consume => exact .get_bind (fun _ _ => rfl) fun _ => .bind (fun _ _ => rfl) fun _ => fun _ _ => rfl

theorem resume_ignores {flushed : Bool} : IgnoresBlock (resume flushed) := by
  have tryReset : IgnoresBlock (catching reset fun _ => pure ()) := .catching reset_ignores fun _ => .pure _
  refine .get_bind (fun _ _ => rfl) fun c => ?_
  rcases c.self.writeLock.owner with _ | ⟨⟨chunk, callback⟩ | _, point⟩ | _
  · exact .pure _
  · exact .catching (resumeChunk_ignores point) fun _ => .bind (fun _ _ => rfl) fun _ => tryReset
  · exact .get_bind (fun _ _ => rfl) fun _ => .bind (.catching (fun _ _ => rfl) fun _ => tryReset)
      fun _ => fun _ _ => rfl
  · exact .pure _

theorem acquire_ignores {job : Job} : IgnoresBlock (acquire job) :=
  .get_bind (fun _ _ => rfl) fun _ => .ite (.bind (fun _ _ => rfl) fun _ => resume_ignores) fun _ _ => rfl

theorem write_ignores {chunk : Bytes} {callback : Option Nat} : IgnoresBlock (write chunk callback) := by
  have count : IgnoresBlock (countOutgoing chunk) := .get_bind (fun _ _ => rfl) fun c => by
    rcases c.self.outgoingContentRemaining with _ | remaining
    · exact .pure _
    · exact .bind (fun _ _ => rfl) fun _ => .check
  exact resetOnError_ignores (.get_bind (fun _ _ => rfl) fun _ => .bind (.when count) fun _ =>
    .bind (fun _ _ => rfl) fun _ => .ite runCallback_ignores acquire_ignores)

theorem setOutgoingContent_ignores {startLine : StartLine Bytes} {headers : HTTPHeaders Bytes} :
    IgnoresBlock (setOutgoingContent startLine headers) := by
  have declare {length : Int} : IgnoresBlock (declare length) := fun _ _ => rfl
  have bodiless : IgnoresBlock (isBodiless startLine) := by
    refine .get_bind (fun _ _ => rfl) fun c => .ite (.pure _) ?_
    rcases c.self.requestStartLine with _ | ⟨method, path⟩
    · exact .raise _
    · refine .ite (.pure _) ?_
      cases startLine with
      | response => exact .pure _
      | request => exact .raise _
  exact .bind bodiless fun _ => .ite declare (.ite (.bind (.ofExcept _) fun _ => declare) (.pure _))

theorem pseudoHeaderList_ignores {startLine : StartLine Bytes} : IgnoresBlock (pseudoHeaderList startLine) := by
  refine .get_bind (fun _ _ => rfl) fun c => ?_
  rcases c.conn.isClient <;> rcases startLine with ⟨method, path⟩ | code
  · exact .raise _
  · exact .pure _
  · exact .bind (fun _ _ => rfl) fun _ => .pure _
  · exact .bind (fun _ _ => rfl) fun _ => .raise _

theorem writeHeaders_ignores {startLine : StartLine Bytes} {headers : HTTPHeaders Bytes} {chunk : Bytes}
    {callback : Option Nat} : IgnoresBlock (writeHeaders startLine headers chunk callback) :=
  resetOnError_ignores (.get_bind (fun _ _ => rfl) fun _ => .bind (fun _ _ => rfl) fun _ =>
    .bind setOutgoingContent_ignores fun _ => .bind pseudoHeaderList_ignores fun _ =>
      .bind (fun _ _ => rfl) fun _ => .bind (fun _ _ => rfl) fun _ => .bind (fun _ _ => rfl) fun _ =>
        write_ignores)

theorem finish_ignores : IgnoresBlock finish :=
  resetOnError_ignores (.get_bind (fun _ _ => rfl) fun _ => .bind (fun _ _ => rfl) fun _ =>
    .bind .check fun _ => acquire_ignores)

/-! A fragment and the fragment without the flag. -/

variable {c : Ctx} {f : Frame} {later : Bool}

theorem headerLength_congr {frames : List Frame}
    (h : frames.map (fun f => f.data.length) = c.self.headerFrames.map fun f => f.data.length) :
    (c.withFrames frames).self.headerLength = c.self.headerLength := congrArg List.sum h

theorem checkHeaderLength_withFrames {frames : List Frame}
    (h : (c.withFrames frames).self.headerLength = c.self.headerLength) :
    checkHeaderLength.run (c.withFrames frames) =
      ((checkHeaderLength.run c).1, (checkHeaderLength.run c).2.withFrames frames) := by
  have hinner : IgnoresBlock (if c.conn.isClient then callDelegate .onConnectionClose
      else do
        setSelf fun s => { s with requestStartLine := some (some (ascii "GET"), some (ascii "/")) }
        writeHeaders (.response 431) .empty [] none
        finish) := by
    refine .ite (.get_bind (fun _ _ => rfl) fun _ => .bind .check fun _ => fun _ _ => rfl) ?_
    exact .bind (fun _ _ => rfl) fun _ => .bind writeHeaders_ignores fun _ => finish_ignores
  have hwhen : IgnoresBlock (when (c.self.headerLength > c.conn.params.maxHeaderSize) (if c.conn.isClient then
        callDelegate .onConnectionClose
      else do
        setSelf fun s => { s with requestStartLine := some (some (ascii "GET"), some (ascii "/")) }
        writeHeaders (.response 431) .empty [] none
        finish)) := .when hinner
  rw [checkHeaderLength, run_get_bind, run_get_bind, h]
  exact hwhen frames c

theorem maybeEndStream_unflagged : maybeEndStream f.unflagged = maybeEndStream f := by
  rw [maybeEndStream, Frame.has_unflagged (by decide)]
  rfl

theorem parseBlock_unflagged {data : Bytes} : parseBlock f.unflagged data = parseBlock f data := by
  have hstrip : stripPriority f.unflagged = stripPriority f := by
    funext data
    rw [stripPriority, Frame.has_unflagged (by decide)]
    rfl
  rw [parseBlock, hstrip, maybeEndStream_unflagged]
  rfl

end Stream

/-- The state up to the PADDED flags of the collected fragments. -/
def Ctx.unflagged (c : Ctx) : Ctx := c.withFrames (c.self.headerFrames.map Frame.unflagged)

theorem Ctx.unflagged_withFrames {c : Ctx} {frames frames' : List Frame}
    (h : frames.map Frame.unflagged = frames'.map Frame.unflagged) :
    (c.withFrames frames).unflagged = (c.withFrames frames').unflagged := congrArg c.withFrames h

namespace Stream

variable {c : Ctx} {f : Frame} {later : Bool}

theorem parseHeaders_withFrames {first : Frame} {rest : List Frame} :
    parseHeaders.run (c.withFrames (first :: rest)) =
      (parseBlock first ((first :: rest).flatMap Frame.data)).run (c.withFrames []) := rfl

theorem parseHeaders_unflagged {frames : List Frame} :
    parseHeaders.run (c.withFrames (frames ++ [f.unflagged])) = parseHeaders.run (c.withFrames (frames ++ [f])) := by
  cases frames with
  | nil =>
    rw [List.nil_append, List.nil_append, parseHeaders_withFrames, parseHeaders_withFrames, parseBlock_unflagged]
    rfl
  | cons first rest =>
    have hdata : (first :: (rest ++ [f.unflagged])).flatMap Frame.data =
        (first :: (rest ++ [f])).flatMap Frame.data := by
      simp [Frame.unflagged]
    rw [List.cons_append, List.cons_append, parseHeaders_withFrames, parseHeaders_withFrames, hdata]

theorem appendHeaderFrame_unflagged :
    ((appendHeaderFrame f.unflagged).run c).1 = ((appendHeaderFrame f).run c).1 ∧
      ((appendHeaderFrame f.unflagged).run c).2.unflagged = ((appendHeaderFrame f).run c).2.unflagged := by
  have hframes : (c.self.headerFrames ++ [f.unflagged]).map Frame.unflagged =
      (c.self.headerFrames ++ [f]).map Frame.unflagged := by simp [Frame.unflagged_unflagged]
  have hlengths : (c.self.headerFrames ++ [f.unflagged]).map (fun f => f.data.length) =
      (c.self.headerFrames ++ [f]).map fun f => f.data.length := by simp [Frame.unflagged]
  have hrun (g : Frame) : (appendHeaderFrame g).run c = (do
      checkHeaderLength
      when (g.has .endHeaders = true) parseHeaders).run (c.withFrames (c.self.headerFrames ++ [g])) := rfl
  rw [hrun, hrun, Frame.has_unflagged (by decide)]
  revert hframes hlengths
  generalize hf : c.self.headerFrames ++ [f] = frames
  generalize hg : c.self.headerFrames ++ [f.unflagged] = frames'
  intro hframes hlengths
  -- Both runs are the one of the check with the fragments of the first, given back their own.
  have hkeep : checkHeaderLength.run (c.withFrames frames) = ((checkHeaderLength.run (c.withFrames frames)).1,
      (checkHeaderLength.run (c.withFrames frames)).2.withFrames frames) :=
    @checkHeaderLength_withFrames (c.withFrames frames) frames rfl
  have hother : checkHeaderLength.run (c.withFrames frames') = ((checkHeaderLength.run (c.withFrames frames)).1,
      (checkHeaderLength.run (c.withFrames frames)).2.withFrames frames') :=
    @checkHeaderLength_withFrames (c.withFrames frames) frames' (headerLength_congr hlengths)
  have hstate {c' : Ctx} (hc' : c' = c'.withFrames frames) : (c'.withFrames frames').unflagged = c'.unflagged := by
    rw [Ctx.unflagged_withFrames hframes, ← hc']
  rcases hcheck : checkHeaderLength.run (c.withFrames frames) with ⟨e | ⟨⟩, c'⟩
  · rw [hcheck] at hkeep hother
    rw [bind_error hcheck, bind_error hother]
    exact ⟨rfl, hstate (congrArg Prod.snd hkeep)⟩
  · rw [hcheck] at hkeep hother
    have hc' : c' = c'.withFrames frames := congrArg Prod.snd hkeep
    have hparse : parseHeaders.run (c'.withFrames frames') = parseHeaders.run c' := by
      rw [← hg, parseHeaders_unflagged, hf, ← hc']
    rw [bind_ok hcheck, bind_ok hother, when]
    split
    · rw [hparse]
      exact ⟨rfl, rfl⟩
    · exact ⟨rfl, hstate hc'⟩

theorem handleHeadersFrame_run : (handleHeadersFrame f).run c = (do
    let frame ← ofExcept f.withoutPadding
    appendHeaderFrame frame).run
      ⟨c.conn, { c.self with phase := if c.self.phase = HTTPPhase.body then .trailers else c.self.phase }⟩ := by
  rw [handleHeadersFrame, run_get_bind, when]
  split
  · rfl
  · rfl

theorem handleDataFrame_run (hframes : c.self.headerFrames = []) (hphase : c.self.phase ≠ .trailers) :
    (handleDataFrame f later).run c = (do
      let frame ← ofExcept f.withoutPadding
      countIncoming frame.data
      when (frame.data ≠ [] ∧ c.self.delegateStarted = true) (deliverData later frame.data)
      let _ ← maybeEndStream frame).run ⟨c.conn, { c.self with phase := .body }⟩ := by
  rw [handleDataFrame, run_get_bind, check, when, if_neg (not_not.mpr hframes), check, when, if_neg hphase]
  rfl

theorem handleFrame_data (htype : f.type = .data) : (handleFrame f later).run c =
    (if c.self.finished = true then raise (.streamError c.self.streamId .streamClosed)
      else handleDataFrame f later).run c := by
  rw [handleFrame, run_get_bind, htype]
  simp only [check, when]
  split <;> rfl

/-- A frame does what its payload does, up to the flag. -/
theorem handleFrame_unpadded {data : Bytes} (htype : f.type = .headers ∨ f.type = .data)
    (h : f.withoutPadding = .ok { f with data }) :
    let g := { f with data }.unflagged
    ((handleFrame g later).run c).1 = ((handleFrame f later).run c).1 ∧
      ((handleFrame g later).run c).2.unflagged = ((handleFrame f later).run c).2.unflagged := by
  intro g
  have hg : g.withoutPadding = .ok g := Frame.withoutPadding_unflagged
  rcases htype with htype | htype
  · rw [handleFrame_headers (show g.type = .headers from htype), handleFrame_headers htype]
    split
    · exact ⟨rfl, rfl⟩
    · rw [handleHeadersFrame_run, handleHeadersFrame_run, hg, h]
      exact appendHeaderFrame_unflagged
  · rw [handleFrame_data (show g.type = .data from htype), handleFrame_data htype]
    have hdata : handleDataFrame g later = handleDataFrame f later := by
      rw [handleDataFrame, handleDataFrame, hg, h]
      have hend : maybeEndStream g = maybeEndStream { f with data } := maybeEndStream_unflagged
      refine congrArg (Prog.get >>= ·) (funext fun c => congrArg (_ >>= ·) (funext fun _ =>
        congrArg (_ >>= ·) (funext fun _ => congrArg (_ >>= ·) (funext fun _ => ?_))))
      change (do
        countIncoming data
        when (data ≠ [] ∧ c.self.delegateStarted = true) (deliverData later data)
        let _ ← maybeEndStream g) = _
      rw [hend]
      rfl
    rw [hdata]
    exact ⟨rfl, rfl⟩

/-! Two streams that tell payloads apart. -/

/-- A client's stream that is about to refuse a header block. -/
def refusing : Ctx :=
  ⟨{ (System.start true (.new none .caseless)).conn with params := ⟨0, .caseless⟩ },
    { Stream.new (System.start true (.new none .caseless)).conn 1 false with headerFrames := [⟨.headers, 0, 1, [0]⟩] }⟩

/-- A server's stream without a request. -/
def waiting (remaining : Option Int) : Ctx :=
  ⟨(System.start false (.new none .caseless)).conn,
    { Stream.new (System.start false (.new none .caseless)).conn 1 true with incomingContentRemaining := remaining }⟩

theorem refusing_headers {g : Frame} (htype : f.type = .headers) (h : f.withoutPadding = .ok g) :
    (handleFrame f later).run refusing =
      (.error .attributeError, refusing.withFrames (refusing.self.headerFrames ++ [g])) := by
  have hlong : (refusing.withFrames (refusing.self.headerFrames ++ [g])).self.headerLength >
      (refusing.withFrames (refusing.self.headerFrames ++ [g])).conn.params.maxHeaderSize := by
    simp [headerLength, withFrames, refusing]
  have hcheck : checkHeaderLength.run (refusing.withFrames (refusing.self.headerFrames ++ [g])) =
      (.error .attributeError, refusing.withFrames (refusing.self.headerFrames ++ [g])) := by
    rw [checkHeaderLength, run_get_bind, when, if_pos hlong]
    rfl
  rw [handleFrame_headers htype, if_neg (by decide), handleHeadersFrame_run, h]
  exact bind_error hcheck _

theorem waiting_data {g : Frame} {remaining : Option Int} (htype : f.type = .data) (h : f.withoutPadding = .ok g) :
    (handleFrame f later).run (waiting remaining) = (do
      countIncoming g.data
      let _ ← maybeEndStream g).run ⟨(waiting remaining).conn, { (waiting remaining).self with phase := .body }⟩ := by
  have hidle : ¬(g.data ≠ [] ∧ (waiting remaining).self.delegateStarted = true) := by
    simp [waiting, Stream.new]
  rw [handleFrame_data htype, if_neg (by simp [waiting, Stream.new]),
    handleDataFrame_run rfl (by simp [waiting, Stream.new]), h]
  change (do
    countIncoming g.data
    when (g.data ≠ [] ∧ (waiting remaining).self.delegateStarted = true) (deliverData later g.data)
    let _ ← maybeEndStream g).run _ = _
  rw [when, if_neg hidle]
  rfl

theorem waiting_counts {g : Frame} (htype : f.type = .data) (h : f.withoutPadding = .ok g) :
    ((handleFrame f later).run (waiting (some 0))).2.self.incomingContentRemaining =
      some (-(g.data.length : Int)) := by
  rw [waiting_data htype h]
  cases hdata : g.data with
  | nil =>
    cases hend : g.has .endStream <;>
      simp [countIncoming, maybeEndStream, hend, waiting, Stream.new, setSelf, run_bind, check, when]
  | cons b rest =>
    simp [countIncoming, waiting, Stream.new, setSelf, run_bind, check, when]

theorem waiting_accepts {g : Frame} (htype : f.type = .data) (h : f.withoutPadding = .ok g) :
    ((handleFrame f later).run (waiting none)).1 = .ok () := by
  rw [waiting_data htype h]
  cases hend : g.has .endStream <;>
    simp [countIncoming, maybeEndStream, hend, waiting, Stream.new, setSelf, run_bind, check, when]

end Stream

/-- The stream gets as far as the padding of the frame. -/
def Ctx.readsPadding (c : Ctx) (f : Frame) : Prop :=
  c.self.finished = false ∧ (f.type = .data → c.self.headerFrames = [] ∧ c.self.phase ≠ .trailers)

/-- In every state the two frames have the same effect. -/
def SameEffect (f g : Frame) : Prop :=
  ∀ (c : Ctx) (later : Bool),
    ((Stream.handleFrame g later).run c).1 = ((Stream.handleFrame f later).run c).1 ∧
      ((Stream.handleFrame g later).run c).2.unflagged = ((Stream.handleFrame f later).run c).2.unflagged

/-- Padding is transparent, and an invalid pad length is refused. -/
def HandlesPadding (f : Frame) : Prop :=
  (∀ p data padding, f.data = p :: (data ++ padding) → padding.length = p.toNat →
    SameEffect f { f with data }.unflagged) ∧
  ((f.data = [] ∨ ∃ p rest, f.data = p :: rest ∧ rest.length < p.toNat) → ∀ c later, c.readsPadding f →
    ∃ phase, (Stream.handleFrame f later).run c = (.error f.paddingError, ⟨c.conn, { c.self with phase }⟩))

section

variable {f : Frame} {data data' : Bytes}

/-- An error in the padding comes before anything else but the change of phase. -/
theorem handleFrame_paddingError {c : Ctx} {e : PyException} {later : Bool}
    (htype : f.type = .headers ∨ f.type = .data) (hc : c.readsPadding f) (h : f.withoutPadding = .error e) :
    ∃ phase, (Stream.handleFrame f later).run c = (.error e, ⟨c.conn, { c.self with phase }⟩) := by
  have hopen : ¬ c.self.finished = true := by simp [hc.1]
  rcases htype with htype | htype
  · rw [Stream.handleFrame_headers htype, if_neg hopen, Stream.handleHeadersFrame_run, h]
    exact ⟨_, rfl⟩
  · obtain ⟨hframes, hphase⟩ := hc.2 htype
    rw [Stream.handleFrame_data htype, if_neg hopen, Stream.handleDataFrame_run hframes hphase, h]
    exact ⟨_, rfl⟩

theorem SameEffect.length (h : SameEffect f { f with data }.unflagged) (htype : f.type = .headers ∨ f.type = .data)
    (hstripped : f.withoutPadding = .ok { f with data := data' }) : data'.length = data.length := by
  generalize hg : ({ f with data } : Frame).unflagged = g at h
  have hdata : g.data = data := hg ▸ rfl
  have hunflagged : g.withoutPadding = .ok g := hg ▸ Frame.withoutPadding_unflagged
  have hgtype : g.type = f.type := hg ▸ rfl
  rcases htype with htype | htype
  · have heffect := (h Stream.refusing false).2
    rw [Stream.refusing_headers htype hstripped, Stream.refusing_headers (hgtype.trans htype) hunflagged] at heffect
    have hframes := congrArg (fun c => (c.self.headerFrames.map fun g => g.data.length).getLast?) heffect
    simpa [unflagged, withFrames, Frame.unflagged, hdata] using hframes.symm
  · have heffect := congrArg (fun c => c.self.incomingContentRemaining) (h (Stream.waiting (some 0)) false).2
    have hcounts : some (-(g.data.length : Int)) = some (-(data'.length : Int)) :=
      (Stream.waiting_counts (hgtype.trans htype) hunflagged).symm.trans
        (heffect.trans (Stream.waiting_counts htype hstripped))
    rw [hdata, Option.some.injEq] at hcounts
    omega

theorem not_handlesPadding_of_ok (htype : f.type = .headers ∨ f.type = .data)
    (hinvalid : f.data = [] ∨ ∃ p rest, f.data = p :: rest ∧ rest.length < p.toNat)
    (hstripped : f.withoutPadding = .ok { f with data }) : ¬ HandlesPadding f := by
  intro h
  rcases htype with htype | htype
  · obtain ⟨phase, hrun⟩ := h.2 hinvalid Stream.refusing false ⟨rfl, by simp [htype]⟩
    rw [Stream.refusing_headers htype hstripped] at hrun
    simp [Frame.paddingError, htype] at hrun
  · obtain ⟨phase, hrun⟩ := h.2 hinvalid (Stream.waiting none) false
      ⟨rfl, fun _ => ⟨rfl, by simp [Stream.waiting, Stream.new]⟩⟩
    have hok : ((Stream.handleFrame f false).run (Stream.waiting none)).1 = .ok () :=
      Stream.waiting_accepts htype hstripped
    simp [hrun] at hok

/-- Padding is handled as it should be exactly if the payload is not empty, a
pad length of 0 has nothing after it, and one of 128 or more has 255 bytes. -/
theorem padding_transparent (htype : f.type = .headers ∨ f.type = .data) (hpadded : f.has .padded = true) :
    HandlesPadding f ↔ ∃ p rest, f.data = p :: rest ∧ (p = 0 → rest = []) ∧ (128 ≤ p.toNat → rest.length = 255) := by
  constructor
  · intro h
    cases hdata : f.data with
    | nil =>
      have hstruct : f.withoutPadding = .error .structError := by
        rw [Frame.withoutPadding, if_pos hpadded, hdata]
      obtain ⟨c, hc⟩ : ∃ c : Ctx, c.readsPadding f :=
        ⟨Stream.waiting none, rfl, fun _ => ⟨rfl, by simp [Stream.waiting, Stream.new]⟩⟩
      obtain ⟨phase, hrun⟩ := h.2 (.inl hdata) c false hc
      have hfails : ∃ phase, (Stream.handleFrame f false).run c =
          (.error .structError, ⟨c.conn, { c.self with phase }⟩) :=
        handleFrame_paddingError htype hc hstruct
      obtain ⟨phase', hrun'⟩ := hfails
      have heq := (congrArg Prod.fst hrun).symm.trans (congrArg Prod.fst hrun')
      rcases htype with htype | htype <;> simp [Frame.paddingError, htype] at heq
    | cons p rest =>
      refine ⟨p, rest, rfl, fun hzero => ?_, fun hlarge => ?_⟩
      · have hstripped := Frame.withoutPadding_stripped hpadded hdata (.inl (by simp [hzero]))
        have hlength := (h.1 p rest [] (by simp [hdata]) (by simp [hzero])).length htype hstripped
        simpa [Frame.stripped, hzero, eq_comm] using hlength
      · have hlt := p.toNat_lt
        have hstripped := Frame.withoutPadding_stripped hpadded hdata (.inr hlarge)
        by_cases hle : p.toNat ≤ rest.length
        · have hlength := (h.1 p (rest.take (rest.length - p.toNat)) (rest.drop (rest.length - p.toNat))
            (by simp [hdata]) (by simp; omega)).length htype hstripped
          have hne : p ≠ 0 := by
            rintro rfl
            simp at hlarge
          simp only [Frame.stripped, hne, if_false, not_lt.mpr hlarge, List.length_take] at hlength
          omega
        · exact absurd h (not_handlesPadding_of_ok htype (.inr ⟨p, rest, hdata, not_le.mp hle⟩) hstripped)
  · rintro ⟨p, rest, hdata, hzero, hlarge⟩
    refine ⟨fun p' data padding hsplit hpad => ?_, fun hinvalid c later hc => ?_⟩
    · obtain ⟨rfl, rfl⟩ := List.cons.inj (hdata.symm.trans hsplit)
      rw [List.length_append] at hlarge
      have hstripped := Frame.withoutPadding_stripped hpadded hdata (.inl (by simp [hpad]))
      have hdata' : Frame.stripped p (data ++ padding) = data := by
        rw [Frame.stripped]
        by_cases hp : p = 0
        · rw [if_pos hp, (List.append_eq_nil_iff.mp (hzero hp)).1]
        · rw [if_neg hp]
          split
          · simp [hpad]
          · rw [show 255 - p.toNat = data.length by omega, List.take_left']
            rfl
      rw [hdata'] at hstripped
      exact fun c later => Stream.handleFrame_unpadded htype hstripped
    · have hlt := p.toNat_lt
      rcases hinvalid with hnil | ⟨p', rest', hsplit, hlength⟩
      · rw [hdata] at hnil
        cases hnil
      · obtain ⟨rfl, rfl⟩ := List.cons.inj (hdata.symm.trans hsplit)
        have hsmall : p.toNat < 128 := by
          by_contra hnot
          have := hlarge (not_lt.mp hnot)
          omega
        exact handleFrame_paddingError htype hc (Frame.withoutPadding_invalid hpadded hdata hsmall hlength)

end

theorem padding_transparent_one : HandlesPadding ⟨.data, 0x8, 1, [1, 97, 0]⟩ :=
  (padding_transparent (.inr rfl) (by decide)).mpr ⟨1, [97, 0], rfl, by decide, by decide⟩

/-- A DATA frame with a pad length of 0 loses its payload. -/
theorem padding_not_transparent :
    ¬ ∀ f : Frame, f.type = .headers ∨ f.type = .data → f.has .padded = true → HandlesPadding f := by
  intro h
  have hsame := (h ⟨.data, 0x8, 1, [0, 1, 2, 3]⟩ (.inr rfl) (by decide)).1 0 [1, 2, 3] [] rfl rfl
  have heffect := congrArg (fun c => c.conn.log)
    (hsame ⟨(Stream.waiting none).conn, { (Stream.waiting none).self with delegateStarted := true, phase := .body }⟩
      false).2
  exact absurd heffect (by decide +kernel)

end TornadoHttp2
