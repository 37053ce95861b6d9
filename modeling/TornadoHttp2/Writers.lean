import TornadoHttp2.Effects

/-! What a coroutine that owns the write lock can do from one `yield` to the
next, and what the calls of the application come to. -/

namespace TornadoHttp2

open Prog

namespace Ctx

def logged (c : Ctx) (e : Event) : Ctx := { c with conn := { c.conn with log := c.conn.log ++ [e] } }

def withLock (c : Ctx) (writeLock : WriteLock) : Ctx := { c with self := { c.self with writeLock } }

def withOwner (c : Ctx) (owner : Owner) : Ctx := c.withLock { c.self.writeLock with owner }

def released (c : Ctx) : Ctx := c.withLock c.self.writeLock.release

def enqueued (c : Ctx) (job : Job) : Ctx :=
  c.withLock { c.self.writeLock with waiters := c.self.writeLock.waiters ++ [job] }

def calledBack (c : Ctx) : Option Nat → Ctx
  | none => c
  | some token => c.logged (.callback c.self.streamId token)

def resetFrame (c : Ctx) : Frame := ⟨.rstStream, 0, c.self.streamId, [0, 0, 0, 0]⟩

def pieceFrame (c : Ctx) (piece : Bytes) : Frame := ⟨.data, 0, c.self.streamId, piece⟩

def endStreamFrame (c : Ctx) : Frame := ⟨.data, FrameFlag.endStream.value, c.self.streamId, []⟩

def debited (c : Ctx) (amount : Int) : Ctx :=
  { c with self := { c.self with window := { c.self.window with size := c.self.window.size - amount } } }

def parentDebited (c : Ctx) (amount : Int) : Ctx :=
  { c with conn := { c.conn with window := { c.conn.window with size := c.conn.window.size - amount } } }

def headersFrame (c : Ctx) (data : Bytes) : Frame :=
  ⟨.headers, FrameFlag.endHeaders.value, c.self.streamId, data⟩

def counted (c : Ctx) (chunk : Bytes) : Ctx :=
  { c with self := { c.self with
    outgoingContentRemaining := c.self.outgoingContentRemaining.map (· - (chunk.length : Int)) } }

def issued (c : Ctx) (call : Call) : Ctx := c.logged (.issued c.self.streamId call)

def declared (c : Ctx) (length : Int) : Ctx :=
  { c with self := { c.self with outgoingContentRemaining := some length } }.logged
    (.declared c.self.streamId length)

def prepared (c : Ctx) (requestStartLine : Option (Option Bytes × Option Bytes))
    (hpackEncoder : HpackEncoder) : Ctx :=
  ⟨{ c.conn with hpackEncoder }, { c.self with requestStartLine }⟩

/-- An attempt to reset the stream, which a closed socket prevents. -/
def Resets (c c' : Ctx) : Prop := c' = c ∨ c' = c.logged (.wrote c.resetFrame)

/-- A writer that owns the lock has `chunk` left and asks the connection's window
for `amount`: it was waiting for that, or the stream's window allows it now. -/
def Wants (c : Ctx) (chunk : Bytes) (point : YieldPoint) (amount : Int) : Prop :=
  (∃ since, point = .parentCond amount since) ∨
    chunk ≠ [] ∧ 0 < c.self.window.size ∧
      amount = if c.self.window.size < chunk.length then c.self.window.size else chunk.length

end Ctx

open Ctx

/-- One slice of the coroutine that owns the write lock. -/
inductive Slice (c : Ctx) : Ctx → Prop
  | idle : Slice c c
  | failed {chunk : Bytes} {callback : Option Nat} {point : YieldPoint} {c' : Ctx}
      (howner : c.self.writeLock.owner = .writer (.chunk chunk callback) point)
      (h : Resets (c.withOwner .lost) c') : Slice c c'
  | finished {callback : Option Nat} {point : YieldPoint}
      (howner : c.self.writeLock.owner = .writer (.chunk [] callback) point) :
    Slice c (c.released.calledBack callback)
  | waits {chunk : Bytes} {callback : Option Nat} {point : YieldPoint}
      (howner : c.self.writeLock.owner = .writer (.chunk chunk callback) point) :
    Slice c (c.withOwner (.writer (.chunk chunk callback) (.cond c.self.window.notified)))
  | waitsParent {chunk : Bytes} {callback : Option Nat} {point : YieldPoint} {amount : Int}
      (howner : c.self.writeLock.owner = .writer (.chunk chunk callback) point)
      (hwants : c.Wants chunk point amount) :
    Slice c (c.withOwner (.writer (.chunk chunk callback) (.parentCond amount c.conn.window.notified)))
  | takes {chunk : Bytes} {callback : Option Nat} {point : YieldPoint} {amount taken : Int}
      (howner : c.self.writeLock.owner = .writer (.chunk chunk callback) point)
      (hwants : c.Wants chunk point amount) (hsize : 0 < c.conn.window.size)
      (htaken : taken = if c.conn.window.size < amount then c.conn.window.size else amount) :
    Slice c (((c.parentDebited taken).logged (.consumed none c.self.streamId amount taken)).withOwner
      (.writer (.chunk chunk callback) (.parent taken)))
  | debits {chunk : Bytes} {callback : Option Nat} {amount : Int}
      (howner : c.self.writeLock.owner = .writer (.chunk chunk callback) (.parent amount)) :
    Slice c (((c.debited amount).logged
      (.consumed (some c.self.streamId) c.self.streamId chunk.length amount)).withOwner
        (.writer (.chunk chunk callback) (.consume amount)))
  | writes {chunk : Bytes} {callback : Option Nat} {amount : Int}
      (howner : c.self.writeLock.owner = .writer (.chunk chunk callback) (.consume amount))
      (hopen : c.conn.closed = false) :
    Slice c ((c.logged (.wrote (c.pieceFrame (chunk.take amount.toNat)))).withOwner
      (.writer (.chunk (chunk.drop amount.toNat) callback) .flush))
  | ends {point : YieldPoint} (howner : c.self.writeLock.owner = .writer .endStream point)
      (hopen : c.conn.closed = false) :
    Slice c (c.logged (.wrote c.endStreamFrame)).released
  | aborts {point : YieldPoint} {c' : Ctx}
      (howner : c.self.writeLock.owner = .writer .endStream point) (h : Resets c c') :
    Slice c c'.released

inductive Acquires (c : Ctx) (job : Job) : Ctx → Prop
  | granted {c' : Ctx} (hfree : c.self.writeLock.owner = .free)
      (h : Slice (c.withOwner (.writer job .lock)) c') : Acquires c job c'
  | queued (hbusy : c.self.writeLock.owner ≠ .free) : Acquires c job (c.enqueued job)

/-- A call of `write`. -/
inductive Writes (c : Ctx) (chunk : Bytes) (callback : Option Nat) : Ctx → Prop
  | rejected {remaining : Int} {c' : Ctx} (hchunk : chunk ≠ [])
      (hremaining : c.self.outgoingContentRemaining = some remaining)
      (hover : remaining < chunk.length) (h : Resets (c.counted chunk) c') : Writes c chunk callback c'
  | empty (hchunk : chunk = []) :
    Writes c chunk callback ((c.logged (.accepted c.self.streamId [])).calledBack callback)
  | accepted {c' : Ctx} (hchunk : chunk ≠ [])
      (hfits : ∀ remaining, c.self.outgoingContentRemaining = some remaining → chunk.length ≤ remaining)
      (h : Acquires ((c.counted chunk).logged (.accepted c.self.streamId chunk))
        (.chunk chunk callback) c') : Writes c chunk callback c'

/-- An encoder before and after at most one header block. -/
def Encodes (enc enc' : HpackEncoder) : Prop :=
  enc' = enc ∨ ∃ headerList, enc' = ((HpackEncoder.encode headerList).run enc).2

/-- What `write_headers` changes before it writes a frame. -/
inductive Prepared (c : Ctx) : Ctx → Prop
  | undeclared (requestStartLine : Option (Option Bytes × Option Bytes)) (hpackEncoder : HpackEncoder)
      (hencodes : Encodes c.conn.hpackEncoder hpackEncoder) :
    Prepared c (c.prepared requestStartLine hpackEncoder)
  | declared (length : Int) (requestStartLine : Option (Option Bytes × Option Bytes))
      (hpackEncoder : HpackEncoder) (hencodes : Encodes c.conn.hpackEncoder hpackEncoder) :
    Prepared c ((c.declared length).prepared requestStartLine hpackEncoder)

theorem Prepared.closed {c c' : Ctx} (h : Prepared c c') : c'.conn.closed = c.conn.closed := by
  cases h <;> rfl

theorem Prepared.self {c c' : Ctx} (h : Prepared c c') : c'.self.streamId = c.self.streamId ∧
    c'.self.writeLock = c.self.writeLock := by
  cases h <;> exact ⟨rfl, rfl⟩

theorem Prepared.log {c c' : Ctx} (h : Prepared c c') :
    Grows (fun e => ∃ n, e = .declared c.self.streamId n) c.conn.log c'.conn.log := by
  cases h with
  | undeclared => exact .refl
  | declared length => exact .snoc ⟨length, rfl⟩

/-- The header block of `write_headers`. -/
def Stream.headerBlock (startLine : StartLine Bytes) (headers : HTTPHeaders Bytes) : OnStream Bytes := do
  setOutgoingContent startLine headers
  let pseudoHeaders ← pseudoHeaderList startLine
  let regularHeaders ← regularHeaderList headers.getAll
  encodeHeaders (pseudoHeaders ++ regularHeaders)

/-- A call of `write_headers` that does not raise. -/
inductive Heads (c : Ctx) (startLine : StartLine Bytes) (headers : HTTPHeaders Bytes) (chunk : Bytes)
    (callback : Option Nat) : Ctx → Prop
  | mk {data : Bytes} {c₁ c' : Ctx}
      (hblock : (Stream.headerBlock startLine headers).run (c.issued .writeHeaders) = (.ok data, c₁))
      (h : Prepared (c.issued .writeHeaders) c₁) (hopen : c.conn.closed = false)
      (hwrite : Writes (c₁.logged (.wrote (c.headersFrame data))) chunk callback c') :
    Heads c startLine headers chunk callback c'

/-- A call of `write_headers`. -/
inductive WritesHeaders (c : Ctx) (startLine : StartLine Bytes) (headers : HTTPHeaders Bytes) (chunk : Bytes)
    (callback : Option Nat) : Ctx → Prop
  | failed {c₁ c' : Ctx} (h : Prepared (c.issued .writeHeaders) c₁) (hreset : Resets c₁ c') :
    WritesHeaders c startLine headers chunk callback c'
  | written {c₁ c' : Ctx} (h : Heads c startLine headers chunk callback c₁) (hreset : Resets c₁ c') :
    WritesHeaders c startLine headers chunk callback c'

/-- A call of `finish`. -/
inductive Finishes (c : Ctx) : Ctx → Prop
  | short {remaining : Int} {c' : Ctx} (hremaining : c.self.outgoingContentRemaining = some remaining)
      (hshort : remaining ≠ 0) (h : Resets (c.issued .finish) c') : Finishes c c'
  | ends {c' : Ctx} (hremaining : ∀ remaining, c.self.outgoingContentRemaining = some remaining →
      remaining = 0) (h : Acquires (c.issued .finish) .endStream c') : Finishes c c'

theorem Ctx.writeFrame_run {c : Ctx} {frame : Frame} (hlength : frame.data.length < 2 ^ 31)
    (hid : frame.streamId < 2 ^ 31) (hopen : c.conn.closed = false) :
    (writeFrame frame).run c = (.ok (), c.logged (.wrote frame)) := by
  have hstruct : ¬ (frame.data.length ≥ 2 ^ 31 ∨ frame.streamId ≥ 2 ^ 31) := by omega
  simp only [writeFrame, onConn, run_zoom, Conn.writeFrame, check, when, if_neg hstruct]
  rw [run_pure_bind, run_get_bind, hopen]
  rfl

namespace Stream

variable {c : Ctx}

theorem wp_emit {e : Event} {Q : Unit → Ctx → Prop} {E : PyException → Ctx → Prop} :
    wp (emit e) Q E c ↔ Q () (c.logged e) := Iff.rfl

theorem wp_setOwner {owner : Owner} {Q : Unit → Ctx → Prop} {E : PyException → Ctx → Prop} :
    wp (setOwner owner) Q E c ↔ Q () (c.withOwner owner) := Iff.rfl

theorem reset_wp {Q : Unit → Ctx → Prop} {E : PyException → Ctx → Prop}
    (hE : ∀ e, E e c) (hQ : Q () (c.logged (.wrote c.resetFrame))) : wp reset Q E c := by
  simp only [reset, wp_bind, wp_get, writeFrame_wp]
  split
  · exact hE _
  · split
    · exact hE _
    · exact hQ

theorem tryReset_wp {Q : Unit → Ctx → Prop} {E : PyException → Ctx → Prop}
    (h : ∀ c', Resets c c' → Q () c') : wp (catching reset fun _ => pure ()) Q E c := by
  rw [wp_catching]
  exact reset_wp (fun _ => h c (.inl rfl)) (h _ (.inr rfl))

theorem consumeParent_wp {chunk : Bytes} {callback : Option Nat} {point : YieldPoint} {amount : Int}
    (howner : c.self.writeLock.owner = .writer (.chunk chunk callback) point)
    (hwants : c.Wants chunk point amount) :
    wp (consumeParent amount)
      (fun point' c' => Slice c (c'.withOwner (.writer (.chunk chunk callback) point')))
      (fun _ c' => c' = c) c := by
  simp only [consumeParent, wp_bind, wp_get]
  rw [wp_ite]
  refine ⟨fun _ => .waitsParent howner hwants, fun hblocked => ?_⟩
  simp only [wp_bind, wp_check]
  refine ⟨fun _ => trivial, fun hclosed => ?_⟩
  have hsize : 0 < c.conn.window.size := by
    simp only [Window.blocked, Bool.and_eq_true, Bool.not_eq_true', decide_eq_true_eq, not_and,
      not_le] at hblocked
    exact hblocked (by simpa using hclosed)
  exact .takes howner hwants hsize rfl

theorem consume_wp {chunk : Bytes} {callback : Option Nat} {point : YieldPoint}
    (howner : c.self.writeLock.owner = .writer (.chunk chunk callback) point) (hchunk : chunk ≠ []) :
    wp (consume chunk.length)
      (fun point' c' => Slice c (c'.withOwner (.writer (.chunk chunk callback) point')))
      (fun _ c' => c' = c) c := by
  simp only [consume, wp_bind, wp_get]
  rw [wp_ite]
  refine ⟨fun _ => .waits howner, fun hblocked => ?_⟩
  simp only [wp_bind, wp_check]
  refine ⟨fun _ => trivial, fun hclosed => ?_⟩
  have hsize : 0 < c.self.window.size := by
    simp only [Window.blocked, Bool.and_eq_true, Bool.not_eq_true', decide_eq_true_eq, not_and,
      not_le] at hblocked
    exact hblocked (by simpa using hclosed)
  exact consumeParent_wp howner (.inr ⟨hchunk, hsize, rfl⟩)

theorem writeChunkLoop_wp {chunk : Bytes} {callback : Option Nat} {point : YieldPoint}
    (howner : c.self.writeLock.owner = .writer (.chunk chunk callback) point) :
    wp (writeChunkLoop chunk callback) (fun _ c' => Slice c c') (fun _ c' => c' = c) c := by
  rw [writeChunkLoop, wp_ite]
  refine ⟨fun hchunk => ?_, fun hchunk => ?_⟩
  · subst hchunk
    cases callback with
    | none => exact Slice.finished (c := c) howner
    | some token => exact Slice.finished (c := c) howner
  · rw [wp_bind]
    exact consume_wp howner hchunk

theorem resumeChunk_wp {flushed : Bool} {chunk : Bytes} {callback : Option Nat} {point : YieldPoint}
    (howner : c.self.writeLock.owner = .writer (.chunk chunk callback) point) :
    wp (resumeChunk flushed chunk callback point) (fun _ c' => Slice c c') (fun _ c' => c' = c) c := by
  cases point with
  | lock => exact writeChunkLoop_wp howner
  | cond since =>
    simp only [resumeChunk, wp_bind, wp_get, wp_when]
    exact ⟨fun _ => writeChunkLoop_wp howner, fun _ => .idle⟩
  | parentCond amount since =>
    simp only [resumeChunk, wp_bind, wp_get, wp_when]
    exact ⟨fun _ => consumeParent_wp howner (.inl ⟨since, rfl⟩), fun _ => .idle⟩
  | parent amount => exact .debits howner
  | consume amount =>
    simp only [resumeChunk, wp_bind, wp_get, writeFrame_wp]
    split
    · trivial
    · split
      · trivial
      · rename_i hopen
        exact .writes howner (by simpa using hopen)
  | flush =>
    simp only [resumeChunk, wp_bind, wp_get, wp_check]
    exact ⟨fun _ => trivial, fun _ => writeChunkLoop_wp howner⟩

theorem resumeEndStream_wp {point : YieldPoint} {E : PyException → Ctx → Prop}
    (howner : c.self.writeLock.owner = .writer .endStream point) :
    wp resumeEndStream (fun _ c' => Slice c c') E c := by
  have hfail : wp (catching reset fun _ => pure ()) (fun _ c' => Slice c c'.released) E c :=
    tryReset_wp fun c' h => .aborts howner h
  rw [wp_catching] at hfail
  simp only [resumeEndStream, wp_bind, wp_get, wp_catching, writeFrame_wp]
  split
  · exact hfail
  · split
    · exact hfail
    · rename_i hopen
      exact .ends howner (by simpa using hopen)

theorem resume_wp {flushed : Bool} {E : PyException → Ctx → Prop} :
    wp (resume flushed) (fun _ c' => Slice c c') E c := by
  simp only [resume, wp_bind, wp_get]
  rcases howner : c.self.writeLock.owner with _ | ⟨⟨chunk, callback⟩ | _, point⟩ | _
  · exact .idle
  · simp only [wp_catching]
    refine wp_mono (resumeChunk_wp howner) (fun _ _ h => h) ?_
    rintro _ _ rfl
    exact tryReset_wp fun c' h => .failed howner h
  · exact resumeEndStream_wp howner
  · exact .idle

theorem acquire_wp {job : Job} {E : PyException → Ctx → Prop} :
    wp (acquire job) (fun _ c' => Acquires c job c') E c := by
  simp only [acquire, wp_bind, wp_get, wp_ite]
  refine ⟨fun hfree => ?_, fun hbusy => .queued hbusy⟩
  rw [wp_setOwner]
  exact wp_mono resume_wp (fun _ _ h => .granted hfree h) fun _ _ h => h

theorem writeChunk_wp {chunk : Bytes} {callback : Option Nat} {E : PyException → Ctx → Prop} :
    wp (writeChunk chunk callback) (fun _ c' => chunk = [] ∧ c' = c.calledBack callback ∨
      chunk ≠ [] ∧ Acquires c (.chunk chunk callback) c') E c := by
  rw [writeChunk, wp_ite]
  refine ⟨fun hchunk => ?_, fun hchunk => ?_⟩
  · cases callback with
    | none => exact .inl ⟨hchunk, rfl⟩
    | some token => exact .inl ⟨hchunk, rfl⟩
  · exact wp_mono acquire_wp (fun _ _ h => .inr ⟨hchunk, h⟩) fun _ _ h => h

theorem countOutgoing_wp {chunk : Bytes} :
    wp (countOutgoing chunk)
      (fun _ c' => c' = c.counted chunk ∧
        ∀ remaining, c.self.outgoingContentRemaining = some remaining → chunk.length ≤ remaining)
      (fun _ c' => c' = c.counted chunk ∧
        ∃ remaining, c.self.outgoingContentRemaining = some remaining ∧ remaining < chunk.length) c := by
  simp only [countOutgoing, wp_bind, wp_get]
  rcases hremaining : c.self.outgoingContentRemaining with _ | remaining
  · have hcounted : c.counted chunk = c := by
      simp only [Ctx.counted, hremaining, Option.map_none]
      rw [← hremaining]
    exact ⟨hcounted.symm, by simp⟩
  · have hcounted : { c with self :=
        { c.self with outgoingContentRemaining := some (remaining - (chunk.length : Int)) } } =
          c.counted chunk := by
      simp only [Ctx.counted, hremaining, Option.map_some]
    simp only [setSelf, wp_bind, wp_modify, wp_check]
    refine ⟨fun hover => ⟨hcounted, remaining, rfl, by omega⟩, fun hfits => ⟨hcounted, ?_⟩⟩
    rintro _ ⟨⟩
    omega

theorem resetOnError_wp {m : OnStream Unit} {P P' : Ctx → Prop}
    (h : wp m (fun _ c' => P c') (fun _ c₁ => ∀ c', Resets c₁ c' → P' c') c) :
    wp (resetOnError m) (fun _ c' => P c') (fun _ c' => P' c') c := by
  rw [resetOnError, wp_catching]
  refine wp_mono h (fun _ _ h => h) fun e c₁ h₁ => ?_
  rw [wp_bind]
  exact reset_wp (fun _ => h₁ c₁ (.inl rfl)) (h₁ _ (.inr rfl))

theorem write_wp {chunk : Bytes} {callback : Option Nat} :
    wp (write chunk callback) (fun _ c' => Writes c chunk callback c')
      (fun _ c' => Writes c chunk callback c') c := by
  refine resetOnError_wp ?_
  simp only [wp_bind, wp_get, wp_when]
  refine ⟨fun hchunk => wp_mono countOutgoing_wp ?_ ?_, fun hchunk => ?_⟩
  · rintro _ _ ⟨rfl, hfits⟩
    rw [wp_bind, wp_emit]
    refine wp_mono writeChunk_wp (fun _ c' h => ?_) fun _ _ h => h
    rcases h with ⟨h, _⟩ | ⟨_, h⟩
    · exact absurd h hchunk
    · exact .accepted hchunk hfits h
  · rintro _ _ ⟨rfl, remaining, hremaining, hover⟩ c' h
    exact .rejected hchunk hremaining hover h
  · obtain rfl := not_not.mp hchunk
    rw [wp_emit]
    refine wp_mono writeChunk_wp (fun _ c' h => ?_) fun _ _ h => h
    rcases h with ⟨_, rfl⟩ | ⟨h, _⟩
    · exact .empty rfl
    · exact absurd rfl h

theorem finish_wp : wp finish (fun _ c' => Finishes c c') (fun _ c' => Finishes c c') c := by
  refine resetOnError_wp ?_
  simp only [wp_bind, wp_get, wp_emit, wp_check]
  refine ⟨fun hshort c' h => ?_, fun hends => ?_⟩
  · rcases hremaining : c.self.outgoingContentRemaining with _ | remaining
    · simp [hremaining] at hshort
    · exact .short hremaining (by simpa [hremaining] using hshort) h
  · refine wp_mono acquire_wp (fun _ c' h => .ends (fun remaining hremaining => ?_) h) fun _ _ h => h
    simpa [hremaining] using hends

/-- The part of `write_headers` that builds the header list. -/
def HeadersOnly (c c' : Ctx) : Prop := ∃ requestStartLine,
  c' = c.prepared requestStartLine c.conn.hpackEncoder

instance : Std.Refl HeadersOnly := ⟨fun _ => ⟨_, rfl⟩⟩

instance : IsTrans Ctx HeadersOnly := ⟨by
  rintro _ _ _ ⟨r, rfl⟩ ⟨r', rfl⟩
  exact ⟨r', rfl⟩⟩

theorem isBodiless_run (hserver : c.conn.isClient = false) {code : Int} {method path : Option Bytes}
    (hstart : c.self.requestStartLine = some (method, path)) : (isBodiless (.response code)).run c =
      (.ok (decide (method = some (ascii "HEAD") ∨ code = 304)), c) := by
  rw [isBodiless, run_get_bind, hserver, hstart]
  by_cases hhead : method = some (ascii "HEAD")
  · simp [hhead]
  · simp [hhead]

theorem setOutgoingContent_wp {startLine : StartLine Bytes} {headers : HTTPHeaders Bytes} :
    wp (setOutgoingContent startLine headers) (fun _ c' => c' = c ∨ ∃ length, c' = c.declared length)
      (fun _ c' => c' = c) c := by
  have declare {length : Int} {E : PyException → Ctx → Prop} : wp (declare length)
      (fun _ c' => c' = c ∨ ∃ length, c' = c.declared length) E c := .inr ⟨length, rfl⟩
  have bodiless : wp (isBodiless startLine) (fun _ c' => c' = c) (fun _ c' => c' = c) c := by
    simp only [isBodiless, wp_bind, wp_get]
    rw [wp_ite]
    refine ⟨fun _ => rfl, fun _ => ?_⟩
    rcases c.self.requestStartLine with _ | ⟨method, path⟩
    · rfl
    · rw [wp_ite]
      refine ⟨fun _ => rfl, fun _ => ?_⟩
      cases startLine <;> rfl
  rw [setOutgoingContent, wp_bind]
  refine wp_mono bodiless ?_ fun _ _ h => h
  rintro isBodiless _ rfl
  rw [wp_ite, wp_ite]
  refine ⟨fun _ => declare, fun _ => ⟨fun _ => ?_, fun _ => .inl rfl⟩⟩
  rcases headers.optional.getInt (ascii "Content-Length") with _ | n
  · rfl
  · exact declare

theorem headerBlock_wp {startLine : StartLine Bytes} {headers : HTTPHeaders Bytes} :
    wp (headerBlock startLine headers) (fun _ c' => Prepared c c') (fun _ c' => Prepared c c') c := by
  have regular (headers) : Keeps (fun _ => True) HeadersOnly (regularHeaderList headers) :=
    .get_bind fun _ _ => .pure _
  have pseudo : Keeps (fun _ => True) HeadersOnly (pseudoHeaderList startLine) :=
    .get_bind fun c _ => by
      rcases c.conn.isClient <;> rcases startLine with ⟨method, path⟩ | code
      · exact .raise _
      · exact .pure _
      · exact .bind (.modify fun _ _ => ⟨trivial, _, rfl⟩) fun _ => .pure _
      · exact .bind (.modify fun _ _ => ⟨trivial, _, rfl⟩) fun _ => .raise _
  rw [headerBlock, wp_bind]
  refine wp_mono setOutgoingContent_wp (fun _ c₁ h => ?_) ?_
  · have finish {c₂ : Ctx} {enc : HpackEncoder} (h₂ : HeadersOnly c₁ c₂)
        (hencodes : Encodes c₂.conn.hpackEncoder enc) : Prepared c (c₂.prepared c₂.self.requestStartLine enc) := by
      obtain ⟨r, rfl⟩ := h₂
      rcases h with rfl | ⟨length, rfl⟩
      · exact .undeclared r enc hencodes
      · exact .declared length r enc hencodes
    have failed {c₂ : Ctx} (h₂ : HeadersOnly c₁ c₂) : Prepared c c₂ := finish h₂ (.inl rfl)
    rw [wp_bind]
    refine wp_mono (wp_state.mpr (pseudo c₁ trivial).2) (fun pseudoHeaders c₂ h₂ => ?_) fun _ _ => failed
    rw [wp_bind]
    refine wp_mono (wp_state.mpr (IsTrans.trans _ _ _ h₂ (regular headers.getAll c₂ trivial).2))
      (fun regularHeaders c₃ h₃ => ?_) fun _ _ => failed
    exact wp_state.mpr (finish h₃ (.inr ⟨pseudoHeaders ++ regularHeaders, rfl⟩))
  · rintro _ _ rfl
    exact .undeclared _ _ (.inl rfl)

/-- `write_headers` encodes its block before it writes anything. -/
theorem writeHeaders_eq {startLine : StartLine Bytes} {headers : HTTPHeaders Bytes}
    {chunk : Bytes} {callback : Option Nat} :
    writeHeaders startLine headers chunk callback = resetOnError (do
      let c ← get
      emit (.issued c.self.streamId .writeHeaders)
      let data ← headerBlock startLine headers
      writeFrame ⟨.headers, FrameFlag.endHeaders.value, c.self.streamId, data⟩
      write chunk callback) := by
  simp only [writeHeaders, headerBlock, Prog.bind_assoc]

theorem writeHeaders_heads {startLine : StartLine Bytes} {headers : HTTPHeaders Bytes} {chunk : Bytes}
    {callback : Option Nat} :
    wp (writeHeaders startLine headers chunk callback)
      (fun _ c' => Heads c startLine headers chunk callback c')
      (fun _ c' => WritesHeaders c startLine headers chunk callback c') c := by
  rw [writeHeaders_eq]
  refine resetOnError_wp ?_
  have hblock : wp (headerBlock startLine headers)
      (fun data c₁ => (headerBlock startLine headers).run (c.issued .writeHeaders) = (.ok data, c₁) ∧
        Prepared (c.issued .writeHeaders) c₁)
      (fun _ c₁ => Prepared (c.issued .writeHeaders) c₁) (c.issued .writeHeaders) := by
    have hprepared : Prepared _ ((headerBlock startLine headers).run (c.issued .writeHeaders)).2 :=
      wp_state.mp headerBlock_wp
    rcases hrun : (headerBlock startLine headers).run (c.issued .writeHeaders) with ⟨e | data, c₁⟩ <;>
      rw [hrun] at hprepared
    · exact (wp_of_error hrun).mpr hprepared
    · exact (wp_of_ok hrun).mpr ⟨rfl, hprepared⟩
  have hwrite : wp (do
      let data ← headerBlock startLine headers
      writeFrame (c.headersFrame data)
      write chunk callback)
      (fun _ c' => Heads c startLine headers chunk callback c')
      (fun _ c₂ => ∀ c', Resets c₂ c' → WritesHeaders c startLine headers chunk callback c')
      (c.issued .writeHeaders) := by
    rw [wp_bind]
    refine wp_mono hblock (fun data c₁ ⟨hrun, hprepared⟩ => ?_) fun _ c₁ hprepared c' h =>
      .failed hprepared h
    simp only [wp_bind, writeFrame_wp]
    split
    · exact fun c' h => .failed hprepared h
    · split
      · exact fun c' h => .failed hprepared h
      · rename_i hclosed
        have hopen : c.conn.closed = false := by simpa [hprepared.closed, issued, logged] using hclosed
        exact wp_mono write_wp (fun _ c₂ h => .mk hrun hprepared hopen h)
          fun _ c₂ h c' hreset => .written (.mk hrun hprepared hopen h) hreset
  rw [wp_bind, wp_get, wp_bind, wp_emit]
  exact hwrite

theorem writeHeaders_wp {startLine : StartLine Bytes} {headers : HTTPHeaders Bytes} {chunk : Bytes}
    {callback : Option Nat} :
    wp (writeHeaders startLine headers chunk callback)
      (fun _ c' => WritesHeaders c startLine headers chunk callback c')
      (fun _ c' => WritesHeaders c startLine headers chunk callback c') c :=
  wp_mono writeHeaders_heads (fun _ _ h => .written h (.inl rfl)) fun _ _ h => h

end Stream

end TornadoHttp2
