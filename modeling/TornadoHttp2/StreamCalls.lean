import TornadoHttp2.BlockWriting
import TornadoHttp2.FrameSizes

/-! When `write_headers`, `write` and `finish` raise: their arguments and the
content length decide it, as long as the socket is open. -/

namespace TornadoHttp2

open Prog Ctx

theorem Slice.outgoing {c c' : Ctx} (h : Slice c c') :
    c'.self.outgoingContentRemaining = c.self.outgoingContentRemaining := by
  cases h with
  | failed _ hr => rcases hr with rfl | rfl <;> rfl
  | aborts _ hr => rcases hr with rfl | rfl <;> rfl
  | @finished callback => cases callback <;> rfl
  | _ => rfl

theorem Acquires.outgoing {c c' : Ctx} {job : Job} (h : Acquires c job c') :
    c'.self.outgoingContentRemaining = c.self.outgoingContentRemaining := by
  cases h with
  | granted _ hs => exact hs.outgoing
  | queued => rfl

namespace Stream

variable {c : Ctx} {chunk : Bytes} {callback : Option Nat} {startLine : StartLine Bytes} {headers : HTTPHeaders Bytes}

/-- What `write` asks of its chunk. -/
def Takes (remaining : Option Int) (chunk : Bytes) : Prop := chunk ≠ [] → ∀ n ∈ remaining, chunk.length ≤ n

theorem write_exact : wp (write chunk callback)
    (fun _ c' => Takes c.self.outgoingContentRemaining chunk ∧
      c'.self.outgoingContentRemaining = c.self.outgoingContentRemaining.map (· - (chunk.length : Int)))
    (fun _ _ => ¬ Takes c.self.outgoingContentRemaining chunk) c := by
  refine resetOnError_wp ?_
  simp only [wp_bind, wp_get, wp_when]
  refine ⟨fun hchunk => wp_mono countOutgoing_wp ?_ ?_, fun hchunk => ?_⟩
  · rintro _ _ ⟨rfl, hfits⟩
    rw [wp_bind, wp_emit]
    refine wp_mono writeChunk_wp (fun _ c' h => ⟨fun _ => hfits, ?_⟩) fun _ _ h => h
    rcases h with ⟨h, _⟩ | ⟨_, h⟩
    · exact absurd h hchunk
    · exact h.outgoing
  · rintro _ _ ⟨rfl, remaining, hremaining, hover⟩ _ _ htakes
    exact absurd (htakes hchunk remaining hremaining) (not_le.mpr hover)
  · obtain rfl := not_not.mp hchunk
    rw [wp_emit]
    refine wp_mono writeChunk_wp (fun _ c' h => ⟨fun hne => absurd rfl hne, ?_⟩) fun _ _ h => h
    rcases h with ⟨_, rfl⟩ | ⟨h, _⟩
    · cases callback <;> simp [calledBack, logged]
    · exact absurd rfl h

theorem finish_exact : wp finish
    (fun _ c' => (∀ n ∈ c.self.outgoingContentRemaining, n = 0) ∧
      c'.self.outgoingContentRemaining = c.self.outgoingContentRemaining)
    (fun _ _ => ¬ ∀ n ∈ c.self.outgoingContentRemaining, n = 0) c := by
  have hshort : c.self.outgoingContentRemaining.any (· ≠ 0) = true ↔
      ¬ ∀ n ∈ c.self.outgoingContentRemaining, n = 0 := by
    cases c.self.outgoingContentRemaining <;> simp
  refine resetOnError_wp ?_
  simp only [wp_bind, wp_get, wp_emit, wp_check]
  refine ⟨fun h _ _ => hshort.mp h, fun h => ?_⟩
  have hends := not_not.mp (hshort.not.mp h)
  exact wp_mono acquire_wp (fun _ _ h => ⟨hends, h.outgoing⟩) fun _ _ h => h

/-- Whether a response has no body; there is no answer without a request. -/
def bodiless (s : Stream) (startLine : StartLine Bytes) : Option Bool :=
  match startLine with
  | .request _ _ => none
  | .response code => s.requestStartLine.map fun request => decide (request.1 = some (ascii "HEAD") ∨ code = 304)

/-- The content length that counts after `write_headers`. -/
def declaredLength (s : Stream) (startLine : StartLine Bytes) (headers : HTTPHeaders Bytes) : Option Int :=
  if s.bodiless startLine = some true then some 0
  else if headers.contains (ascii "Content-Length") = true then
    (headers.optional.getInt (ascii "Content-Length")).toOption
  else s.outgoingContentRemaining

/-- What `write_headers` of a server asks of its arguments. -/
structure Answers (s : Stream) (startLine : StartLine Bytes) (headers : HTTPHeaders Bytes) : Prop where
  response : (s.bodiless startLine).isSome = true
  length : s.bodiless startLine = some false → headers.contains (ascii "Content-Length") = true →
    (headers.optional.getInt (ascii "Content-Length")).toOption.isSome = true

theorem encodeHeaders_ok (hsized : c.conn.hpackEncoder.table.Sized)
    (headerList : List (Bytes × Bytes × HeaderIndexMode))
    {E : PyException → Ctx → Prop} : wp (encodeHeaders headerList) (fun _ c' => c'.self = c.self) E c := by
  obtain ⟨decoder, hdecoder⟩ : ∃ decoder : HpackDecoder, c.conn.hpackEncoder.table = decoder.table := ⟨⟨_⟩, rfl⟩
  obtain ⟨block, table, -, -, hencode, -⟩ :=
    decode_encode_block inStep_eq hsized hdecoder huffmanTree_complete headerList
  rw [encodeHeaders, onConn, wp_zoom, wp_zoom]
  exact (wp_of_ok hencode).mpr rfl

/-- The content length is set before anything else can fail. -/
theorem setOutgoingContent_exact (hserver : c.conn.isClient = false) {code : Int} :
    wp (setOutgoingContent (.response code) headers)
      (fun _ c' => ((c.self.bodiless (.response code)).isSome = true ∧
          (c.self.bodiless (.response code) = some false → headers.contains (ascii "Content-Length") = true →
            (headers.optional.getInt (ascii "Content-Length")).toOption.isSome = true)) ∧
        c'.self.outgoingContentRemaining = c.self.declaredLength (.response code) headers ∧
        c'.conn.isClient = false ∧ c'.conn.hpackEncoder = c.conn.hpackEncoder)
      (fun _ _ => ¬ Answers c.self (.response code) headers) c := by
  rw [setOutgoingContent, wp_bind]
  rcases hstart : c.self.requestStartLine with _ | ⟨method, path⟩
  · have hnone : c.self.bodiless (.response code) = none := congrArg (Option.map _) hstart
    have hraises : (isBodiless (.response code)).run c = (.error .attributeError, c) := by
      rw [isBodiless, run_get_bind, hserver, hstart]
      rfl
    refine (wp_of_error hraises).mpr fun h => ?_
    exact absurd h.response (by rw [hnone]; exact Bool.false_ne_true)
  · have hsome : c.self.bodiless (.response code) = some (decide (method = some (ascii "HEAD") ∨ code = 304)) :=
      congrArg (Option.map _) hstart
    refine (wp_of_ok (isBodiless_run hserver hstart)).mpr ?_
    rw [hsome, declaredLength, hsome]
    by_cases hbodiless : method = some (ascii "HEAD") ∨ code = 304
    · simp only [hbodiless, decide_true, if_true]
      exact ⟨⟨rfl, fun h => absurd h (by simp)⟩, rfl, hserver, rfl⟩
    · simp only [hbodiless, decide_false, Bool.false_eq_true, if_false, Option.some.injEq, wp_ite]
      refine ⟨fun hcontains => ?_, fun hcontains => ?_⟩
      · rcases hlength : headers.optional.getInt (ascii "Content-Length") with e | n
        · intro h
          have hok := h.length (by rw [hsome, decide_eq_false hbodiless]) hcontains
          rw [hlength] at hok
          exact Bool.false_ne_true hok
        · rw [if_pos hcontains]
          exact ⟨⟨rfl, fun _ _ => rfl⟩, rfl, hserver, rfl⟩
      · rw [if_neg hcontains]
        exact ⟨⟨rfl, fun _ h => absurd h hcontains⟩, rfl, hserver, rfl⟩

theorem headerBlock_exact (hserver : c.conn.isClient = false) (hsized : c.conn.hpackEncoder.table.Sized) :
    wp (headerBlock startLine headers)
      (fun _ c' => Answers c.self startLine headers ∧
        c'.self.outgoingContentRemaining = c.self.declaredLength startLine headers)
      (fun _ _ => ¬ Answers c.self startLine headers) c := by
  rw [headerBlock, wp_bind]
  cases startLine with
  | request method path =>
    have hrefused : ¬ Answers c.self (.request method path) headers := fun h => absurd h.response Bool.false_ne_true
    refine wp_mono setOutgoingContent_wp (fun _ c₁ h₁ => ?_) fun _ _ _ => hrefused
    have hserver₁ : c₁.conn.isClient = false := by rcases h₁ with rfl | ⟨_, rfl⟩ <;> exact hserver
    rw [wp_bind, pseudoHeaderList, wp_bind, wp_get, hserver₁]
    exact hrefused
  | response code =>
    refine wp_mono (setOutgoingContent_exact hserver) ?_ fun _ _ h => h
    rintro _ c₁ ⟨⟨hresponse, hlength⟩, hdeclared, hserver₁, hencoder⟩
    rw [wp_bind, pseudoHeaderList, wp_bind, wp_get, hserver₁]
    dsimp only
    rw [wp_pure, wp_bind, regularHeaderList, wp_bind, wp_get, wp_pure]
    refine wp_mono (encodeHeaders_ok (hencoder ▸ hsized) _) (fun _ c₂ hself => ?_) fun _ _ h => h
    exact ⟨⟨hresponse, hlength⟩, hself ▸ hdeclared⟩

/-- What becomes of `write_headers` is decided by its arguments. -/
theorem writeHeaders_exact (hserver : c.conn.isClient = false) (hsized : c.conn.hpackEncoder.table.Sized)
    (hopen : c.conn.closed = false) (hid : c.self.streamId < 2 ^ 31) :
    wp (writeHeaders startLine headers chunk callback)
      (fun _ c' => (Answers c.self startLine headers ∧ headerBlockLength c startLine headers < 2 ^ 31 ∧
          Takes (c.self.declaredLength startLine headers) chunk) ∧
        c'.self.outgoingContentRemaining =
          (c.self.declaredLength startLine headers).map (· - (chunk.length : Int)))
      (fun _ _ => ¬ (Answers c.self startLine headers ∧ headerBlockLength c startLine headers < 2 ^ 31 ∧
        Takes (c.self.declaredLength startLine headers) chunk)) c := by
  rw [writeHeaders_eq]
  refine resetOnError_wp ?_
  rw [wp_bind, wp_get, wp_bind, wp_emit, wp_bind]
  have hblock := @headerBlock_exact (c.issued .writeHeaders) startLine headers hserver hsized
  have hprepared : Prepared (c.issued .writeHeaders) ((headerBlock startLine headers).run (c.issued .writeHeaders)).2 :=
    wp_state.mp headerBlock_wp
  rcases hrun : (headerBlock startLine headers).run (c.issued .writeHeaders) with ⟨e | data, c₁⟩
  · refine (wp_of_error hrun).mpr fun _ _ h => ?_
    exact (wp_of_error hrun).mp hblock h.1
  · obtain ⟨hanswers, hlength⟩ := (wp_of_ok hrun).mp hblock
    rw [hrun] at hprepared
    have hdata : headerBlockLength c startLine headers = data.length := by rw [headerBlockLength, hrun]
    have hclosed : ¬ c₁.conn.closed = true := by
      rw [hprepared.closed]
      exact fun h => Bool.false_ne_true (hopen.symm.trans h)
    refine (wp_of_ok hrun).mpr ?_
    rw [wp_bind, writeFrame_wp, if_neg hclosed, hdata]
    split
    · rename_i hlong
      intro _ _ h
      rcases hlong with hlong | hlong
      · exact absurd h.2.1 (not_lt.mpr hlong)
      · exact absurd hid (not_lt.mpr hlong)
    · rename_i hshort
      have hshort : data.length < 2 ^ 31 := not_le.mp fun hlong => hshort (.inl hlong)
      refine wp_mono write_exact (fun _ c' h => ?_) fun _ _ h _ _ htakes => ?_
      · exact ⟨⟨hanswers, hshort, hlength ▸ h.1⟩, hlength ▸ h.2⟩
      · exact h (hlength ▸ htakes.2.2)

end Stream

end TornadoHttp2
