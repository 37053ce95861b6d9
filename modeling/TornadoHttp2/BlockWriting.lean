import TornadoHttp2.WrittenFields

/-! What `write_headers` does on an open socket with a message that the peer can
be told of, if there is no first chunk: one HEADERS frame, and then at most
RST_STREAM. -/

namespace TornadoHttp2

open Prog Ctx

/-- A block of these fields, which takes the table of a decoder from `t` to `t'`. -/
def Carries (t : DynamicTable) (data : Bytes) (fields : List Field) (t' : DynamicTable) : Prop :=
  ∀ tree : HuffmanTree, tree.Complete → ∃ decoded,
    (⟨t⟩ : HpackDecoder).decode tree data = (.ok decoded, ⟨t'⟩, tree) ∧ Stream.Lists decoded fields

def Event.frame : Event → Option Frame
  | wrote frame => some frame
  | _ => none

/-- The frames that were written, in order. -/
def framesOf (log : List Event) : List Frame := log.filterMap Event.frame

theorem framesOf_append (log log' : List Event) : framesOf (log ++ log') = framesOf log ++ framesOf log' :=
  List.filterMap_append ..

/-- Nothing but RST_STREAM is written, and nothing encoded. -/
structure Ctx.Aborts (c c' : Ctx) : Prop where
  streamId : c'.self.streamId = c.self.streamId
  encoder : c'.conn.hpackEncoder = c.conn.hpackEncoder
  requestStartLine : c'.self.requestStartLine = c.self.requestStartLine
  log : Grows (fun e => ∀ f, e = .wrote f → f = c.resetFrame) c.conn.log c'.conn.log

namespace Ctx.Aborts

variable {c c' c'' : Ctx}

theorem refl : Aborts c c := ⟨rfl, rfl, rfl, .refl⟩

theorem trans (h : Aborts c c') (h' : Aborts c' c'') : Aborts c c'' where
  streamId := h'.streamId.trans h.streamId
  encoder := h'.encoder.trans h.encoder
  requestStartLine := h'.requestStartLine.trans h.requestStartLine
  log := h.log.trans (h'.log.mono fun e he f hf => by rw [he f hf, resetFrame, h.streamId, resetFrame])

theorem logged {e : Event} (he : ∀ f, e ≠ .wrote f) : Aborts c (c.logged e) :=
  ⟨rfl, rfl, rfl, .snoc fun f hf => absurd hf (he f)⟩

theorem resets (h : Resets c c') : Aborts c c' := by
  rcases h with rfl | rfl
  · exact refl
  · exact ⟨rfl, rfl, rfl, .snoc fun f hf => by cases hf; rfl⟩

theorem calledBack (callback : Option Nat) : Aborts c (c.calledBack callback) := by
  cases callback with
  | none => exact refl
  | some token => exact logged fun _ h => by cases h

theorem writes {callback : Option Nat} (h : Writes c [] callback c') : Aborts c c' := by
  cases h with
  | rejected hchunk => exact absurd rfl hchunk
  | empty => exact (logged fun _ h => by cases h).trans (calledBack callback)
  | accepted hchunk => exact absurd rfl hchunk

end Ctx.Aborts

namespace Stream

variable {c : Ctx} {startLine : StartLine Bytes} {headers : HTTPHeaders Bytes}

/-- A response needs the request that it answers. -/
def CanSend (c : Ctx) : Prop := c.conn.isClient = true ∨ c.self.requestStartLine.isSome = true

theorem isBodiless_ok (h : Sendable c.conn.isClient startLine headers) (hcan : CanSend c) :
    ∃ bodiless, (isBodiless startLine).run c = (.ok bodiless, c) := by
  unfold isBodiless
  rw [run_get_bind]
  cases hclient : c.conn.isClient with
  | true => exact ⟨false, rfl⟩
  | false =>
    have hline := h.line
    obtain ⟨⟨method, path⟩, hstart⟩ := Option.isSome_iff_exists.mp (hcan.resolve_left (by simp [hclient]))
    cases startLine with
    | request => rw [hclient] at hline; exact absurd hline.1 Bool.false_ne_true
    | response code =>
      simp only [hstart, Bool.false_eq_true, if_false]
      split
      · exact ⟨true, rfl⟩
      · exact ⟨decide (code = 304), rfl⟩

theorem getInt_ok {isClient : Bool} (h : Sendable isClient startLine headers)
    (hcontains : headers.contains (ascii "Content-Length") = true) :
    ∃ n, headers.optional.getInt (ascii "Content-Length") = .ok n := by
  have hlength := h.length
  have hsame : headers.values (ascii "content-length") = headers.values (ascii "Content-Length") :=
    congrArg (fun name => headers.asList.lookup name)
      (by decide : normalized (ascii "content-length") = normalized (ascii "Content-Length"))
  rw [hsame] at hlength
  rw [HTTPHeaders.contains] at hcontains
  rcases hlength with hnone | ⟨v, hvalue, hne, hdigits⟩
  · rw [hnone] at hcontains
    cases hcontains
  · obtain ⟨n, hn⟩ := int_of_digits hne hdigits
    refine ⟨n, ?_⟩
    simp only [HTTPHeaders.getInt, HTTPHeaders.get, HTTPHeaders.optional_values, hvalue]
    exact hn

theorem setOutgoingContent_ok (h : Sendable c.conn.isClient startLine headers) (hcan : CanSend c) :
    ∃ c', (setOutgoingContent startLine headers).run c = (.ok (), c') := by
  obtain ⟨bodiless, hbodiless⟩ := isBodiless_ok h hcan
  rw [setOutgoingContent, bind_ok hbodiless]
  split
  · exact ⟨_, rfl⟩
  · split
    · obtain ⟨n, hn⟩ := getInt_ok h ‹_›
      rw [hn]
      exact ⟨_, rfl⟩
    · exact ⟨c, rfl⟩

theorem pseudoHeaderList_ok (h : Sendable c.conn.isClient startLine headers) (hcan : CanSend c) :
    ∃ list c', (pseudoHeaderList startLine).run c = (.ok list, c') ∧ c'.self.requestStartLine.isSome = true := by
  have hline := h.line
  rw [pseudoHeaderList, run_get_bind]
  cases startLine with
  | request method path =>
    rw [hline.1]
    exact ⟨_, _, rfl, rfl⟩
  | response code =>
    have hserver : c.conn.isClient = false := hline
    have hstarted := hcan.resolve_left (by simp [hserver])
    rw [hserver]
    exact ⟨_, c, rfl, hstarted⟩

theorem headerBlock_ok (h : Sendable c.conn.isClient startLine headers) (hcan : CanSend c)
    (hsized : c.conn.hpackEncoder.table.Sized) : ∃ data c', (headerBlock startLine headers).run c = (.ok data, c') ∧
      c'.self.requestStartLine.isSome = true := by
  obtain ⟨c₁, h₁⟩ := setOutgoingContent_ok h hcan
  obtain ⟨hclient, hencoder, hcan₁⟩ :
      c₁.conn.isClient = c.conn.isClient ∧ c₁.conn.hpackEncoder = c.conn.hpackEncoder ∧ CanSend c₁ := by
    rcases (wp_of_ok h₁).mp setOutgoingContent_wp with rfl | ⟨length, rfl⟩ <;> exact ⟨rfl, rfl, hcan⟩
  obtain ⟨pseudo, c₂, h₂, hstart⟩ := pseudoHeaderList_ok (hclient.symm ▸ h) hcan₁
  obtain ⟨hconn, -, -⟩ := (wp_of_ok h₂).mp pseudoHeaderList_wp
  let regular := regularHeaders c₂.conn.params.unicode headers.getAll
  have h₃ : (regularHeaderList headers.getAll).run c₂ = (.ok regular, c₂) := rfl
  have hsized₂ : c₂.conn.hpackEncoder.table.Sized := by rwa [hconn, hencoder]
  obtain ⟨decoder, hdecoder⟩ : ∃ decoder : HpackDecoder, c₂.conn.hpackEncoder.table = decoder.table := ⟨⟨_⟩, rfl⟩
  obtain ⟨block, table, -, -, hencode, -⟩ :=
    decode_encode_block inStep_eq hsized₂ hdecoder huffmanTree_complete (pseudo ++ regular)
  refine ⟨block, ⟨{ c₂.conn with hpackEncoder := { c₂.conn.hpackEncoder with table } }, c₂.self⟩, ?_, hstart⟩
  rw [headerBlock, bind_ok h₁, bind_ok h₂, bind_ok h₃, encodeHeaders, onConn, run_zoom, run_zoom, hencode]

/-- The block of a message takes the peer's table where it takes the encoder's. -/
theorem headerBlock_carries (h : Sendable c.conn.isClient startLine headers) (hcan : CanSend c)
    (hsized : c.conn.hpackEncoder.table.Sized) : ∃ data c', (headerBlock startLine headers).run c = (.ok data, c') ∧
      Prepared c c' ∧ c'.self.requestStartLine.isSome = true ∧
      Carries c.conn.hpackEncoder.table data (sentFields startLine headers) c'.conn.hpackEncoder.table ∧
      c'.conn.hpackEncoder.table.Sized := by
  obtain ⟨data, c', hrun, hstart⟩ := headerBlock_ok h hcan hsized
  have hprepared : Prepared c c' := (wp_of_ok hrun).mp headerBlock_wp
  obtain ⟨-, headerList, enc, hlist, hencode, conn, -, hconn⟩ := (wp_of_ok hrun).mp (headerBlock_encodes rfl hsized)
  have hdecoder : c.conn.hpackEncoder.table = (HpackDecoder.mk c.conn.hpackEncoder.table).table := rfl
  refine ⟨data, c', hrun, hprepared, hstart, fun tree htree => ?_, ?_⟩
  · obtain ⟨block, table, u, decoded, hrun', hdecode, hmap, -, rfl⟩ :=
      decode_encode_block inStep_eq hsized hdecoder htree headerList
    rw [hencode] at hrun'
    cases hrun'
    refine ⟨decoded, ?_, ?_⟩
    · rw [hconn]
      exact hdecode
    · rw [Lists, hmap, hlist, h.writtenHeaders_eq]
  · obtain ⟨block, table, u, decoded, hrun', -, -, htable, -⟩ :=
      decode_encode_block inStep_eq hsized hdecoder huffmanTree_complete headerList
    rw [hencode] at hrun'
    cases hrun'
    rw [hconn]
    exact htable

end Stream

/-- One HEADERS frame has been written, and maybe RST_STREAM after it. -/
structure Ctx.Sends (c : Ctx) (startLine : StartLine Bytes) (headers : HTTPHeaders Bytes) (c' : Ctx) : Prop where
  streamId : c'.self.streamId = c.self.streamId
  block : ∃ data, data.length = Stream.headerBlockLength c startLine headers ∧
    Carries c.conn.hpackEncoder.table data (sentFields startLine headers) c'.conn.hpackEncoder.table ∧
    ∃ es resets, c'.conn.log = c.conn.log ++ es ∧ framesOf es = c.headersFrame data :: resets ∧
      ∀ f ∈ resets, f = c.resetFrame
  sized : c'.conn.hpackEncoder.table.Sized
  requestStartLine : c'.self.requestStartLine.isSome = true

theorem Ctx.Aborts.frames {c c' : Ctx} (h : c.Aborts c') :
    ∃ es, c'.conn.log = c.conn.log ++ es ∧ ∀ f ∈ framesOf es, f = c.resetFrame := by
  obtain ⟨es, hlog, hes⟩ := h.log
  refine ⟨es, hlog, fun f hf => ?_⟩
  obtain ⟨e, he, hframe⟩ := List.mem_filterMap.mp hf
  cases e with
  | wrote frame =>
    cases hframe
    exact hes _ he _ rfl
  | _ => cases hframe

theorem Ctx.Sends.aborts {c c' c'' : Ctx} {startLine : StartLine Bytes} {headers : HTTPHeaders Bytes}
    (h : c.Sends startLine headers c') (ha : c'.Aborts c'') : c.Sends startLine headers c'' := by
  obtain ⟨data, hdata, hcarries, es, resets, hlog, hframes, hresets⟩ := h.block
  obtain ⟨es', hlog', hresets'⟩ := ha.frames
  refine ⟨ha.streamId.trans h.streamId,
    ⟨data, hdata, ha.encoder ▸ hcarries, es ++ es', resets ++ framesOf es', ?_, ?_, ?_⟩,
    ha.encoder ▸ h.sized, ha.requestStartLine ▸ h.requestStartLine⟩
  · rw [hlog', hlog, List.append_assoc]
  · rw [framesOf_append, hframes]
    rfl
  · refine List.forall_mem_append.mpr ⟨hresets, fun f hf => ?_⟩
    rw [hresets' f hf, resetFrame, h.streamId, resetFrame]

theorem Prepared.frames {c c' : Ctx} (h : Prepared c c') :
    ∃ es, c'.conn.log = c.conn.log ++ es ∧ framesOf es = [] := by
  cases h with
  | undeclared => exact ⟨[], (List.append_nil _).symm, rfl⟩
  | declared length => exact ⟨[.declared c.self.streamId length], rfl, rfl⟩

namespace Stream

variable {c : Ctx} {startLine : StartLine Bytes} {headers : HTTPHeaders Bytes} {callback : Option Nat}

theorem resetOnError_aborts {m : OnStream Unit} {P : Ctx → Prop} {c : Ctx}
    (hP : ∀ c' c'', P c' → c'.Aborts c'' → P c'') (h : wp m (fun _ c' => P c') (fun _ c' => P c') c) :
    P ((resetOnError m).run c).2 :=
  wp_state.mp (resetOnError_wp (wp_mono h (fun _ _ hc => hc) fun _ c₁ hc c' hreset => hP c₁ c' hc (.resets hreset)))

theorem writeHeaders_block (h : Sendable c.conn.isClient startLine headers) (hcan : CanSend c)
    (hsized : c.conn.hpackEncoder.table.Sized) (hopen : c.conn.closed = false) (hid : c.self.streamId < 2 ^ 31)
    (hlength : headerBlockLength c startLine headers < 2 ^ 31) :
    c.Sends startLine headers ((writeHeaders startLine headers [] callback).run c).2 := by
  obtain ⟨data, c₁, hblock, hprepared, hstart, hcarries, hsized'⟩ :=
    headerBlock_carries (c := c.issued .writeHeaders) h hcan hsized
  have hdata : data.length = headerBlockLength c startLine headers := by rw [headerBlockLength, hblock]
  have hclosed : c₁.conn.closed = false := hprepared.closed.trans hopen
  obtain ⟨es, hes, hframes⟩ := hprepared.frames
  rw [writeHeaders_eq]
  have hsent : Ctx.Sends c startLine headers (c₁.logged (.wrote (c.headersFrame data))) := by
    refine ⟨hprepared.self.1, ⟨data, hdata, hcarries,
      .issued c.self.streamId .writeHeaders :: es ++ [.wrote (c.headersFrame data)], [], ?_, ?_, by simp⟩,
      hsized', hstart⟩
    · simp [logged, hes, issued]
    · rw [framesOf_append]
      exact congrArg (· ++ [c.headersFrame data]) hframes
  refine resetOnError_aborts (fun _ _ => Sends.aborts) ?_
  have hwritten : (writeFrame (c.headersFrame data)).run c₁ = (.ok (), c₁.logged (.wrote (c.headersFrame data))) :=
    writeFrame_run (hdata ▸ hlength) hid hclosed
  rw [wp_bind, wp_get, wp_bind, wp_emit, wp_bind]
  refine (wp_of_ok hblock).mpr ?_
  rw [wp_bind]
  refine (wp_of_ok hwritten).mpr (wp_mono write_wp (fun _ c' hc' => ?_) fun _ c' hc' => ?_)
  · exact hsent.aborts (.writes hc')
  · exact hsent.aborts (.writes hc')

end Stream

end TornadoHttp2
