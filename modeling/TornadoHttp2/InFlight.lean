import TornadoHttp2.BlockReceipt
import TornadoHttp2.Wire

/-! What is on its way to one end of a connection: SETTINGS, header blocks that
carry messages, and RST_STREAM frames for streams that the end knows by then. -/

namespace TornadoHttp2

/-- A call of `write_headers`. -/
abbrev Message := Nat × StartLine Bytes × HTTPHeaders Bytes

/-- Frames for an end that knows the streams `known`, the messages that they
carry, and what reading them makes of its HPACK table. -/
inductive Underway (toClient : Bool) (maxHeaderSize : Nat) :
    (Nat → Prop) → DynamicTable → List Frame → List Message → DynamicTable → Prop
  | nil {known : Nat → Prop} {t : DynamicTable} : Underway toClient maxHeaderSize known t [] [] t
  | settings {known : Nat → Prop} {t t' : DynamicTable} {frames : List Frame} {ms : List Message}
      (h : Underway toClient maxHeaderSize known t frames ms t') :
    Underway toClient maxHeaderSize known t (settingsFrame (!toClient) :: frames) ms t'
  | ack {known : Nat → Prop} {t t' : DynamicTable} {frames : List Frame} {ms : List Message}
      (h : Underway toClient maxHeaderSize known t frames ms t') :
    Underway toClient maxHeaderSize known t (settingsAckFrame :: frames) ms t'
  | reset {known : Nat → Prop} {t t' : DynamicTable} {frames : List Frame} {ms : List Message} {i : Nat} {data : Bytes}
      (hknown : known i) (hi : i < 2 ^ 31) (hdata : data.length = 4)
      (h : Underway toClient maxHeaderSize known t frames ms t') :
    Underway toClient maxHeaderSize known t (⟨.rstStream, 0, i, data⟩ :: frames) ms t'
  | block {known : Nat → Prop} {t t₁ t' : DynamicTable} {frames : List Frame} {ms : List Message} {i : Nat}
      {startLine : StartLine Bytes} {headers : HTTPHeaders Bytes}
        {data : Bytes} (hsend : Sendable (!toClient) startLine headers)
      (hcarries : Carries t data (sentFields startLine headers) t₁) (hsize : data.length ≤ Setting.maxFrameSize.default)
      (hlimit : data.length ≤ maxHeaderSize) (hi : i < 2 ^ 31) (hodd : i % 2 = 1) (hknown : toClient = true → known i)
      (h : Underway toClient maxHeaderSize (fun j => j = i ∨ known j) t₁ frames ms t') :
    Underway toClient maxHeaderSize known t (Stream.blockFrame i data :: frames) ((i, startLine, headers) :: ms) t'

namespace Underway

variable {toClient : Bool} {maxHeaderSize : Nat} {known known' : Nat → Prop} {t t' t'' : DynamicTable}
  {frames frames' : List Frame} {ms ms' : List Message}

theorem mono (h : Underway toClient maxHeaderSize known t frames ms t') (hknown : ∀ i, known i → known' i) :
    Underway toClient maxHeaderSize known' t frames ms t' := by
  induction h generalizing known' with
  | nil => exact .nil
  | settings _ ih => exact .settings (ih hknown)
  | ack _ ih => exact .ack (ih hknown)
  | reset hi hlt hdata _ ih => exact .reset (hknown _ hi) hlt hdata (ih hknown)
  | block hsend hcarries hsize hlimit hi hodd hk _ ih =>
    exact .block hsend hcarries hsize hlimit hi hodd (fun hc => hknown _ (hk hc))
      (ih fun j hj => hj.imp id (hknown j))

/-- By the time the later frames arrive the end knows the streams of the earlier ones. -/
theorem append (h : Underway toClient maxHeaderSize known t frames ms t')
    (h' : Underway toClient maxHeaderSize (fun j => known j ∨ j ∈ ms.map (·.1)) t' frames' ms' t'') :
    Underway toClient maxHeaderSize known t (frames ++ frames') (ms ++ ms') t'' := by
  induction h with
  | nil => exact h'.mono fun j hj => hj.resolve_right (by simp)
  | settings _ ih => exact .settings (ih h')
  | ack _ ih => exact .ack (ih h')
  | reset hi hlt hdata _ ih => exact .reset hi hlt hdata (ih h')
  | block hsend hcarries hsize hlimit hi hodd hk _ ih =>
    refine .block hsend hcarries hsize hlimit hi hodd hk (ih (h'.mono fun j hj => ?_))
    rw [List.map_cons, List.mem_cons] at hj
    tauto

/-- Acknowledgements and resets. -/
theorem answers (h : ∀ f ∈ frames, f = settingsAckFrame ∨ ∃ i data, known i ∧ i < 2 ^ 31 ∧ data.length = 4 ∧
    f = ⟨.rstStream, 0, i, data⟩) : Underway toClient maxHeaderSize known t frames [] t := by
  induction frames with
  | nil => exact .nil
  | cons f frames ih =>
    rw [List.forall_mem_cons] at h
    rcases h.1 with rfl | ⟨i, data, hi, hlt, hdata, rfl⟩
    · exact .ack (ih h.2)
    · exact .reset hi hlt hdata (ih h.2)

theorem framed (h : Underway toClient maxHeaderSize known t frames ms t') : ∀ f ∈ frames, f.Framed := by
  induction h with
  | nil => simp
  | settings _ ih =>
    have hframed : (settingsFrame (!toClient)).Framed := by
      cases toClient <;> exact ⟨rfl, by decide, by decide, by decide⟩
    exact List.forall_mem_cons.mpr ⟨hframed, ih⟩
  | ack _ ih => exact List.forall_mem_cons.mpr ⟨⟨rfl, by decide, by decide, by decide⟩, ih⟩
  | reset _ hlt hdata _ ih =>
    exact List.forall_mem_cons.mpr ⟨⟨rfl, by simp [FrameType.value], by simp [hdata], hlt⟩, ih⟩
  | block _ _ hsize _ hi _ _ _ ih =>
    have hlength : Setting.maxFrameSize.default < 2 ^ 24 := by decide
    exact List.forall_mem_cons.mpr ⟨⟨rfl, by simp [Stream.blockFrame, FrameType.value], hsize.trans_lt hlength, hi⟩, ih⟩

end Underway

/-- The bytes on their way to `s`, the messages in them, and its HPACK table
when all of them have been read. -/
def Flows (toClient : Bool) (s : System) (bytes : Bytes) (ms : List Message) (table : DynamicTable) : Prop :=
  ∃ frames, bytes = frames.flatMap Frame.encoded ∧
    Underway toClient s.conn.params.maxHeaderSize s.Knows s.conn.hpackDecoder.table frames ms table

/-- The end has taken the first of these frames. -/
structure Takes (s : System) (toClient : Bool) (frame : Frame) (ms : List Message) (s' : System) : Prop where
  ready : s'.Ready toClient
  params : s'.conn.params = s.conn.params
  encoder : s'.conn.hpackEncoder.table = s.conn.hpackEncoder.table
  log : ∃ es, s'.conn.log = s.conn.log ++ es ∧ ∀ f ∈ framesOf es, f = settingsAckFrame ∨
    ∃ m ∈ ms.head?, m.1 < 2 ^ 31 ∧ f = rstStreamFrame m.1 .protocolError
  knows {i : Nat} : s.Knows i → s'.Knows i
  learns {i : Nat} : s'.Knows i → s.Knows i ∨ ∃ m ∈ ms.head?, m.1 = i
  told : frame.type = .headers → ∃ startLine headers, ms.head? = some (frame.streamId, startLine, headers) ∧
    ((∀ self, s.streams frame.streamId = some self → self.phase = .headers) →
      messages s'.conn.log = messages s.conn.log ++
      [(frame.streamId, startLine.optional, headers.withoutConnection.optional)])

namespace Flows

variable {toClient : Bool} {s s' : System} {bytes : Bytes} {ms ms' : List Message} {t t' : DynamicTable}

theorem grow (h : Flows toClient s bytes ms t) (hparams : s'.conn.params = s.conn.params)
    (hdecoder : s'.conn.hpackDecoder = s.conn.hpackDecoder) (hknows : ∀ i, s.Knows i → s'.Knows i) :
    Flows toClient s' bytes ms t := by
  obtain ⟨frames, hbytes, hway⟩ := h
  refine ⟨frames, hbytes, ?_⟩
  rw [hparams, hdecoder]
  exact hway.mono hknows

theorem send (h : Flows toClient s bytes ms t) {frames : List Frame}
    (hway : Underway toClient s.conn.params.maxHeaderSize (fun j => s.Knows j ∨ j ∈ ms.map (·.1)) t frames ms' t') :
    Flows toClient s (bytes ++ frames.flatMap Frame.encoded) (ms ++ ms') t' := by
  obtain ⟨sent, rfl, hsent⟩ := h
  exact ⟨sent ++ frames, List.flatMap_append.symm, hsent.append hway⟩

theorem took {frame : Frame} {later : Bool} {table : DynamicTable} {frames answers : List Frame}
    (h : s.Took toClient table answers (s.step (.receive frame later)))
    (hway : Underway toClient s.conn.params.maxHeaderSize (s.step (.receive frame later)).Knows table frames ms' t) :
    Flows toClient (s.step (.receive frame later)) (frames.flatMap Frame.encoded) ms' t :=
  ⟨frames, rfl, by rw [h.params, h.decoder]; exact hway⟩

theorem learns {frame : Frame} {later : Bool} {i : Nat} (h' : (s.step (.receive frame later)).Ready toClient)
    (hknows : (s.step (.receive frame later)).Knows i) : s.Knows i ∨ i = frame.streamId ∧ i ≠ 0 := by
  obtain ⟨self, hself, hstart⟩ := hknows
  by_cases hi : i = frame.streamId
  · refine .inr ⟨hi, fun hzero => ?_⟩
    rw [hzero, h'.wellFormed.zero] at hself
    cases hself
  · rw [System.step_receive_of_ne hi] at hself
    exact .inl ⟨self, hself, hstart⟩

/-- No frame is left incomplete. -/
theorem unread_nil (hf : Flows toClient s bytes ms t) (hread : Frame.read bytes = none) : ms = [] := by
  obtain ⟨frames, rfl, hway⟩ := hf
  have hframed := hway.framed
  cases frames with
  | nil =>
    cases hway
    rfl
  | cons f fs =>
    rw [List.flatMap_cons, Frame.read_encoded (hframed f (.head _))] at hread
    cases hread

/-- What an end does with the next frame. -/
theorem take (h : s.Ready toClient) (hf : Flows toClient s bytes ms t) {frame : Frame} {rest : Bytes}
    (hread : Frame.read bytes = some (frame, rest)) (later : Bool) :
    Takes s toClient frame ms (s.step (.receive frame later)) ∧
      Flows toClient (s.step (.receive frame later)) rest (if frame.type = .headers then ms.tail else ms) t := by
  obtain ⟨frames, rfl, hway⟩ := hf
  have hframed := hway.framed
  have hnext {f : Frame} {fs : List Frame} (hframes : frames = f :: fs) : f = frame ∧
      fs.flatMap Frame.encoded = rest := by
    rw [hframes, List.flatMap_cons, Frame.read_encoded (hframed f (hframes ▸ .head _))] at hread
    exact Prod.mk.inj (Option.some.inj hread)
  cases hway with
  | nil => cases hread
  | settings hway =>
    obtain ⟨rfl, rfl⟩ := hnext rfl
    have htook := h.take_settings (!toClient) later
    obtain ⟨es, hes, hanswers⟩ := htook.log
    refine ⟨⟨htook.ready, htook.params, htook.encoder, ⟨es, hes, fun f hf => ?_⟩, htook.knows, fun hknows => ?_,
      fun htype => by cases htype⟩, took htook (hway.mono fun _ => htook.knows)⟩
    · rw [hanswers] at hf
      exact .inl (List.mem_singleton.mp hf)
    · exact (learns htook.ready hknows).imp id fun hi => absurd hi.1 hi.2
  | ack hway =>
    obtain ⟨rfl, rfl⟩ := hnext rfl
    have htook := h.take_ack later
    obtain ⟨es, hes, hanswers⟩ := htook.log
    refine ⟨⟨htook.ready, htook.params, htook.encoder, ⟨es, hes, fun f hf => ?_⟩, htook.knows, fun hknows => ?_,
      fun htype => by cases htype⟩, took htook (hway.mono fun _ => htook.knows)⟩
    · rw [hanswers] at hf
      cases hf
    · exact (learns htook.ready hknows).imp id fun hi => absurd hi.1 hi.2
  | reset hi hlt hdata hway =>
    obtain ⟨rfl, rfl⟩ := hnext rfl
    have htook := h.take_reset hi hdata later
    obtain ⟨es, hes, hanswers⟩ := htook.log
    refine ⟨⟨htook.ready, htook.params, htook.encoder, ⟨es, hes, fun f hf => ?_⟩, htook.knows, fun hknows => ?_,
      fun htype => by cases htype⟩, took htook (hway.mono fun _ => htook.knows)⟩
    · rw [hanswers] at hf
      cases hf
    · rcases learns htook.ready hknows with hknows | ⟨rfl, -⟩
      · exact .inl hknows
      · exact .inl hi
  | @block _ _ _ _ _ _ i startLine headers data hsend hcarries hsize hlimit hi hodd hk hway =>
    obtain ⟨rfl, rfl⟩ := hnext rfl
    obtain ⟨answers, htook, hknown, hanswers, htold⟩ := h.take_block hsend hcarries hsize hlimit hi hk hodd later
    obtain ⟨es, hes, hframes⟩ := htook.log
    refine ⟨⟨htook.ready, htook.params, htook.encoder, ⟨es, hes, fun f hf => ?_⟩, htook.knows, fun hknows => ?_,
      fun _ => ⟨startLine, headers, rfl, htold⟩⟩, took htook (hway.mono fun j hj => ?_)⟩
    · rw [hframes] at hf
      rcases hanswers with rfl | rfl
      · cases hf
      · exact .inr ⟨_, rfl, hi, List.mem_singleton.mp hf⟩
    · exact (learns htook.ready hknows).imp id fun hj => ⟨_, rfl, hj.1.symm⟩
    · rcases hj with rfl | hj
      · exact hknown
      · exact htook.knows hj

end Flows

/-- The message that the HEADERS frames among these carry. -/
def carried (m : Message) (frames : List Frame) : List Message :=
  (frames.filter fun f => f.type = .headers).map fun _ => m

theorem carried_resets {m : Message} {frame : Frame} (htype : frame.type ≠ .headers) {frames : List Frame}
    (h : ∀ f ∈ frames, f = frame) : carried m frames = [] := by
  rw [carried, List.filter_eq_nil_iff.mpr fun f hf => by simp [h f hf, htype], List.map_nil]

namespace System

variable {s : System} {isClient : Bool} {i : Nat} {startLine : StartLine Bytes} {headers : HTTPHeaders Bytes}
  {callback : Option Nat}

/-- An end has called `write_headers` on a stream; the frames are for a peer
that knows the streams `known`. -/
structure Wrote (s : System) (isClient : Bool) (m : Message) (maxHeaderSize : Nat) (known : Nat → Prop)
    (s' : System) : Prop where
  ready : s'.Ready isClient
  params : s'.conn.params = s.conn.params
  decoder : s'.conn.hpackDecoder = s.conn.hpackDecoder
  knows {j : Nat} : s.Knows j → s'.Knows j
  learns {j : Nat} : s'.Knows j → s.Knows j ∨ j = m.1
  sender : s'.Knows m.1
  log : ∃ es, s'.conn.log = s.conn.log ++ es ∧ carried m (framesOf es) = [m] ∧
    Underway (!isClient) maxHeaderSize known s.conn.hpackEncoder.table (framesOf es) [m] s'.conn.hpackEncoder.table

section

variable {self : Stream} {maxHeaderSize : Nat} {known : Nat → Prop}

/-- The frames that `write_headers` writes. -/
theorem Ready.writes (h : s.Ready isClient)
    (hself : s.streams i = some self) (hi : i < 2 ^ 31) (hsend : Sendable isClient startLine headers)
    (hsize : Stream.headerBlockLength ⟨s.conn, self⟩ startLine headers ≤ Setting.maxFrameSize.default)
    (hlimit : Stream.headerBlockLength ⟨s.conn, self⟩ startLine headers ≤ maxHeaderSize)
    (hknown : isClient = false → known i) :
    let c' := ((Stream.writeHeaders startLine headers [] callback).run ⟨s.conn, self⟩).2
    c'.conn.hpackEncoder.table.Sized ∧ c'.self.requestStartLine.isSome = true ∧
      ∃ es, c'.conn.log = s.conn.log ++ es ∧ carried (i, startLine, headers) (framesOf es) = [(i, startLine, headers)] ∧
        Underway (!isClient) maxHeaderSize known s.conn.hpackEncoder.table (framesOf es) [(i, startLine, headers)]
          c'.conn.hpackEncoder.table := by
  intro c'
  have hid : self.streamId = i := h.wellFormed.streamId hself
  have hrole : s.conn.isClient = isClient := h.role
  have hreset : Ctx.resetFrame ⟨s.conn, self⟩ = ⟨.rstStream, 0, i, [0, 0, 0, 0]⟩ := by rw [Ctx.resetFrame, hid]
  have hodd : i % 2 = 1 := h.odd hself
  have hcan : Stream.CanSend ⟨s.conn, self⟩ := by
    cases hc : isClient with
    | true => exact .inl (hrole.trans hc)
    | false => exact .inr (h.started hc hself)
  have hlt : Setting.maxFrameSize.default < 2 ^ 31 := by decide
  obtain ⟨-, ⟨data, hdata, hcarries, es, sent, hlog, hframes, hsent⟩, hsized, hstart⟩ :=
    @Stream.writeHeaders_block ⟨s.conn, self⟩ startLine headers callback (hrole ▸ hsend) hcan h.encoder
      h.socket (hid ▸ hi) (hsize.trans_lt hlt)
  have hblock : Ctx.headersFrame ⟨s.conn, self⟩ data = Stream.blockFrame i data := by
    rw [Ctx.headersFrame, Stream.blockFrame, hid]
  have hcarried : carried (i, startLine, headers) (framesOf es) = [(i, startLine, headers)] := by
    rw [hframes, hblock, carried, List.filter_cons, if_pos (by simp [Stream.blockFrame]), List.map_cons]
    exact congrArg _ (carried_resets (by simp [hreset]) hsent)
  refine ⟨hsized, hstart, es, hlog, hcarried, ?_⟩
  rw [hframes, hblock]
  refine .block ?_ hcarries (hdata ▸ hsize) (hdata ▸ hlimit) hi hodd (fun hc => hknown ?_)
    (.answers fun f hf => .inr ⟨i, [0, 0, 0, 0], .inl rfl, hi, rfl, (hsent f hf).trans hreset⟩)
  · rw [Bool.not_not]
    exact hsend
  · simpa using hc

theorem Ready.write (h : s.Ready isClient)
    (hself : s.streams i = some self) (hi : i < 2 ^ 31) (hsend : Sendable isClient startLine headers)
    (hsize : Stream.headerBlockLength ⟨s.conn, self⟩ startLine headers ≤ Setting.maxFrameSize.default)
    (hlimit : Stream.headerBlockLength ⟨s.conn, self⟩ startLine headers ≤ maxHeaderSize)
    (hknown : isClient = false → known i) :
    s.Wrote isClient (i, startLine, headers) maxHeaderSize known
      (s.step (.writeHeaders i startLine headers [] callback)) := by
  let c' := ((Stream.writeHeaders startLine headers [] callback).run ⟨s.conn, self⟩).2
  have hw := h.wellFormed.step (.writeHeaders i startLine headers [] callback)
  have hstep : s.step (.writeHeaders i startLine headers [] callback) = s.setStream i c' := step_stream rfl hself
  have hsends : SendsOnly i ⟨s.conn, self⟩ c' :=
    (Stream.writeHeaders_sends ⟨s.conn, self⟩ (h.wellFormed.streamId hself)).2
  obtain ⟨hsized, hstart, hlog⟩ := @Ready.writes s isClient i startLine headers callback self _ _ h hself hi hsend
    hsize hlimit hknown
  rw [hstep] at hw ⊢
  have hsame := hsends.self
  have hconn := hsends.conn
  simp only [Stream.receiving, Conn.receiving, Prod.mk.injEq] at hsame hconn
  obtain ⟨-, hdelegate, hfinished, -, -, hframes, -⟩ := hsame
  obtain ⟨hclient, hparams, hsettings, -, hdecoder, htree, hclosed⟩ := hconn
  have hready : c'.self.Ready :=
    have hr := h.streams hself
    ⟨hdelegate.trans hr.delegate, hfinished.trans hr.finished, hframes.trans hr.frames⟩
  have hsender : (s.setStream i c').Knows i :=
    ⟨c'.self, setStream_self, hstart⟩
  refine ⟨⟨hw, hclient.trans h.role, h.running, hclosed.trans h.socket, ?_, ?_, hsized, ?_, ?_, ?_⟩,
    hparams, hdecoder, ?_, ?_, hsender, hlog⟩
  · change c'.conn.settings.lookup _ = none
    rw [hsettings]
    exact h.frameSize
  · change c'.conn.huffmanTree.Complete
    rw [htree]
    exact h.tree
  · intro j other hj
    by_cases hji : j = i
    · rw [hji, setStream_self, Option.some.injEq] at hj
      exact hj ▸ hready
    · exact h.streams ((setStream_of_ne hji).symm.trans hj)
  · intro j other hj
    by_cases hji : j = i
    · exact hji ▸ h.odd hself
    · exact h.odd ((setStream_of_ne hji).symm.trans hj)
  · intro j other hserver hj
    by_cases hji : j = i
    · rw [hji, setStream_self, Option.some.injEq] at hj
      exact hj ▸ hstart
    · exact h.started hserver ((setStream_of_ne hji).symm.trans hj)
  · intro j hj
    by_cases hji : j = i
    · exact hji ▸ hsender
    · obtain ⟨other, hother, hs⟩ := hj
      exact ⟨other, (setStream_of_ne hji).trans hother, hs⟩
  · intro j hj
    by_cases hji : j = i
    · exact .inr hji
    · obtain ⟨other, hother, hs⟩ := hj
      exact .inl ⟨other, (setStream_of_ne hji).symm.trans hother, hs⟩

end

end System

end TornadoHttp2
