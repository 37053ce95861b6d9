import TornadoHttp2.FrameSizes
import TornadoHttp2.HpackRoundTrip

/-! The header blocks of a connection as its peer decodes them. The peer bounds
its table by the size that it has announced; the encoder never hears of it. -/

namespace TornadoHttp2

open Prog Ctx

/-- The headers that `write_headers` is to send. -/
def StartLine.pseudoHeaders : StartLine Bytes → List (Bytes × Bytes)
  | request method path => [(ascii ":method", method), (ascii ":scheme", ascii "https"), (ascii ":path", path)]
  | response code => [(ascii ":status", ascii (toString code))]

def writtenHeaders (u : Unicode) (startLine : StartLine Bytes) (headers : HTTPHeaders Bytes) :
    List (Bytes × Bytes) :=
  startLine.pseudoHeaders ++
    (headers.getAll.map fun h => (u.lower h.1, h.2)).filter fun h => h.1 ≠ ascii "connection"

/-- The values of `HEADER_TABLE_SIZE` in the payload of a SETTINGS frame. -/
def tableSizes : Bytes → List Nat
  | b₀ :: b₁ :: b₂ :: b₃ :: b₄ :: b₅ :: data =>
    if unpackBytes [b₀, b₁] = Setting.headerTableSize.code then unpackBytes [b₂, b₃, b₄, b₅] :: tableSizes data
    else tableSizes data
  | _ => []

def Frame.announces (frame : Frame) : List Nat :=
  if frame.type = .settings ∧ frame.streamId = 0 ∧ frame.has .ack = false then tableSizes frame.data else []

/-- The peer's decoder. It applies the sizes in `announced` when its SETTINGS
frame is acknowledged; `raises` speaks whether it takes a higher one into account
at once or waits for a size update. -/
structure Peer where
  decoder : HpackDecoder
  tree : HuffmanTree
  announced : List Nat
  raises : Bool

namespace Peer

def start (raises : Bool) : Peer := ⟨.new Setting.headerTableSize.default, huffmanTree, [], raises⟩

def setLimit (p : Peer) (limit : Nat) : Peer :=
  if p.decoder.table.limit < limit ∧ p.raises = false then p
  else { p with decoder := ⟨(DynamicTable.gc.run { p.decoder.table with limit }).2⟩ }

def decode (p : Peer) (data : Bytes) : Except PyException (List (Bytes × Option Bytes × HeaderIndexMode)) × Peer :=
  let (result, decoder, tree) := p.decoder.decode p.tree data
  (result, { p with decoder, tree })

/-- What the peer makes of an event at the other end: its own frames arrive
there, and the frames that are written arrive at the peer. -/
def observe (p : Peer) : Event → Peer
  | .received frame => { p with announced := p.announced ++ frame.announces }
  | .wrote frame =>
    if frame.type = .headers then (p.decode frame.data).2
    else if frame = settingsAckFrame then { p.announced.foldl setLimit p with announced := [] }
    else p
  | _ => p

def after (raises : Bool) (log : List Event) : Peer := log.foldl observe (start raises)

end Peer

/-- The peer keeps at least what the encoder keeps. -/
structure Hears (enc : HpackEncoder) (p : Peer) : Prop where
  small : enc.Small
  table : enc.table.Precedes p.decoder.table
  tree : p.tree.Complete
  announced : ∀ n ∈ p.announced, 4096 ≤ n

/-- An event that does not concern the peer's table, unless it lets it grow. -/
def Event.harmless : Event → Prop
  | received frame => ∀ n ∈ frame.announces, 4096 ≤ n
  | wrote frame => frame.type ≠ .headers
  | _ => True

/-- The peer makes `headers` out of a block. -/
def Peer.Decodes (p : Peer) (data : Bytes) (headers : List (Bytes × Bytes)) : Prop :=
  ∃ decoded, (p.decode data).1 = .ok decoded ∧
    decoded.map (fun h => (h.1, h.2.1)) = headers.map fun h => (h.1, some h.2)

namespace Hears

variable {enc enc' : HpackEncoder} {p : Peer}

theorem setLimit (h : Hears enc p) {limit : Nat} (hlimit : 4096 ≤ limit) : Hears enc (p.setLimit limit) := by
  rw [Peer.setLimit]
  split
  · exact h
  · obtain ⟨u, hrun, hprecedes, -⟩ := h.table.setLimit (h.small.limit.trans hlimit)
    rw [hrun]
    exact ⟨h.small, hprecedes, h.tree, h.announced⟩

theorem setLimits {limits : List Nat} (h : Hears enc p) (hlimits : ∀ n ∈ limits, 4096 ≤ n) :
    Hears enc (limits.foldl Peer.setLimit p) := by
  induction limits generalizing p with
  | nil => exact h
  | cons limit limits ih =>
    rw [List.forall_mem_cons] at hlimits
    exact ih (h.setLimit hlimits.1) hlimits.2

theorem harmless (h : Hears enc p) {e : Event} (he : e.harmless) : Hears enc (p.observe e) := by
  cases e with
  | received frame => exact ⟨h.small, h.table, h.tree, List.forall_mem_append.mpr ⟨h.announced, he⟩⟩
  | wrote frame =>
    have htype : frame.type ≠ .headers := he
    rw [Peer.observe, if_neg htype]
    split
    · have hlimits := h.setLimits h.announced
      exact ⟨hlimits.small, hlimits.table, hlimits.tree, nofun⟩
    · exact h
  | _ => exact h

theorem block (h : Hears enc p) {headerList : List (Bytes × Bytes × HeaderIndexMode)} {data : Bytes}
    (henc : (HpackEncoder.encode headerList).run enc = (.ok data, enc')) :
    Hears enc' (p.decode data).2 ∧ p.Decodes data (loweredPairs headerList) := by
  obtain ⟨block, table, u, decoded, hrun, hdecode, hmap, -, hprecedes⟩ :=
    decode_encode_block inStep_precedes h.small.sized h.table h.tree headerList
  have hsmall : enc'.Small := h.small.encodes (.inr ⟨headerList, by rw [henc]⟩)
  rw [hrun] at henc
  cases henc
  simp only [Peer.Decodes, Peer.decode, hdecode]
  exact ⟨⟨hsmall, hprecedes, h.tree, h.announced⟩, decoded, rfl, hmap⟩

end Hears

/-- The events of a step that encodes its header blocks from `headers`. -/
inductive Spoken (headers : List (Bytes × Bytes)) : HpackEncoder → List Event → HpackEncoder → Prop
  | nil (enc : HpackEncoder) : Spoken headers enc [] enc
  | harmless {enc enc' : HpackEncoder} {e : Event} {es : List Event} : e.harmless →
    Spoken headers enc es enc' → Spoken headers enc (e :: es) enc'
  | block {enc enc₁ enc' : HpackEncoder} {headerList : List (Bytes × Bytes × HeaderIndexMode)} {i : Nat}
      {data : Bytes} {es : List Event} :
    loweredPairs headerList = headers →
    (HpackEncoder.encode headerList).run enc = (.ok data, enc₁) → Spoken headers enc₁ es enc' →
    Spoken headers enc (.wrote ⟨.headers, FrameFlag.endHeaders.value, i, data⟩ :: es) enc'

namespace Spoken

variable {headers : List (Bytes × Bytes)} {enc enc' enc'' : HpackEncoder} {es es' : List Event}

theorem of_harmless (h : ∀ e ∈ es, e.harmless) : Spoken headers enc es enc := by
  induction es with
  | nil => exact .nil enc
  | cons e es ih =>
    rw [List.forall_mem_cons] at h
    exact .harmless h.1 (ih h.2)

theorem append (h : Spoken headers enc es enc') (h' : Spoken headers enc' es' enc'') :
    Spoken headers enc (es ++ es') enc'' := by
  induction h with
  | nil => exact h'
  | harmless he _ ih => exact .harmless he (ih h')
  | block hlist henc _ ih => exact .block hlist henc (ih h')

/-- The peer understands every block and is as far as the encoder in the end. -/
theorem heard (h : Spoken headers enc es enc') {p : Peer} (hp : Hears enc p) :
    Hears enc' (es.foldl Peer.observe p) ∧ ∀ before frame after, es = before ++ .wrote frame :: after →
      frame.type = .headers → (before.foldl Peer.observe p).Decodes frame.data headers := by
  induction h generalizing p with
  | nil => exact ⟨hp, fun before frame after h => by simp at h⟩
  | @harmless enc enc' e es he _ ih =>
    obtain ⟨hend, hblocks⟩ := ih (hp.harmless he)
    refine ⟨hend, fun before frame after heq htype => ?_⟩
    cases before with
    | nil =>
      cases heq
      exact absurd htype he
    | cons e' before =>
      cases heq
      exact hblocks before frame after rfl htype
  | @block enc enc₁ enc' headerList i data es hlist henc _ ih =>
    obtain ⟨hnext, hdecodes⟩ := hp.block henc
    obtain ⟨hend, hblocks⟩ := ih (p := p.observe (.wrote ⟨.headers, FrameFlag.endHeaders.value, i, data⟩)) hnext
    refine ⟨hend, fun before frame after heq htype => ?_⟩
    cases before with
    | nil =>
      cases heq
      exact hlist ▸ hdecodes
    | cons e' before =>
      cases heq
      exact hblocks before frame after rfl htype

end Spoken

/-- From `c` to `c'` the header blocks are encoded from `headers`. On a closed
socket no block is written, and the encoder may be anywhere. -/
structure Conn.Speaks (headers : List (Bytes × Bytes)) (c c' : Conn) : Prop where
  closed : c.closed = true → c'.closed = true
  small : c.hpackEncoder.Small → c'.hpackEncoder.Small
  log : ∃ es, c'.log = c.log ++ es ∧ (c.closed = true → ∀ e ∈ es, e.harmless) ∧
    (c.closed = false → ∃ enc, Spoken headers c.hpackEncoder es enc ∧ (c'.closed = false → enc = c'.hpackEncoder))

/-- From `c` to `c'` no header block is written. -/
structure Conn.Plain (c c' : Conn) : Prop where
  closed : c.closed = true → c'.closed = true
  encoder : c'.hpackEncoder = c.hpackEncoder
  log : Grows Event.harmless c.log c'.log

namespace Conn

variable {headers : List (Bytes × Bytes)} {c c' c'' : Conn}

theorem Plain.speaks (h : Plain c c') : Speaks headers c c' := by
  obtain ⟨es, hlog, hes⟩ := h.log
  refine ⟨h.closed, fun hsmall => h.encoder ▸ hsmall, es, hlog, fun _ => hes, fun _ => ?_⟩
  exact ⟨c.hpackEncoder, .of_harmless hes, fun _ => h.encoder.symm⟩

theorem Plain.refl : Plain c c := ⟨id, rfl, .refl⟩

theorem Plain.trans (h : Plain c c') (h' : Plain c' c'') : Plain c c'' :=
  ⟨h'.closed ∘ h.closed, h'.encoder.trans h.encoder, h.log.trans h'.log⟩

theorem Plain.logged {e : Event} (he : e.harmless) : Plain c { c with log := c.log ++ [e] } := ⟨id, rfl, .snoc he⟩

theorem Speaks.trans (h : Speaks headers c c') (h' : Speaks headers c' c'') : Speaks headers c c'' := by
  obtain ⟨es, hlog, hsilent, hspoken⟩ := h.log
  obtain ⟨es', hlog', hsilent', hspoken'⟩ := h'.log
  refine ⟨h'.closed ∘ h.closed, h'.small ∘ h.small, es ++
    es', by rw [hlog', hlog, List.append_assoc], fun hclosed => ?_, fun hopen => ?_⟩
  · exact List.forall_mem_append.mpr ⟨hsilent hclosed, hsilent' (h.closed hclosed)⟩
  · obtain ⟨enc, hes, henc⟩ := hspoken hopen
    cases hclosed : c'.closed with
    | true =>
      refine ⟨enc, hes.append (.of_harmless (hsilent' hclosed)), fun hopen' => ?_⟩
      rw [h'.closed hclosed] at hopen'
      cases hopen'
    | false =>
      obtain rfl := henc hclosed
      obtain ⟨enc', hes', henc'⟩ := hspoken' hclosed
      exact ⟨enc', hes.append hes', henc'⟩

/-- On a socket that has been closed, a block that is encoded is not written. -/
theorem Plain.silenced {enc : HpackEncoder} (h : Plain c c') (hclosed : c'.closed = true)
    (hencodes : Encodes c.hpackEncoder enc) :
    Speaks headers c { c' with hpackEncoder := enc } := by
  obtain ⟨es, hlog, hes⟩ := h.log
  refine ⟨h.closed, fun hsmall => hsmall.encodes hencodes, es, hlog, fun _ => hes,
    fun _ => ⟨c.hpackEncoder, .of_harmless hes, fun hopen => ?_⟩⟩
  rw [hclosed] at hopen
  cases hopen

theorem Plain.block {enc : HpackEncoder} {headerList : List (Bytes × Bytes × HeaderIndexMode)} {i : Nat} {data : Bytes}
    (h : Plain c c') (hopen : c.closed = false)
    (hlist : loweredPairs headerList = headers)
    (henc : (HpackEncoder.encode headerList).run c.hpackEncoder = (.ok data, enc)) :
    Speaks headers c { c' with
      hpackEncoder := enc
      log := c'.log ++ [.wrote ⟨.headers, FrameFlag.endHeaders.value, i, data⟩] } := by
  obtain ⟨es, hlog, hes⟩ := h.log
  refine ⟨h.closed, fun hsmall => hsmall.encodes (.inr ⟨headerList, by rw [henc]⟩),
    es ++ [.wrote ⟨.headers, FrameFlag.endHeaders.value, i, data⟩], ?_, fun hclosed => ?_,
      fun _ => ⟨enc, (Spoken.of_harmless hes).append (.block hlist henc (.nil enc)), fun _ => rfl⟩⟩
  · rw [hlog, List.append_assoc]
  · rw [hopen] at hclosed
    cases hclosed

end Conn

/-- The two relations between the connections of a stream. -/
def Ctx.Speaks (headers : List (Bytes × Bytes)) (c c' : Ctx) : Prop := Conn.Speaks headers c.conn c'.conn

def Ctx.Plain (c c' : Ctx) : Prop := Conn.Plain c.conn c'.conn

instance : Std.Refl Ctx.Plain := ⟨fun _ => Conn.Plain.refl⟩

instance : IsTrans Ctx Ctx.Plain := ⟨fun _ _ _ => Conn.Plain.trans⟩

instance {headers : List (Bytes × Bytes)} : Std.Refl (Ctx.Speaks headers) := ⟨fun _ => Conn.Plain.refl.speaks⟩

instance {headers : List (Bytes × Bytes)} : IsTrans Ctx (Ctx.Speaks headers) := ⟨fun _ _ _ => Conn.Speaks.trans⟩

theorem ReceivesOnly.plain {i : Nat} {c c' : Ctx} (h : ReceivesOnly i c c') : c.Plain c' where
  closed := by
    have hclosed : c'.conn.closed = c.conn.closed := congrArg (fun t => t.2.2.2.2.2.2) h.conn
    rw [hclosed]
    exact id
  encoder := congrArg (fun t => t.2.2.2.2.1) h.conn
  log := h.log.mono fun e he => by
    cases e with
    | received => exact he.elim
    | wrote frame =>
      have htype : frame.type = .windowUpdate := he.1
      rw [Event.harmless, htype]
      nofun
    | _ => trivial

namespace Stream

variable {i : Nat}

theorem keepsSending_plain : KeepsSending i (fun c => c.self.streamId = i) Ctx.Plain where
  self hc := hc
  set h _ hc := ⟨(congrArg Prod.fst (h _)).trans hc, .refl⟩
  window _ _ hc := ⟨hc, id, rfl, .refl⟩
  emit {e} h := by
    have he : e.harmless := by
      cases e with
      | wrote frame => exact absurd rfl (h.2 frame)
      | received => exact h.1.elim
      | _ => trivial
    exact fun _ hc => ⟨hc, .logged he⟩
  frame h := by
    refine writeFrame_keeps fun _ => .logged ?_
    rcases h.2 with htype | rfl
    · rw [Event.harmless, htype]
      nofun
    · nofun

theorem regularHeaders_written (u : Unicode) (headers : List (Bytes × Bytes)) :
    loweredPairs (regularHeaders u headers) =
      (headers.map fun h => (u.lower h.1, h.2)).filter fun h => h.1 ≠ ascii "connection" := by
  induction headers with
  | nil => rfl
  | cons header rest ih =>
    obtain ⟨k, v⟩ := header
    rw [regularHeaders]
    by_cases hk : u.lower k = ascii "connection"
    · simpa [hk] using ih
    · simpa [loweredPairs, hk, u.lower_lower] using ih

theorem pseudoHeaderList_wp {c : Ctx} {startLine : StartLine Bytes} :
    wp (pseudoHeaderList startLine)
      (fun list c' => c'.conn = c.conn ∧ c'.self.streamId = c.self.streamId ∧
        loweredPairs list = startLine.pseudoHeaders)
      (fun _ c' => c'.conn = c.conn ∧ c'.self.streamId = c.self.streamId) c := by
  rw [pseudoHeaderList, wp_bind, wp_get]
  split
  · exact ⟨rfl, rfl, rfl⟩
  · exact ⟨rfl, rfl⟩
  · exact ⟨rfl, rfl, rfl⟩
  · exact ⟨rfl, rfl⟩

/-- A block that cannot be encoded leaves the encoder as it was. -/
theorem headerBlock_encodes {c : Ctx} {startLine : StartLine Bytes}
    {headers : HTTPHeaders Bytes} (hc : c.self.streamId = i)
    (hsized : c.conn.hpackEncoder.table.Sized) : wp (headerBlock startLine headers)
      (fun data c' => c'.self.streamId = i ∧ ∃ headerList enc,
        loweredPairs headerList = writtenHeaders c.conn.params.unicode startLine headers ∧
          (HpackEncoder.encode headerList).run c.conn.hpackEncoder = (.ok data, enc) ∧
          ∃ conn, c.conn.Plain conn ∧ c'.conn = { conn with hpackEncoder := enc })
      (fun _ c' => c'.self.streamId = i ∧ c.Plain c') c := by
  rw [headerBlock, wp_bind]
  refine wp_mono setOutgoingContent_wp (fun _ c₁ h₁ => ?_) fun _ _ h₁ => by simp [h₁, hc, refl c]
  obtain ⟨hc₁, hplain, hparams, henc⟩ : c₁.self.streamId = i ∧ c.Plain c₁ ∧
      c₁.conn.params = c.conn.params ∧ c₁.conn.hpackEncoder = c.conn.hpackEncoder := by
    rcases h₁ with rfl | ⟨length, rfl⟩
    · exact ⟨hc, refl c₁, rfl, rfl⟩
    · exact ⟨hc, .logged trivial, rfl, rfl⟩
  rw [wp_bind]
  refine wp_mono pseudoHeaderList_wp (fun pseudo c₂ h₂ => ?_) fun _ c₂ h₂ => ⟨h₂.2.trans hc₁, ?_⟩
  · obtain ⟨hconn, hid, hpseudo⟩ := h₂
    rw [wp_bind, regularHeaderList, wp_bind, wp_get, wp_pure]
    obtain ⟨decoder, hdecoder⟩ : ∃ decoder : HpackDecoder, c.conn.hpackEncoder.table = decoder.table := ⟨⟨_⟩, rfl⟩
    obtain ⟨block, table, -, -, hrun, -⟩ := decode_encode_block inStep_eq hsized hdecoder huffmanTree_complete
      (pseudo ++ regularHeaders c₂.conn.params.unicode headers.getAll)
    have henc₂ : c₂.conn.hpackEncoder = c.conn.hpackEncoder := by rw [hconn, henc]
    rw [← henc₂] at hrun
    rw [encodeHeaders, onConn, wp_zoom, wp_zoom, wp_of_ok hrun]
    refine ⟨hid.trans hc₁, _, _, ?_, by rw [← henc₂, hrun], c₂.conn, hconn ▸ hplain, rfl⟩
    rw [loweredPairs, List.map_append]
    refine congrArg₂ _ hpseudo ((regularHeaders_written _ _).trans ?_)
    rw [hconn, hparams]
  · rw [Ctx.Plain, h₂.1]
    exact hplain

theorem encode_length_lt {enc enc' : HpackEncoder} {headerList : List (Bytes × Bytes × HeaderIndexMode)}
    {data : Bytes} (h : enc.Small) (hrun : (HpackEncoder.encode headerList).run enc = (.ok data, enc'))
    (hsize : DynamicTable.totalSize (loweredPairs headerList) < 2 ^ 31) : data.length < 2 ^ 31 := by
  rw [loweredPairs] at hsize
  have hlength := (wp_of_ok hrun).mp (HpackEncoder.encode_length h (by omega))
  omega

theorem writeHeaders_silent {c : Ctx} {startLine : StartLine Bytes} {headers : HTTPHeaders Bytes} {chunk : Bytes}
    {callback : Option Nat} (hclosed : c.conn.closed = true) (written : List (Bytes × Bytes)) :
    c.Speaks written ((writeHeaders startLine headers chunk callback).run c).2 := by
  have hresult : WritesHeaders c startLine headers chunk callback _ := wp_state.mp writeHeaders_wp
  have hfits : c.Fits (max 5 (headerBlockLength c startLine headers))
      ((writeHeaders startLine headers chunk callback).run c).2 :=
    writeHeaders_fits (le_max_left ..) fun _ => le_max_right ..
  have hsmall := hfits.encoder
  clear hfits
  revert hresult hsmall
  generalize ((writeHeaders startLine headers chunk callback).run c).2 = c'
  intro hresult hsmall
  cases hresult with
  | written h =>
    cases h with
    | mk _ _ hopen => simp [hclosed] at hopen
  | @failed c₁ _ h hreset =>
    have hprepared : c₁.conn.closed = true := h.closed.trans hclosed
    have hlog : Grows Event.harmless c.conn.log c₁.conn.log :=
      Grows.trans (.snoc (e := .issued c.self.streamId .writeHeaders) trivial) (h.log.mono fun e he => by
        obtain ⟨length, rfl⟩ := he
        trivial)
    have hend : c'.conn.closed = true ∧ Grows Event.harmless c.conn.log c'.conn.log := by
      rcases hreset with rfl | rfl
      · exact ⟨hprepared, hlog⟩
      · exact ⟨hprepared, hlog.trans (.snoc (by nofun : (Event.wrote c₁.resetFrame).harmless))⟩
    obtain ⟨es, hes, hharmless⟩ := hend.2
    refine ⟨fun _ => hend.1, hsmall, es, hes, fun _ => hharmless, fun hopen => ?_⟩
    rw [hclosed] at hopen
    cases hopen

/-- On an open socket, what is encoded is written. -/
theorem writeHeaders_speaks {c : Ctx} {startLine : StartLine Bytes} {headers : HTTPHeaders Bytes} {chunk : Bytes}
    {callback : Option Nat} (hc : c.self.streamId = i) (hi : i < 2 ^ 31) (henc : c.conn.hpackEncoder.Small)
    (hsize : DynamicTable.totalSize (writtenHeaders c.conn.params.unicode startLine headers) < 2 ^ 31) :
    c.Speaks (writtenHeaders c.conn.params.unicode startLine headers)
      ((writeHeaders startLine headers chunk callback).run c).2 := by
  cases hclosed : c.conn.closed with
  | true => exact writeHeaders_silent hclosed _
  | false =>
    have hbody : wp (do
        let data ← headerBlock startLine headers
        writeFrame ⟨.headers, FrameFlag.endHeaders.value, c.self.streamId, data⟩
        write chunk callback)
        (fun _ c' => c'.self.streamId = i ∧ c.Speaks (writtenHeaders c.conn.params.unicode startLine headers) c')
        (fun _ c' => c'.self.streamId = i ∧ c.Speaks (writtenHeaders c.conn.params.unicode startLine headers) c')
        (c.issued .writeHeaders) := by
      have hissued : c.Plain (c.issued .writeHeaders) := .logged trivial
      rw [wp_bind]
      refine wp_mono (headerBlock_encodes (i := i) hc henc.sized) (fun data c₁ h => ?_) fun _ c₁ h => ?_
      · obtain ⟨hid, headerList, enc, hlist, hencode, conn, hplain, hconn⟩ := h
        change (HpackEncoder.encode headerList).run c.conn.hpackEncoder = (.ok data, enc) at hencode
        have hlength : data.length < 2 ^ 31 := encode_length_lt henc hencode (hlist ▸ hsize)
        have hfits : ¬ (data.length ≥ 2 ^ 31 ∨ c.self.streamId ≥ 2 ^ 31) := by omega
        rw [wp_bind, writeFrame_wp, if_neg hfits]
        have hprepared : c.conn.Plain conn := hissued.trans hplain
        split
        · refine ⟨hid, ?_⟩
          rw [Ctx.Speaks, hconn]
          exact hprepared.silenced (by rwa [hconn] at *) (.inr ⟨headerList, by rw [hencode]⟩)
        · have hblock : c.Speaks (writtenHeaders c.conn.params.unicode startLine headers)
              (c₁.logged (.wrote ⟨.headers, FrameFlag.endHeaders.value, c.self.streamId, data⟩)) := by
            rw [Ctx.Speaks, Ctx.logged, hconn]
            exact hprepared.block hclosed hlist hencode
          exact keepsSending_plain.write.wp hid (fun _ _ hid' h => ⟨hid', hblock.trans h.speaks⟩)
            fun _ _ hid' h => ⟨hid', hblock.trans h.speaks⟩
      · exact ⟨h.1, Conn.Plain.speaks (hissued.trans h.2)⟩
    refine (wp_state (P := fun c' => c.Speaks (writtenHeaders c.conn.params.unicode startLine headers) c')).mp ?_
    rw [writeHeaders_eq, resetOnError, wp_catching, wp_bind, wp_get, wp_bind, wp_emit]
    refine wp_mono hbody (fun _ _ h => h.2) fun _ c' h => ?_
    rw [wp_bind]
    have hreset {c'' : Ctx} (hplain : c'.Plain c'') : c.Speaks
        (writtenHeaders c.conn.params.unicode startLine headers) c'' :=
      h.2.trans hplain.speaks
    exact keepsSending_plain.reset.wp h.1 (fun _ _ _ => hreset) fun _ _ _ => hreset

theorem handleFrame_speaks {u : Unicode} {frame : Frame} {later : Bool} (hi : i < 2 ^ 31) :
    Keeps (fun c : Ctx => c.self.streamId = i ∧ c.conn.hpackEncoder.Small)
      (Ctx.Speaks (writtenHeaders u (.response 431) .empty)) (handleFrame frame later) := by
  have plain {m : OnStream Unit} (hm : Keeps (fun c : Ctx => c.self.streamId = i) Ctx.Plain m) :
      Keeps (fun c : Ctx => c.self.streamId = i ∧ c.conn.hpackEncoder.Small)
        (Ctx.Speaks (writtenHeaders u (.response 431) .empty)) m := fun c hc => by
    obtain ⟨hid, hplain⟩ := hm c hc.1
    exact ⟨⟨hid, hplain.encoder ▸ hc.2⟩, hplain.speaks⟩
  refine handleFrame_keeps (i := i) (fun _ hc => hc.1) (fun c c' hc h => ?_) (fun c hc => ?_)
    (plain keepsSending_plain.finish) fun _ => plain ?_
  · have hid : c'.self.streamId = c.self.streamId := congrArg Prod.fst h.self
    exact ⟨⟨hid.trans hc.1, h.plain.encoder ▸ hc.2⟩, h.plain.speaks⟩
  · have hsize : DynamicTable.totalSize (writtenHeaders .caseless (.response 431) .empty) < 2 ^ 31 := by decide
    have hspeaks : c.Speaks _ ((writeHeaders (.response 431) .empty [] none).run c).2 :=
      writeHeaders_speaks hc.1 hi hc.2 hsize
    exact ⟨⟨(writeHeaders_sends c hc.1).1, hspeaks.small hc.2⟩, hspeaks⟩
  · exact .get_bind fun _ _ => .bind (fun _ hc => ⟨hc, .refl⟩) fun _ => fun _ hc => ⟨hc, .logged trivial⟩

end Stream

instance : Std.Refl Conn.Plain := ⟨fun _ => .refl⟩

instance : IsTrans Conn Conn.Plain := ⟨fun _ _ _ => .trans⟩

theorem Conn.handleFrame_harmless (frame : Frame) : Keeps (fun _ => True) Conn.Plain (Conn.handleFrame frame) := by
  refine handleFrame_keeps (fun _ _ _ hreply _ _ => ⟨trivial, .logged fun hheaders => ?_⟩)
    (fun _ _ _ _ _ => ⟨trivial, id, rfl, .refl⟩) (fun _ _ => ⟨trivial, fun _ => rfl, rfl, .refl⟩)
    fun _ => .bind (fun _ _ => ⟨trivial, id, rfl, .refl⟩) fun _ => fun _ _ => ⟨trivial, .logged trivial⟩
  rcases hreply with hreply | hreply <;> cases hreply.symm.trans hheaders

namespace System

/-- The headers of the blocks that a step writes: those of the call, or those of
the answer to an over-long header block. -/
def Action.written (u : Unicode) : Action → List (Bytes × Bytes)
  | .writeHeaders _ startLine headers _ _ => writtenHeaders u startLine headers
  | _ => writtenHeaders u (.response 431) .empty

/-- The peer decodes every block of the step to the headers that were written. -/
def BlocksDecode (raises : Bool) (s : System) (a : Action) : Prop :=
  ∀ before frame after, (s.step a).conn.log = s.conn.log ++ (before ++ .wrote frame :: after) →
    frame.type = .headers → (Peer.after raises (s.conn.log ++ before)).Decodes frame.data
      (a.written s.conn.params.unicode)

/-- No table size is announced that is less than what the encoder started with. -/
def KeepsTableSize (s : System) : Action → Prop
  | .receive frame _ => frame.streamId < 2 ^ 31 ∧ ∀ n ∈ frame.announces, 4096 ≤ n
  | .writeHeaders i startLine headers _ _ => s.conn.closed = false →
    i < 2 ^ 31 ∧ DynamicTable.totalSize (writtenHeaders s.conn.params.unicode startLine headers) < 2 ^ 31
  | _ => True

instance (s : System) : (a : Action) → Decidable (s.KeepsTableSize a)
  | .receive _ _ => inferInstanceAs (Decidable (_ ∧ _))
  | .writeHeaders _ _ _ _ _ => inferInstanceAs (Decidable (_ → _))
  | .createStream | .upgrade _ _ | .write _ _ _ | .finish _ | .reset _ | .resume _ _ | .resolve _ _ | .goawayFlushed
  | .disconnect => isTrue trivial

structure Heard (raises : Bool) (s : System) : Prop where
  wellFormed : s.WellFormed
  small : s.conn.hpackEncoder.Small
  hears : s.conn.closed = false → Hears s.conn.hpackEncoder (Peer.after raises s.conn.log)

variable {s s' : System} {raises : Bool}

theorem Handled.speaks {u : Unicode} {frame : Frame} {later : Bool} {r : Except PyException Unit} (hw : s.WellFormed)
    (hsmall : s.conn.hpackEncoder.Small) (hid : frame.streamId < 2 ^ 31) (hannounced : ∀ n ∈ frame.announces, 4096 ≤ n)
    (h : Handled s frame later r s') : Conn.Speaks (writtenHeaders u (.response 431) .empty) s.conn s'.conn := by
  have hreceived : Conn.Plain s.conn (s.logged (.received frame)).conn := .logged hannounced
  cases h with
  | oversized => exact Conn.Plain.refl.speaks
  | interrupted => exact hreceived.speaks
  | passed _ _ hd =>
    cases hd with
    | conn => exact (hreceived.trans (Conn.handleFrame_harmless frame _ trivial).2).speaks
    | @stream self _ hself =>
      exact hreceived.speaks.trans (Stream.handleFrame_speaks hid ⟨(s.logged (.received frame)).conn, self⟩
        ⟨hw.streamId hself, hsmall⟩).2
    | accepted =>
      have haccepted : Conn.Plain s.conn ((s.logged (.received frame)).accepted frame).conn :=
        (hreceived.trans (.logged (e := .opened frame.streamId _) trivial)).trans
          (.logged (e := .startRequest frame.streamId) trivial)
      exact haccepted.speaks.trans (Stream.handleFrame_speaks hid
        ⟨((s.logged (.received frame)).accepted frame).conn, .new s.conn frame.streamId true⟩ ⟨rfl, hsmall⟩).2
    | _ => exact hreceived.speaks

theorem Answered.plain {r : Except PyException Unit} (h : Answered s r s') : Conn.Plain s.conn s'.conn := by
  cases h with
  | nothing => exact .refl
  | reset => exact .logged (by nofun : (Event.wrote (rstStreamFrame _ _)).harmless)
  | goaway hopen =>
    exact ⟨fun hclosed => absurd (hopen.symm.trans hclosed) nofun,
      rfl, .snoc (by nofun : (Event.wrote (goawayFrame _ 0 _)).harmless)⟩
  | ended hclosed => exact ⟨hclosed, rfl, .refl⟩

theorem Stepped.speaks {a : Action} (hw : s.WellFormed) (hsmall : s.conn.hpackEncoder.Small)
    (ha : s.KeepsTableSize a) (h : Stepped s a s') : Conn.Speaks (a.written s.conn.params.unicode) s.conn s'.conn := by
  cases h with
  | received _ hh hanswered => exact (hh.speaks hw hsmall ha.1 ha.2).trans hanswered.plain.speaks
  | created => exact Conn.Plain.speaks ⟨id, rfl, .snoc trivial⟩
  | upgraded => exact Conn.Plain.speaks ⟨id, rfl, .snoc trivial⟩
  | closed => exact Conn.Plain.speaks ⟨fun _ => rfl, rfl, .refl⟩
  | @method _ i m self hm hself =>
    have hid := hw.streamId hself
    have plain (h : Keeps (fun c => c.self.streamId = i) Ctx.Plain m) :
        Conn.Speaks (a.written s.conn.params.unicode) s.conn (m.run ⟨s.conn, self⟩).2.conn :=
          (h ⟨s.conn, self⟩ hid).2.speaks
    cases a <;> simp only [Action.method, reduceCtorEq, Option.some.injEq, Prod.mk.injEq] at hm <;>
      obtain ⟨rfl, rfl⟩ := hm
    case writeHeaders =>
      cases hclosed : s.conn.closed with
      | true => exact Stream.writeHeaders_silent (c := ⟨s.conn, self⟩) hclosed _
      | false => exact Stream.writeHeaders_speaks (c := ⟨s.conn, self⟩) hid (ha hclosed).1 hsmall (ha hclosed).2
    case write => exact plain Stream.keepsSending_plain.write
    case finish => exact plain Stream.keepsSending_plain.finish
    case reset => exact plain Stream.keepsSending_plain.reset
    case resume => exact plain Stream.keepsSending_plain.resume
    case resolve => exact (Stream.resolveData_receives ⟨s.conn, self⟩ hid).2.plain.speaks
  | idle => exact Conn.Plain.refl.speaks

theorem Heard.step {a : Action} (h : s.Heard raises) (ha : s.KeepsTableSize a) :
    (s.step a).Heard raises ∧ s.BlocksDecode raises a := by
  obtain ⟨hclosed, hsmall, es, hlog, hsilent, hspoken⟩ := Stepped.speaks h.wellFormed h.small ha (step_cases s a)
  refine ⟨⟨h.wellFormed.step a, hsmall h.small, fun hopen' => ?_⟩, fun before frame after hlog' htype => ?_⟩
  · have hopen : s.conn.closed = false := by
      by_contra hne
      rw [hclosed (eq_true_of_ne_false hne)] at hopen'
      cases hopen'
    obtain ⟨enc, hes, henc⟩ := hspoken hopen
    rw [hlog, Peer.after, List.foldl_append, ← henc hopen']
    exact (hes.heard (h.hears hopen)).1
  · obtain rfl : es = before ++ .wrote frame :: after := List.append_cancel_left (hlog.symm.trans hlog')
    cases hopen : s.conn.closed with
    | true => exact absurd htype (hsilent hopen (.wrote frame) (by simp))
    | false =>
      obtain ⟨enc, hes, -⟩ := hspoken hopen
      rw [Peer.after, List.foldl_append]
      exact (hes.heard (h.hears hopen)).2 before frame after rfl htype

theorem heard_start (isClient : Bool) (params : Params) : (start isClient params).Heard raises where
  wellFormed := .start isClient params
  small := ⟨DynamicTable.new_sized _, le_refl 4096, rfl⟩
  hears _ := by
    have hstart : Peer.after raises (start isClient params).conn.log = Peer.start raises := by
      cases isClient <;> rfl
    rw [hstart]
    refine ⟨⟨DynamicTable.new_sized _, le_refl 4096, rfl⟩,
      ⟨DynamicTable.new_sized _, DynamicTable.new_sized _, le_refl _, List.prefix_refl _⟩, ?_, List.forall_mem_nil _⟩
    dsimp only [Peer.start]
    exact huffmanTree_complete

end System

/-- A peer that never announces less than the default decodes every block,
whether it raises its limit at once or not. -/
theorem blocks_decode {isClient raises : Bool} {params : Params} {actions : List System.Action}
    (h : Runs.Along System.step System.KeepsTableSize (System.start isClient params) actions) :
    Runs.Along System.step (System.BlocksDecode raises) (System.start isClient params) actions :=
  h.mono (fun _ _ hs ha => (hs.step ha).1) (fun _ _ hs ha => (hs.step ha).2) (System.heard_start isClient params)

/-- The peer announces a table size, and two responses have the same header. -/
def System.tableSizeActions (size : Nat) : List System.Action :=
  [.receive ⟨.settings, 0, 0, packBytes 2 Setting.headerTableSize.code ++ packBytes 4 size⟩ false,
    .receive (requestFrame 1 0x5) false, .receive (requestFrame 3 0x5) false,
    .writeHeaders 1 (.response 200) ⟨[(ascii "Server", [ascii "tornado"])]⟩ [] none,
    .writeHeaders 3 (.response 200) ⟨[(ascii "Server", [ascii "tornado"])]⟩ [] none]

theorem blocks_decode_larger : Runs.Along System.step (System.BlocksDecode false)
    (System.start false (.new none .caseless)) (System.tableSizeActions 8192) :=
  blocks_decode (by decide +kernel)

/-- A peer without a table does not know the entry that the second block refers to. -/
theorem blocks_not_decode : ¬ ∀ isClient raises params actions,
    Runs.Along System.step (System.BlocksDecode raises) (System.start isClient params) actions := by
  intro h
  obtain ⟨second, hsecond⟩ : ∃ second, System.tableSizeActions 0 = (System.tableSizeActions 0).take 4 ++ [second] :=
    ⟨_, rfl⟩
  have hfacts : let s := (System.start false (.new none .caseless)).run ((System.tableSizeActions 0).take 4)
      (s.step second).conn.log = s.conn.log ++ ([.issued 3 .writeHeaders] ++
        .wrote ⟨.headers, FrameFlag.endHeaders.value, 3, [0x88, 0xbe]⟩ :: [.accepted 3 []]) ∧
      ((Peer.after true (s.conn.log ++ [.issued 3 .writeHeaders])).decode [0x88, 0xbe]).1.toOption = none := by
    cases hsecond
    decide +kernel
  have hrun := h false true (.new none .caseless) (System.tableSizeActions 0)
  rw [hsecond] at hrun
  obtain ⟨-, hblock, -⟩ := Runs.along_append.mp hrun
  revert hfacts hblock
  rw [System.run]
  generalize ((System.tableSizeActions 0).take 4).foldl System.step (System.start false (.new none .caseless)) = s
  intro hfacts hblock
  obtain ⟨decoded, hdecoded, -⟩ := hblock _ _ _ hfacts.1 rfl
  have hnone := hfacts.2
  rw [hdecoded] at hnone
  cases hnone

end TornadoHttp2
