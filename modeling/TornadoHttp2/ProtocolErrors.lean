import TornadoHttp2.Padding
import TornadoHttp2.StreamCalls
import TornadoHttp2.ReadableFields

/-! The frames that are answered. Whatever a peer sends, `_conn_loop` should
complete or answer with RST_STREAM or GOAWAY; here is what has to hold of a frame
for that, and that nothing less does. -/

namespace TornadoHttp2

open Prog Ctx

/-- Only a stream with a delegate is started. -/
def Ctx.Delegated (c : Ctx) : Prop := c.self.delegateStarted = true → c.self.hasDelegate = true

/-- The stream after the first line of `_handle_headers_frame`. -/
def Ctx.inHeaders (c : Ctx) : Ctx :=
  ⟨c.conn, { c.self with phase := if c.self.phase = .body then .trailers else c.self.phase }⟩

/-- However the program ends, it ends in a state of `I`, and what it raises is answered. -/
def EndsAnswered (I : Ctx → Prop) {α : Type} (m : OnStream α) (c : Ctx) : Prop :=
  wp m (fun _ => I) (fun e c' => ¬ e.isLocal ∧ I c') c

namespace Stream

/-- A message that the delegate can be told of. -/
def Startable (c : Ctx) (p : ParsedHeaders) : Prop :=
  c.self.hasDelegate = true ∧ if c.conn.isClient then ∃ code, statusCode p = .ok code ∧
  Countable c (.response code) p.headers
    else p.headers.HasLength

/-- If a header block decodes, its fields can be taken in, and the delegate told
of the message. -/
def FieldsReadable (c : Ctx) (data : Bytes) : Prop :=
  ∀ headers, (c.conn.hpackDecoder.decode c.conn.huffmanTree data).1 = .ok headers →
    Readable c.conn.params.unicode c.conn.isClient c.self.streamId ⟨[], .empty, c.self.phase = .trailers⟩ headers ∧
      ∀ p, addHeaders c.conn.params.unicode c.conn.isClient c.self.streamId
        ⟨[], .empty, c.self.phase = .trailers⟩ headers = .ok p →
        c.self.phase = .headers → p.IsInvalid c.conn.isClient ∨ Startable c p

/-- The same of what comes after the stream dependency and the weight. -/
def BlockReadable (c : Ctx) (frame : Frame) (data : Bytes) : Prop :=
  if frame.has .priority then
    5 ≤ data.length ∧ (unpackBytes (data.take 4) &&& 0x7fffffff ≠ frame.streamId → FieldsReadable c (data.drop 5))
  else FieldsReadable c data

variable {I : Ctx → Prop} {c : Ctx} {p : ParsedHeaders} {frame : Frame}

theorem callDelegate_answers {call : DelegateCall}
    (hcalled : c.self.hasDelegate = true → I (c.logged (.called c.self.streamId call))) :
    EndsAnswered I (callDelegate call) c ↔ c.self.hasDelegate = true := by
  rw [EndsAnswered, callDelegate, wp_bind, wp_get, wp_bind, wp_check, wp_emit]
  cases hdelegate : c.self.hasDelegate with
  | false => simp [PyException.isLocal]
  | true => simpa using hcalled hdelegate

theorem setIncomingContent_answers {startLine : StartLine (Option Bytes)}
    {headers : HTTPHeaders (Option Bytes)} {Q : Unit → Ctx → Prop}
    {E : PyException → Ctx → Prop} {q : Prop} (hE : ∀ e, e.isLocal → ∀ c, ¬ E e c)
    (hQ : ∀ remaining, Q () ⟨c.conn, { c.self with incomingContentRemaining := remaining }⟩ ↔ q) :
    wp (setIncomingContent startLine headers) Q E c ↔ Countable c startLine headers ∧ q := by
  have hlength : wp (if headers.contains (ascii "content-length") then do
        let n ← ofExcept (headers.getInt (ascii "content-length"))
        setSelf fun s => { s with incomingContentRemaining := some n }
      else pure () : OnStream Unit) Q E c ↔ headers.HasLength ∧ q := by
    rw [HTTPHeaders.HasLength]
    cases hcontains : headers.contains (ascii "content-length") with
    | false => simpa using hQ c.self.incomingContentRemaining
    | true =>
      rw [if_pos rfl, wp_bind, wp_ofExcept]
      cases hint : headers.getInt (ascii "content-length") with
      | ok n => simpa [setSelf] using hQ (some n)
      | error e =>
        have hlocal : e.isLocal := by
          have : LocalResult (headers.getInt (ascii "content-length")) := HTTPHeaders.getInt_local
          rw [hint] at this
          exact this ()
        simpa using hE e hlocal c
  have hbodiless (bodiless : Bool) : wp (if bodiless then setSelf fun s => { s with incomingContentRemaining := some 0 }
      else if headers.contains (ascii "content-length") then do
        let n ← ofExcept (headers.getInt (ascii "content-length"))
        setSelf fun s => { s with incomingContentRemaining := some n }
      else pure () : OnStream Unit) Q E c ↔ (bodiless = true ∨ headers.HasLength) ∧ q := by
    cases bodiless with
    | false => simpa using hlength
    | true => simpa [setSelf] using hQ (some 0)
  rw [setIncomingContent, wp_bind, isBodilessResponse, wp_bind, wp_get]
  cases startLine with
  | request => simpa [Countable] using hbodiless false
  | response code =>
    cases hstart : c.self.requestStartLine with
    | none => simp [Countable, hstart, hE .attributeError trivial c]
    | some request =>
      obtain ⟨method, path⟩ := request
      simp only [wp_pure]
      rw [hbodiless]
      simp [Countable, hstart, or_assoc]

/-- The rest of `_start_request`, once there is a start line. -/
theorem tellHeaders_answers (hI : ∀ c, c.Delegated → I c) {startLine : StartLine (Option Bytes)}
    {headers : HTTPHeaders (Option Bytes)} :
    EndsAnswered I (do
      setIncomingContent startLine headers
      when (isFinal startLine = true) (setSelf fun s => { s with phase := .body })
      setSelf fun s => { s with delegateStarted := true }
      callDelegate (.headersReceived startLine headers)) c ↔
    Countable c startLine headers ∧ c.self.hasDelegate = true := by
  have hcall {c' : Ctx} (hdelegate : c'.self.hasDelegate = c.self.hasDelegate) :
      EndsAnswered I (do
        setSelf fun s => { s with delegateStarted := true }
        callDelegate (.headersReceived startLine headers)) c' ↔ c.self.hasDelegate = true := by
    rw [EndsAnswered, setSelf, wp_bind, wp_modify, ← hdelegate]
    exact callDelegate_answers fun h => hI _ fun _ => h
  rw [EndsAnswered, wp_bind]
  refine setIncomingContent_answers (fun e he c h => h.1 he) fun remaining => ?_
  rw [wp_bind]
  by_cases hfinal : isFinal startLine = true
  · rw [wp_when_of_pos hfinal, setSelf, wp_modify]
    exact hcall rfl
  · rw [wp_when_of_neg hfinal]
    exact hcall rfl

theorem pseudoHeader_present {k : Bytes} (hk : k ∈ [ascii ":method", ascii ":scheme", ascii ":path"])
    (h : ¬ [ascii ":method", ascii ":scheme", ascii ":path"].any (fun k => (p.pseudoHeaders.lookup k).isNone) = true) :
    ∃ v, pseudoHeader p k = .ok v := by
  cases hlookup : p.pseudoHeaders.lookup k with
  | none => exact absurd (List.any_eq_true.mpr ⟨k, hk, by simp [hlookup]⟩) h
  | some v => exact ⟨v, by simp [pseudoHeader, hlookup]⟩

theorem startRequest_answers (hI : ∀ c, c.Delegated → I c) (hc : c.Delegated) :
    EndsAnswered I (startRequest p) c ↔ p.IsInvalid c.conn.isClient ∨ Startable c p := by
  have hanswered {e : PyException} (he : ¬ e.isLocal) : ¬ e.isLocal ∧ I c := ⟨he, hI c hc⟩
  rw [EndsAnswered, startRequest, wp_bind, wp_get]
  by_cases hconnection : p.headers.contains (ascii "connection") = true
  · rw [wp_check_of_pos hconnection]
    exact iff_of_true (hanswered id) (.inl (.inl hconnection))
  rw [wp_check_of_neg hconnection]
  by_cases hte : (p.headers.contains (ascii "te") && p.headers.get (ascii "te") != .ok (some (ascii "trailers"))) = true
  · rw [wp_check_of_pos hte]
    exact iff_of_true (hanswered id) (.inl (.inr (.inl hte)))
  rw [wp_check_of_neg hte, wp_bind, readStartLine, wp_bind, wp_get, Startable]
  have hinvalid {isClient : Bool} : p.IsInvalid isClient ↔ isClient = false ∧
      [ascii ":method", ascii ":scheme", ascii ":path"].any (fun k => (p.pseudoHeaders.lookup k).isNone) = true :=
    (or_iff_right hconnection).trans (or_iff_right hte)
  rw [hinvalid]
  cases hclient : c.conn.isClient with
  | true =>
    rw [if_pos rfl, wp_bind, wp_ofExcept]
    cases hstatus : statusCode p with
    | error e =>
      have hlocal : e.isLocal := statusCode_local.error hstatus
      simp [hlocal]
    | ok code =>
      dsimp only
      rw [wp_pure]
      refine (tellHeaders_answers hI).trans ?_
      simp [and_comm]
  | false =>
    rw [if_neg Bool.false_ne_true]
    by_cases hmissing : [ascii ":method", ascii ":scheme", ascii ":path"].any
        (fun k => (p.pseudoHeaders.lookup k).isNone) = true
    · rw [wp_check_of_pos hmissing]
      exact iff_of_true (hanswered id) (.inl ⟨rfl, hmissing⟩)
    · rw [wp_check_of_neg hmissing]
      obtain ⟨method, hmethod⟩ := @pseudoHeader_present p (ascii ":method") (by simp) hmissing
      obtain ⟨path, hpath⟩ := @pseudoHeader_present p (ascii ":path") (by simp) hmissing
      rw [wp_bind, hmethod, wp_ofExcept]
      dsimp only
      rw [wp_bind, hpath, wp_ofExcept]
      dsimp only
      rw [setSelf, wp_bind, wp_modify, wp_pure]
      refine (tellHeaders_answers hI).trans ?_
      simp [hmissing, Countable, and_comm]

theorem maybeEndStream_answers (hI : ∀ c, c.Delegated → I c) (hc : c.Delegated) :
    EndsAnswered I (maybeEndStream frame) c := by
  rw [EndsAnswered, maybeEndStream, wp_ite]
  refine ⟨fun _ => ?_, fun _ => hI c hc⟩
  rw [wp_bind, wp_get]
  by_cases hcontent : c.self.incomingContentRemaining.any (· ≠ 0) = true
  · rw [wp_check_of_pos hcontent]
    exact ⟨id, hI c hc⟩
  rw [wp_check_of_neg hcontent, wp_bind]
  by_cases hstarted : c.self.delegateStarted = true
  · rw [wp_when_of_pos hstarted, setSelf, wp_bind, wp_modify]
    have hcall : EndsAnswered Ctx.Delegated (callDelegate .finish) ⟨c.conn, { c.self with delegateStarted := false }⟩ :=
      (callDelegate_answers fun _ h => by cases h).mpr (hc hstarted)
    exact wp_mono hcall (fun _ c' h => hI _ h) fun _ c' h => ⟨h.1, hI _ h.2⟩
  · rw [wp_when_of_neg hstarted]
    exact hI _ hc

theorem endBlock_answers (hI : ∀ c, c.Delegated → I c) (hc : c.Delegated) : EndsAnswered I (endBlock frame) c := by
  rw [EndsAnswered, endBlock, wp_bind]
  refine wp_mono (maybeEndStream_answers (fun _ h => h) hc) (fun ended c' h => ?_) fun _ c' h => ⟨h.1, hI _ h.2⟩
  rw [wp_bind, wp_get, wp_check]
  exact ⟨fun _ => ⟨id, hI _ h⟩, fun _ => hI _ h⟩

theorem takeFields_answers (hI : ∀ c, c.Delegated → I c) (hc : c.Delegated)
    {headers : List (Bytes × Option Bytes × HeaderIndexMode)} :
    EndsAnswered I (takeFields frame headers) c ↔
    Readable c.conn.params.unicode c.conn.isClient c.self.streamId ⟨[], .empty, c.self.phase = .trailers⟩ headers ∧
      ∀ p, addHeaders c.conn.params.unicode c.conn.isClient c.self.streamId
        ⟨[], .empty, c.self.phase = .trailers⟩ headers = .ok p →
        c.self.phase = .headers → p.IsInvalid c.conn.isClient ∨ Startable c p := by
  rw [EndsAnswered, takeFields, wp_bind, wp_get, wp_bind, wp_ofExcept, readable_iff]
  cases addHeaders c.conn.params.unicode c.conn.isClient c.self.streamId
    ⟨[], .empty, c.self.phase = .trailers⟩ headers with
  | error e => simp [hI c hc]
  | ok p =>
    dsimp only
    rw [wp_bind]
    have hfields : ((∀ e, (.ok p : Except PyException ParsedHeaders) = .error e → ¬ e.isLocal) ∧
        ∀ p', (.ok p : Except PyException ParsedHeaders) = .ok p' → c.self.phase = .headers →
          p'.IsInvalid c.conn.isClient ∨ Startable c p') ↔
        (c.self.phase = .headers → p.IsInvalid c.conn.isClient ∨ Startable c p) := by simp
    rw [hfields]
    by_cases hphase : c.self.phase = .headers
    · rw [wp_when_of_pos hphase, forall_prop_of_true hphase]
      constructor
      · intro h
        refine (startRequest_answers (I := fun _ => True) (fun _ _ => trivial) hc).mp ?_
        exact wp_mono h (fun _ _ _ => trivial) fun _ _ h => ⟨h.1, trivial⟩
      · intro h
        have hstart := (startRequest_answers (fun _ h => h) hc).mpr h
        exact wp_mono hstart (fun _ c' h' => endBlock_answers hI h') fun _ c' h' => ⟨h'.1, hI _ h'.2⟩
    · rw [wp_when_of_neg hphase]
      exact iff_of_true (endBlock_answers hI hc) fun h => absurd h hphase

theorem decodeFields_answers (hI : ∀ c, c.Delegated → I c) (hc : c.Delegated) {data : Bytes} :
    EndsAnswered I (decodeHeaders data >>= takeFields frame) c ↔ FieldsReadable c data := by
  rw [EndsAnswered, decodeHeaders, wp_bind, wp_bind, wp_emit, wp_bind, wp_get, FieldsReadable]
  have hsame : (c.logged (.decoded data)).conn.hpackDecoder.decode (c.logged (.decoded data)).conn.huffmanTree data =
      c.conn.hpackDecoder.decode c.conn.huffmanTree data := rfl
  rw [hsame]
  rcases c.conn.hpackDecoder.decode c.conn.huffmanTree data with ⟨e | headers, hpackDecoder, huffmanTree⟩
  · have hraised : ¬ (PyException.connectionError .compressionError none).isLocal ∧
        I { c.logged (.decoded data) with
          conn := { (c.logged (.decoded data)).conn with hpackDecoder, huffmanTree } } :=
      ⟨id, hI _ hc⟩
    exact iff_of_true hraised fun headers h => by cases h
  · have hfields := @takeFields_answers _
      { c.logged (.decoded data) with conn := { (c.logged (.decoded data)).conn with hpackDecoder, huffmanTree } }
      frame hI hc headers
    refine Iff.trans hfields ⟨fun h headers' heq => ?_, fun h => h headers rfl⟩
    cases heq
    exact h

theorem parseBlock_answers (hI : ∀ c, c.Delegated → I c) (hc : c.Delegated) {data : Bytes} :
    EndsAnswered I (parseBlock frame data) c ↔ BlockReadable c frame data := by
  rw [EndsAnswered, parseBlock_eq, wp_bind, stripPriority, BlockReadable]
  split
  · by_cases hlength : data.length < 5
    · rw [wp_check_of_pos hlength]
      exact iff_of_false (fun h => h.1 trivial) fun h => by omega
    · rw [wp_check_of_neg hlength]
      by_cases hself : unpackBytes (data.take 4) &&& 0x7fffffff = frame.streamId
      · rw [wp_check_of_pos hself]
        exact iff_of_true ⟨id, hI c hc⟩ ⟨by omega, fun h => absurd hself h⟩
      · rw [wp_check_of_neg hself, wp_pure]
        exact (decodeFields_answers hI hc).trans ⟨fun h => ⟨by omega, fun _ => h⟩, fun h => h.2 hself⟩
  · exact decodeFields_answers hI hc

/-- A complete block is parsed from its first frame on. -/
theorem parseHeaders_answers (hI : ∀ c, c.Delegated → I c) (hc : c.Delegated) {frames : List Frame}
    (hframes : c.self.headerFrames = frames) (hne : frames ≠ []) :
    EndsAnswered I (when (frame.has .endHeaders = true) parseHeaders) c ↔
      (frame.has .endHeaders = true → ∀ first ∈ frames.head?, BlockReadable c first (frames.flatMap Frame.data)) := by
  rw [EndsAnswered]
  by_cases hend : frame.has .endHeaders = true
  · rw [wp_when_of_pos hend, forall_prop_of_true hend]
    cases frames with
    | nil => exact absurd rfl hne
    | cons first rest =>
      have hparsed := @parseBlock_answers I ⟨c.conn, { c.self with headerFrames := [] }⟩ first hI hc
        ((first :: rest).flatMap Frame.data)
      rw [parseHeaders, wp_bind, wp_get, hframes]
      refine Iff.trans hparsed ⟨fun h f hf => ?_, fun h => h first rfl⟩
      obtain rfl := Option.some.inj hf
      exact h
  · rw [wp_when_of_neg hend]
    exact iff_of_true (hI c hc) fun h => absurd h hend

/-- On an open socket, the answer to a header block over the limit fails only if
the response has more body to come. -/
theorem refusal_exact (hserver : c.conn.isClient = false) (hbounded : c.conn.Bounded) (hopen : c.conn.closed = false)
    (hid : c.self.streamId < 2 ^ 31) (hstart : c.self.requestStartLine = some (some (ascii "GET"), some (ascii "/"))) :
    wp (do
        writeHeaders (.response 431) .empty [] none
        finish)
      (fun _ c' => (∀ n ∈ c.self.outgoingContentRemaining, n = 0) ∧ SendsOnly c.self.streamId c c')
      (fun e _ => e.isLocal ∧ ¬ ∀ n ∈ c.self.outgoingContentRemaining, n = 0) c := by
  have hbodiless : c.self.bodiless (.response 431) = some false := by
    rw [bodiless, hstart]
    rfl
  have hdeclared : c.self.declaredLength (.response 431) .empty = c.self.outgoingContentRemaining := by
    rw [declaredLength, hbodiless]
    rfl
  have hlength : headerBlockLength c (.response 431) .empty < 2 ^ 31 := by
    rw [headerBlockLength]
    split
    · rename_i data hblock
      have hdata := headerBlock_status (c := c.issued .writeHeaders) hbounded.encoder hblock
      omega
    · decide
  have haccepted : Answers c.self (.response 431) .empty := by
    exact ⟨by rw [hbodiless]; rfl, fun _ hcontains => absurd hcontains (by decide)⟩
  have hexact := @writeHeaders_exact c [] none (.response 431) .empty hserver hbounded.encoder.sized hopen hid
  have hsends : SendsOnly c.self.streamId c ((writeHeaders (.response 431) .empty [] none).run c).2 :=
    (writeHeaders_sends c rfl).2
  rw [wp_bind]
  rcases hrun : (writeHeaders (.response 431) .empty [] none).run c with ⟨e | _, c₁⟩
  · exact absurd ⟨haccepted, hlength, fun h => absurd rfl h⟩ ((wp_of_error hrun).mp hexact)
  · refine (wp_of_ok hrun).mpr ?_
    rw [hrun] at hsends
    have hleft : c₁.self.outgoingContentRemaining = c.self.outgoingContentRemaining := by
      rw [((wp_of_ok hrun).mp hexact).2, hdeclared]
      cases c.self.outgoingContentRemaining <;> simp
    have hfinish := @finish_exact c₁
    have hsends' := (finish_sends (i := c.self.streamId) c₁ hsends.acts.self).2
    rw [hleft] at hfinish
    rcases hrun' : finish.run c₁ with ⟨e | _, c₂⟩
    · refine (wp_of_error hrun').mpr ⟨?_, (wp_of_error hrun').mp hfinish⟩
      exact finish_local.error (congrArg Prod.fst hrun')
    · rw [hrun'] at hsends'
      exact (wp_of_ok hrun').mpr ⟨((wp_of_ok hrun').mp hfinish).1, IsTrans.trans _ _ _ hsends hsends'⟩

/-- A header frame that `_check_header_length` can answer if the block is over the
limit, and `_parse_headers` can read if it is complete. -/
def AppendsCleanly (c : Ctx) (frame : Frame) : Prop :=
  (c.conn.params.maxHeaderSize < c.self.headerLength + frame.data.length →
    if c.conn.isClient then c.self.hasDelegate = true else ∀ n ∈ c.self.outgoingContentRemaining, n = 0) ∧
  (frame.has .endHeaders = true → ∀ first ∈ (c.self.headerFrames ++ [frame]).head?,
    BlockReadable c first ((c.self.headerFrames ++ [frame]).flatMap Frame.data))

/-- What a server reads does not depend on what it sends. -/
theorem blockReadable_server {c c' : Ctx} {data : Bytes} (hserver : c.conn.isClient = false)
    (hconn : c'.conn.receiving = c.conn.receiving)
    (hself : (c'.self.streamId, c'.self.hasDelegate, c'.self.phase) =
      (c.self.streamId, c.self.hasDelegate, c.self.phase)) :
    BlockReadable c' frame data ↔ BlockReadable c frame data := by
  obtain ⟨hid, hdelegate, hphase⟩ := by simpa only [Prod.mk.injEq] using hself
  obtain ⟨hclient, hparams, -, -, hdecoder, htree, -⟩ := by simpa only [Conn.receiving, Prod.mk.injEq] using hconn
  simp only [BlockReadable, FieldsReadable, Startable, hid,
    hdelegate, hphase, hclient, hparams, hdecoder, htree, hserver, Bool.false_eq_true, if_false]

theorem appendHeaderFrame_answers (hI : ∀ c, c.Delegated → I c) (hc : c.Delegated) (hbounded : c.conn.Bounded)
    (hopen : c.conn.closed = false) (hid : c.self.streamId < 2 ^ 31) :
    EndsAnswered I (appendHeaderFrame frame) c ↔ AppendsCleanly c frame := by
  have happend {q : Prop} (hq : q ↔ (c.conn.params.maxHeaderSize < c.self.headerLength + frame.data.length →
      if c.conn.isClient then c.self.hasDelegate = true else ∀ n ∈ c.self.outgoingContentRemaining, n = 0)) :
      AppendsCleanly c frame ↔ q ∧ (frame.has .endHeaders = true → ∀ first ∈ (c.self.headerFrames ++ [frame]).head?,
        BlockReadable c first ((c.self.headerFrames ++ [frame]).flatMap Frame.data)) :=
    ⟨fun h => ⟨hq.mpr h.1, h.2⟩, fun h => ⟨hq.mp h.1, h.2⟩⟩
  have hparse {c' : Ctx} (hc' : c'.Delegated) (hframes : c'.self.headerFrames = c.self.headerFrames ++ [frame]) :=
    @parseHeaders_answers I c' frame hI hc' _ hframes (by simp)
  rw [EndsAnswered, appendHeaderFrame, setSelf, wp_bind, wp_modify, wp_bind, checkHeaderLength, wp_bind, wp_get]
  by_cases hover : c.conn.params.maxHeaderSize < c.self.headerLength + frame.data.length
  · have hover' : headerLength { c.self with headerFrames := c.self.headerFrames ++ [frame] } >
        c.conn.params.maxHeaderSize := by rwa [headerLength_append]
    rw [wp_when_of_pos hover']
    cases hclient : c.conn.isClient with
    | true =>
      rw [if_pos rfl, happend (q := c.self.hasDelegate = true) (by simp [hover, hclient]),
        callDelegate, wp_bind, wp_get, wp_bind, wp_check, wp_emit]
      have hcalled := @hparse (logged ⟨c.conn, { c.self with headerFrames := c.self.headerFrames ++ [frame] }⟩
        (.called c.self.streamId .onConnectionClose)) hc rfl
      by_cases hdelegate : c.self.hasDelegate = true
      · exact ⟨fun h => ⟨hdelegate, hcalled.mp (h.2 (by simp [hdelegate]))⟩, fun h =>
          ⟨fun hnone => absurd (hnone.symm.trans hdelegate) Bool.false_ne_true, fun _ => hcalled.mpr h.2⟩⟩
      · exact iff_of_false (fun h => (h.1 (Bool.eq_false_iff.mpr hdelegate)).1 trivial) fun h => hdelegate h.1
    | false =>
      rw [if_neg Bool.false_ne_true, happend (q := ∀ n ∈ c.self.outgoingContentRemaining, n = 0)
        (by simp [hover, hclient]), setSelf, wp_bind, wp_modify]
      have hrefusal := @refusal_exact ⟨c.conn, { c.self with
        headerFrames := c.self.headerFrames ++ [frame]
        requestStartLine := some (some (ascii "GET"), some (ascii "/")) }⟩ hclient hbounded hopen hid rfl
      rcases hrun : (do
          writeHeaders (.response 431) .empty [] none
          finish).run ⟨c.conn, { c.self with
            headerFrames := c.self.headerFrames ++ [frame]
            requestStartLine := some (some (ascii "GET"), some (ascii "/")) }⟩ with ⟨e | _, c'⟩
      · obtain ⟨hlocal, hcontent⟩ := (wp_of_error hrun).mp hrefusal
        exact iff_of_false (fun h => ((wp_of_error hrun).mp h).1 hlocal) fun h => hcontent h.1
      · obtain ⟨hcontent, hsends⟩ := (wp_of_ok hrun).mp hrefusal
        obtain ⟨hid', hdelegate, -, -, hstarted, hframes, hphase, -⟩ := by
          simpa only [Stream.receiving, Prod.mk.injEq] using hsends.self
        refine (wp_of_ok hrun).trans ((hparse (fun h => hdelegate.trans (hc (hstarted.symm.trans h))) hframes).trans ?_)
        have hself : (c'.self.streamId, c'.self.hasDelegate, c'.self.phase) =
            (c.self.streamId, c.self.hasDelegate, c.self.phase) := by rw [hid', hdelegate, hphase]
        simp only [blockReadable_server hclient hsends.conn hself]
        exact (and_iff_right hcontent).symm
  · have hover' : ¬ headerLength { c.self with headerFrames := c.self.headerFrames ++ [frame] } >
        c.conn.params.maxHeaderSize := by rwa [headerLength_append]
    rw [wp_when_of_neg hover', happend (q := True) (by simp [hover]), true_and]
    exact hparse hc rfl

theorem withoutPadding_answered : (∀ e, frame.withoutPadding = .error e → ¬ e.isLocal) ↔
    (frame.has .padded = true → frame.data ≠ []) := by
  rw [Frame.withoutPadding]
  by_cases hpadded : frame.has .padded = true
  · rw [if_pos hpadded, forall_prop_of_true hpadded]
    cases frame.data with
    | nil => simp [PyException.isLocal]
    | cons b rest =>
      dsimp only
      refine iff_of_true (fun e he => ?_) (List.cons_ne_nil _ _)
      split at he
      · split at he <;> cases he <;> exact id
      · cases he
  · rw [if_neg hpadded]
    exact iff_of_true (fun e he => by cases he) fun h => absurd h hpadded

theorem withoutPadding_length {f : Frame} (h : frame.withoutPadding = .ok f) : f.data.length ≤ frame.data.length := by
  rw [Frame.withoutPadding] at h
  split at h
  · split at h
    · cases h
    · dsimp only at h
      split at h
      · split at h <;> cases h
      · cases h
        simp only [slice, List.length_drop, List.length_take]
        omega
  · cases h
    exact le_refl _

theorem sendWindowUpdate_answers {amount : Nat} (hamount : amount < 2 ^ 32) (hopen : c.conn.closed = false)
    (hid : c.self.streamId < 2 ^ 31) (hc : c.Delegated) : EndsAnswered Ctx.Delegated (sendWindowUpdate amount) c := by
  have hpacked : (packBytes 4 amount).length < 2 ^ 31 := by
    rw [show (packBytes 4 amount).length = 4 from rfl]
    decide
  have hwrites {i : Nat} (hi : i < 2 ^ 31) {c : Ctx} (hopen : c.conn.closed = false) :
      (writeFrame ⟨.windowUpdate, 0, i, packBytes 4 amount⟩).run c =
        (.ok (), c.logged (.wrote ⟨.windowUpdate, 0, i, packBytes 4 amount⟩)) :=
    writeFrame_run hpacked hi hopen
  rw [EndsAnswered, sendWindowUpdate, wp_bind, wp_get, wp_check_of_neg (not_le.mpr hamount), wp_bind,
    wp_of_ok (hwrites (by decide) hopen)]
  refine (wp_of_ok (hwrites hid ?_)).mpr hc
  exact hopen

theorem deliverData_answers {later : Bool} {data : Bytes} (hlength : data.length < 2 ^ 32)
    (hopen : c.conn.closed = false) (hid : c.self.streamId < 2 ^ 31) (hc : c.Delegated)
    (hstarted : c.self.delegateStarted = true) : EndsAnswered Ctx.Delegated (deliverData later data) c := by
  rw [EndsAnswered, deliverData, wp_bind]
  have hcalled : EndsAnswered (c.logged (.called c.self.streamId (.dataReceived data)) = ·)
      (callDelegate (.dataReceived data)) c := (callDelegate_answers fun _ => rfl).mpr (hc hstarted)
  refine wp_mono hcalled ?_ fun _ _ h => ⟨h.1, h.2 ▸ hc⟩
  rintro _ _ rfl
  cases later with
  | true => exact hc
  | false => exact sendWindowUpdate_answers hlength hopen hid hc

theorem handleDataFrame_answers {later : Bool} (hI : ∀ c, c.Delegated → I c) (hc : c.Delegated)
    (hopen : c.conn.closed = false) (hid : c.self.streamId < 2 ^ 31) (hlength : frame.data.length < 2 ^ 32) :
    EndsAnswered I (handleDataFrame frame later) c ↔ (c.self.headerFrames = [] → c.self.phase ≠ .trailers →
      frame.has .padded = true → frame.data ≠ []) := by
  by_cases hframes : c.self.headerFrames = []
  · by_cases hphase : c.self.phase = .trailers
    · rw [EndsAnswered, handleDataFrame, wp_bind, wp_get, wp_check_of_neg (not_not.mpr hframes), wp_check_of_pos hphase]
      exact iff_of_true ⟨id, hI c hc⟩ fun _ h => absurd hphase h
    · rw [EndsAnswered, wp_congr (handleDataFrame_run hframes hphase), forall_prop_of_true hframes,
        forall_prop_of_true hphase, ← withoutPadding_answered, wp_bind]
      cases hpadding : frame.withoutPadding with
      | error e => exact ⟨fun h e' he => Except.error.inj he ▸ h.1, fun h => ⟨h e rfl, hI _ hc⟩⟩
      | ok f =>
        refine iff_of_true ?_ fun e he => by cases he
        have hdata : f.data.length < 2 ^ 32 := Nat.lt_of_le_of_lt (withoutPadding_length hpadding) hlength
        have hrest {c' : Ctx} (hc' : c'.Delegated) (hopen' : c'.conn.closed = false) (hid' : c'.self.streamId < 2 ^ 31)
            (hstarted : c'.self.delegateStarted = c.self.delegateStarted) : EndsAnswered I (do
              when (f.data ≠ [] ∧ c.self.delegateStarted = true) (deliverData later f.data)
              let _ ← maybeEndStream f) c' := by
          have hend {c' : Ctx} (hc' : c'.Delegated) : EndsAnswered I (do let _ ← maybeEndStream f) c' := by
            rw [EndsAnswered, wp_bind]
            exact maybeEndStream_answers hI hc'
          rw [EndsAnswered, wp_bind, wp_when]
          refine ⟨fun hdeliver => ?_, fun _ => hend hc'⟩
          exact wp_mono (deliverData_answers hdata hopen' hid' hc' (hstarted.trans hdeliver.2)) (fun _ _ h => hend h)
            fun _ _ h => ⟨h.1, hI _ h.2⟩
        rw [wp_ofExcept]
        dsimp only
        rw [wp_bind, countIncoming, wp_bind, wp_get]
        cases c.self.incomingContentRemaining with
        | none => exact hrest hc hopen hid rfl
        | some remaining =>
          dsimp only
          rw [setSelf, wp_bind, wp_modify, wp_check]
          exact ⟨fun _ => ⟨id, hI _ hc⟩, fun _ => hrest hc hopen hid rfl⟩
  · rw [EndsAnswered, handleDataFrame, wp_bind, wp_get, wp_check_of_pos hframes]
    exact iff_of_true ⟨id, hI c hc⟩ fun h => absurd h hframes

/-- What a frame must be like for a stream to handle or answer it. -/
def Guarded (c : Ctx) (frame : Frame) : Prop :=
  match frame.type with
  | .settings | .goaway | .pushPromise => False
  | .headers => c.self.finished = false → (frame.has .padded = true → frame.data ≠ []) ∧
    ∀ f, frame.withoutPadding = .ok f → AppendsCleanly c.inHeaders f
  | .continuation => c.self.finished = false → c.self.headerFrames ≠ [] → AppendsCleanly c frame
  | .data => c.self.finished = false → c.self.headerFrames = [] → c.self.phase ≠ .trailers →
    frame.has .padded = true → frame.data ≠ []
  | _ => True

theorem handleHeadersFrame_answers (hI : ∀ c, c.Delegated → I c) (hc : c.Delegated) (hbounded : c.conn.Bounded)
    (hopen : c.conn.closed = false) (hid : c.self.streamId < 2 ^ 31) :
    EndsAnswered I (handleHeadersFrame frame) c ↔ (frame.has .padded = true → frame.data ≠ []) ∧
      ∀ f, frame.withoutPadding = .ok f → AppendsCleanly c.inHeaders f := by
  rw [EndsAnswered, wp_congr handleHeadersFrame_run, ← withoutPadding_answered, wp_bind, wp_ofExcept]
  cases hpadding : frame.withoutPadding with
  | error e =>
    refine ⟨fun h => ⟨fun e' he => Except.error.inj he ▸ h.1, fun f hf => (by cases hf)⟩, fun h => ⟨h.1 e rfl, hI _ hc⟩⟩
  | ok f =>
    have happend := @appendHeaderFrame_answers I c.inHeaders f hI hc hbounded hopen hid
    refine Iff.trans happend ⟨fun h => ⟨fun e he => (by cases he), fun g hg => ?_⟩, fun h => h.2 f rfl⟩
    cases hg
    exact h

theorem handleContinuationFrame_answers (hI : ∀ c, c.Delegated → I c) (hc : c.Delegated) (hbounded : c.conn.Bounded)
    (hopen : c.conn.closed = false) (hid : c.self.streamId < 2 ^ 31) :
    EndsAnswered I (handleContinuationFrame frame) c ↔ (c.self.headerFrames ≠ [] → AppendsCleanly c frame) := by
  rw [EndsAnswered, handleContinuationFrame, wp_bind, wp_get]
  by_cases hframes : c.self.headerFrames = []
  · rw [wp_check_of_pos hframes]
    exact iff_of_true ⟨id, hI c hc⟩ fun h => absurd hframes h
  · rw [wp_check_of_neg hframes, forall_prop_of_true hframes]
    exact appendHeaderFrame_answers hI hc hbounded hopen hid

/-- A method of a window raises the errors of the protocol. -/
theorem applyWindowUpdate_raises : Raises (fun e => ¬ e.isLocal) (Window.applyWindowUpdate frame) := by
  have hraise {α : Type} {code : ErrorCode} {message : String} :
      Raises (fun e => ¬ e.isLocal) (Window.raiseError code message : Prog Window PyException α) :=
    .get_bind fun w => by cases w.streamId <;> exact .raise id
  rw [Window.applyWindowUpdate]
  cases unpackWord frame.data with
  | error => exact .raise id
  | ok n =>
    exact .bind (.when hraise) fun _ => .bind (.bind .modify fun _ => .get_bind fun _ => .bind (.when hraise) fun _ =>
      .modify) fun _ => .pure _

theorem handleFrame_answers {later : Bool} (hI : ∀ c, c.Delegated → I c) (hc : c.Delegated) (hbounded : c.conn.Bounded)
    (hopen : c.conn.closed = false) (hid : c.self.streamId < 2 ^ 31) (hlength : frame.data.length < 2 ^ 32) :
    EndsAnswered I (handleFrame frame later) c ↔ Guarded c frame := by
  have hended : EndsAnswered I (raise (.streamError c.self.streamId .streamClosed) : OnStream Unit) c := ⟨id, hI c hc⟩
  have hcheck {m : OnStream Unit} {p : Prop} (h : EndsAnswered I m c ↔ p) :
      EndsAnswered I (if c.self.finished = true then raise (.streamError c.self.streamId .streamClosed) else m) c ↔
        (c.self.finished = false → p) := by
    cases hfinished : c.self.finished with
    | true => exact iff_of_true hended fun h => by cases h
    | false => simpa using h
  rw [Guarded]
  cases htype : frame.type with
  | headers =>
    exact (wp_congr (handleFrame_headers htype)).trans
      (hcheck (handleHeadersFrame_answers hI hc hbounded hopen hid))
  | continuation =>
    exact (wp_congr (handleFrame_continuation htype)).trans
      (hcheck (handleContinuationFrame_answers hI hc hbounded hopen hid))
  | data =>
    exact (wp_congr (handleFrame_data htype)).trans (hcheck (handleDataFrame_answers hI hc hopen hid hlength))
  | settings | goaway | pushPromise =>
    refine iff_of_false (fun h => ?_) id
    rw [EndsAnswered, handleFrame, wp_bind, wp_get, htype] at h
    exact h.1 trivial
  | priority =>
    refine iff_of_true ?_ trivial
    rw [EndsAnswered, handleFrame, wp_bind, wp_get, htype]
    dsimp only
    rw [handlePriorityFrame, wp_bind, wp_get, wp_check]
    exact ⟨fun _ => ⟨id, hI c hc⟩, fun _ => hI c hc⟩
  | rstStream =>
    refine iff_of_true ?_ trivial
    rw [EndsAnswered, handleFrame, wp_bind, wp_get, htype]
    dsimp only
    rw [handleRstStreamFrame, wp_bind, wp_get, wp_bind, wp_check]
    refine ⟨fun _ => ⟨id, hI c hc⟩, fun _ => ?_⟩
    rw [wp_when]
    exact ⟨fun hstarted => (callDelegate_answers fun _ => hI _ hc).mpr (hc hstarted), fun _ => hI c hc⟩
  | windowUpdate =>
    refine iff_of_true ?_ trivial
    rw [EndsAnswered, handleFrame, wp_bind, wp_get, htype]
    dsimp only
    rw [handleWindowUpdateFrame, wp_bind, wp_get, wp_bind, wp_zoom]
    exact wp_mono (applyWindowUpdate_raises _) (fun _ _ _ => hI _ hc) fun _ _ h => ⟨h, hI _ hc⟩
  | ping | unknown =>
    refine iff_of_true ?_ trivial
    rw [EndsAnswered, handleFrame, wp_bind, wp_get, htype]
    dsimp only
    rw [wp_bind, wp_check]
    exact ⟨fun _ => ⟨id, hI c hc⟩, fun _ => hI c hc⟩

theorem method_delegated {a : System.Action} {i : Nat} {m : OnStream Unit} (ha : a.method = some (i, m))
    (hc : c.Delegated) : (m.run c).2.Delegated := by
  have hsends {c c' : Ctx} (h : SendsOnly c.self.streamId c c') (hc : c.Delegated) : c'.Delegated := by
    obtain ⟨-, hdelegate, -, -, hstarted, -⟩ := by simpa only [Stream.receiving, Prod.mk.injEq] using h.self
    rw [Ctx.Delegated, hdelegate, hstarted]
    exact hc
  rcases method_sends ha with h | ⟨k, rfl⟩
  · exact hsends (h _ c rfl).2 hc
  · refine wp_state.mp ?_
    rw [resolveData, wp_bind, wp_get]
    cases c.self.pendingCredits[k]? with
    | none => exact hc
    | some amount =>
      have hreturns : Keeps Ctx.Delegated Anything (sendWindowUpdate amount) :=
        .get_bind fun _ _ => .bind .check fun _ => .bind (fun _ hc => ⟨hc, trivial⟩) fun _ => fun _ hc => ⟨hc, trivial⟩
      dsimp only
      rw [setSelf, wp_bind, wp_modify]
      exact wp_state.mpr (hreturns ⟨c.conn, { c.self with pendingCredits := c.self.pendingCredits.eraseIdx k }⟩ hc).1

end Stream

/-! The frames of the connection. -/

/-- A frame is handled, or answered with RST_STREAM or GOAWAY; a GOAWAY ends the
connection. -/
def Frame.IsAnswered (frame : Frame) : Except PyException Unit → Prop
  | .ok () => True
  | .error e => ¬ e.isLocal ∨ e = .streamClosedError ∧ frame.type = .goaway ∧ frame.streamId = 0

namespace Conn

variable {c : Conn} {frame : Frame}

theorem refusedSetting_answered {code value : Nat} {e : PyException} (h : refusedSetting code value = some e) :
    ¬ e.isLocal := by
  rw [refusedSetting] at h
  split_ifs at h <;> cases h <;> exact id

theorem applySettings_answers : ∀ (data : Bytes) {c : Conn}, c.closed = false →
    wp (applySettings data) (fun _ c' => c'.closed = false) (fun e _ => ¬ e.isLocal) c
  | [], _, hopen => hopen
  | b₀ :: b₁ :: b₂ :: b₃ :: b₄ :: b₅ :: data, c, hopen => by
    rw [applySettings]
    cases hrefused : refusedSetting (unpackBytes [b₀, b₁]) (unpackBytes [b₂, b₃, b₄, b₅]) with
    | some e =>
      exact refusedSetting_answered hrefused
    | none =>
      dsimp only
      rw [wp_bind, wp_modify]
      exact applySettings_answers data hopen
  | [_], _, _ => id
  | [_, _], _, _ => id
  | [_, _, _], _, _ => id
  | [_, _, _, _], _, _ => id
  | [_, _, _, _, _], _, _ => id

theorem writeFrame_answers {E : PyException → Conn → Prop}
    (hopen : c.closed = false) (hlength : frame.data.length < 2 ^ 31)
    (hid : frame.streamId < 2 ^ 31) : wp (writeFrame frame) (fun _ _ => True) E c := by
  rw [writeFrame, wp_check_of_neg (by omega), wp_bind, wp_get, wp_check_of_neg (by simp [hopen])]
  trivial

theorem handleFrame_answers (hopen : c.closed = false) (hid : frame.streamId = 0) :
    frame.IsAnswered ((handleFrame frame).run c).1 := by
  have hanswers : wp (handleFrame frame) (fun _ _ => True) (fun e _ => frame.IsAnswered (.error e)) c := by
    rw [handleFrame]
    cases htype : frame.type with
    | settings =>
      dsimp only
      rw [handleSettingsFrame, wp_ite]
      refine ⟨fun _ => ?_, fun _ => ?_⟩
      · rw [wp_check]
        exact ⟨fun _ => .inl id, fun _ => trivial⟩
      · rw [wp_bind]
        refine wp_mono (applySettings_answers frame.data hopen) (fun _ c' hopen' => ?_) fun _ _ he => .inl he
        exact writeFrame_answers hopen' (by decide) (by decide)
    | windowUpdate =>
      dsimp only
      rw [handleWindowUpdateFrame, wp_bind, wp_zoom]
      exact wp_mono (Stream.applyWindowUpdate_raises _) (fun _ _ _ => trivial) fun _ _ he => .inl he
    | ping =>
      dsimp only
      rw [handlePingFrame, wp_ite]
      refine ⟨fun _ => trivial, fun _ => ?_⟩
      rw [wp_bind, wp_check]
      refine ⟨fun _ => .inl id, fun hlength => ?_⟩
      have hlength : frame.data.length = 8 := not_not.mp hlength
      exact writeFrame_answers hopen (by dsimp only; omega) (Nat.two_pow_pos 31)
    | goaway => exact .inr ⟨rfl, htype, hid⟩
    | unknown => trivial
    | _ => exact .inl id
  rcases hrun : (handleFrame frame).run c with ⟨e | _, c'⟩
  · exact (wp_of_error hrun).mp hanswers
  · trivial

end Conn

namespace System

variable {s : System} {frame : Frame} {later : Bool}

/-- The frame reaches a stream, maybe a new one. -/
def Finds (s : System) (frame : Frame) : Prop :=
  s.Reads frame ∧ frame.streamId ≠ 0 ∧ ((s.streams frame.streamId).isSome = true ∨
    s.conn.isClient = false ∧ frame.type = .headers ∧ frame.streamId % 2 ≠ s.conn.nextStreamId % 2)

/-- What a frame must be like for the connection to handle or answer it. -/
def Guarded (s : System) (frame : Frame) : Prop :=
  s.Finds frame → Stream.Guarded ⟨s.conn, s.streamOf frame⟩ frame

theorem delegated_update {streams : Nat → Option Stream} {new : Stream} {j : Nat}
    (hnew : new.delegateStarted = true → new.hasDelegate = true)
    (hold : ∀ i self, streams i = some self → self.delegateStarted = true → self.hasDelegate = true) :
    ∀ i self, Function.update streams j (some new) i = some self →
      self.delegateStarted = true → self.hasDelegate = true := by
  intro i self hself
  by_cases hi : i = j
  · subst hi
    rw [Function.update_self] at hself
    cases hself
    exact hnew
  · rw [Function.update_of_ne hi] at hself
    exact hold i self hself

/-- As long as the connection reads, only streams with a delegate are started. -/
structure Sound (s : System) : Prop where
  wellFormed : s.WellFormed
  bounded : s.conn.Bounded
  delegated : s.loop = .running → s.conn.closed = false → ∀ i self, s.streams i = some self →
    self.delegateStarted = true → self.hasDelegate = true

/-- An answer on a stream is an error of the protocol. -/
theorem isAnswered_iff (hne : frame.streamId ≠ 0) {m : OnStream Unit} {c : Ctx} :
    frame.IsAnswered (m.run c).1 ↔ EndsAnswered (fun _ => True) m c := by
  rw [EndsAnswered, wp]
  rcases (m.run c).1 with e | _
  · simp [Frame.IsAnswered, hne]
  · exact Iff.rfl

theorem stream_answered (hne : frame.streamId ≠ 0) {c : Ctx} (hc : c.Delegated) (hbounded : c.conn.Bounded)
    (hopen : c.conn.closed = false) (hid : c.self.streamId < 2 ^ 31) (hlength : frame.data.length < 2 ^ 32) :
    (frame.IsAnswered ((Stream.handleFrame frame later).run c).1 ↔ Stream.Guarded c frame) ∧
      (frame.IsAnswered ((Stream.handleFrame frame later).run c).1 →
        ((Stream.handleFrame frame later).run c).2.Delegated) := by
  have hguarded : frame.IsAnswered ((Stream.handleFrame frame later).run c).1 ↔ Stream.Guarded c frame :=
    (isAnswered_iff hne).trans (Stream.handleFrame_answers (fun _ _ => trivial) hc hbounded hopen hid hlength)
  refine ⟨hguarded, fun hr => ?_⟩
  have hends : EndsAnswered Ctx.Delegated (Stream.handleFrame frame later) c :=
    (Stream.handleFrame_answers (fun _ h => h) hc hbounded hopen hid hlength).mpr (hguarded.mp hr)
  exact wp_state.mp (wp_mono hends (fun _ _ h => h) fun _ _ h => h.2)

theorem Sound.start (isClient : Bool) (params : Params) : Sound (System.start isClient params) where
  wellFormed := .start isClient params
  bounded := bounded_start isClient params
  delegated := fun _ _ i self h => by cases h

/-- What the handlers make of a frame is answered exactly if the frame is guarded;
and then the streams that are started keep a delegate. -/
theorem Sound.handled (h : Sound s) (hloop : s.loop = .running) (hopen : s.conn.closed = false)
    (hid : frame.streamId < 2 ^ 31) {r : Except PyException Unit} {s' : System} (hh : Handled s frame later r s') :
    (frame.IsAnswered r ↔ s.Guarded frame) ∧ (frame.IsAnswered r → ∀ i self, s'.streams i = some self →
      self.delegateStarted = true → self.hasDelegate = true) := by
  have hdelegated := h.delegated hloop hopen
  have unfound (hr : frame.IsAnswered r) (hfinds : ¬ s.Finds frame) (hstreams : s'.streams = s.streams) :
      (frame.IsAnswered r ↔ s.Guarded frame) ∧ (frame.IsAnswered r → ∀ i self, s'.streams i = some self →
        self.delegateStarted = true → self.hasDelegate = true) :=
    ⟨iff_of_true hr fun hf => absurd hf hfinds, fun _ => hstreams ▸ hdelegated⟩
  have absent (hself : s.streams frame.streamId = none) (hf : s.Finds frame) :
      s.conn.isClient = false ∧ frame.type = .headers ∧ frame.streamId % 2 ≠ s.conn.nextStreamId % 2 :=
    hf.2.2.resolve_left (by simp [hself])
  cases hh with
  | oversized hsize => exact unfound (.inl id) (fun hf => absurd hf.1.2.1 (not_le.mpr hsize)) rfl
  | interrupted _ hblock => exact unfound (.inl id) (fun hf => by simp [hf.1.2.2] at hblock) rfl
  | passed hsize hblock hd =>
    have hreads : s.Reads frame := ⟨hloop, hsize, hblock⟩
    have hlength : frame.data.length < 2 ^ 32 := Nat.lt_of_le_of_lt (hsize.trans h.bounded.max) (by decide)
    cases hd with
    | conn hzero => exact unfound (Conn.handleFrame_answers hopen hzero) (fun hf => hf.2.1 hzero) rfl
    | @stream self hne hself =>
      have hsame : s.Guarded frame ↔ Stream.Guarded ⟨s.conn, self⟩ frame := by
        rw [Guarded, forall_prop_of_true ⟨hreads, hne, .inl (Option.isSome_iff_exists.mpr ⟨self, hself⟩)⟩, streamOf,
          show s.streams frame.streamId = some self from hself, Option.getD_some]
      have hstream := @stream_answered frame later hne ⟨(s.logged (.received frame)).conn, self⟩
        (hdelegated _ self hself) ⟨h.bounded.min, h.bounded.max, h.bounded.encoder⟩ hopen
        ((h.wellFormed.streamId hself).symm ▸ hid) hlength
      have hlogged : Stream.Guarded ⟨(s.logged (.received frame)).conn, self⟩ frame ↔
          Stream.Guarded ⟨s.conn, self⟩ frame :=
        Iff.rfl
      refine ⟨(hstream.1.trans hlogged).trans hsame.symm, fun hr => delegated_update (hstream.2 hr) hdelegated⟩
    | accepted hne hself hserver htype hremote =>
      have hsame : s.Guarded frame ↔ Stream.Guarded ⟨s.conn, .new s.conn frame.streamId true⟩ frame := by
        rw [Guarded, forall_prop_of_true ⟨hreads, hne, .inr ⟨hserver, htype, hremote⟩⟩, streamOf,
          show s.streams frame.streamId = none from hself, Option.getD_none]
      have hstream := @stream_answered frame later hne
        ⟨((s.logged (.received frame)).accepted frame).conn, .new s.conn frame.streamId true⟩ (fun _ => rfl)
        ⟨h.bounded.min, h.bounded.max, h.bounded.encoder⟩ hopen hid hlength
      have hlogged : Stream.Guarded ⟨((s.logged (.received frame)).accepted frame).conn,
          .new s.conn frame.streamId true⟩ frame ↔
          Stream.Guarded ⟨s.conn, .new s.conn frame.streamId true⟩ frame := Iff.rfl
      exact ⟨(hstream.1.trans hlogged).trans hsame.symm,
        fun hr => delegated_update (hstream.2 hr) (delegated_update (fun _ => rfl) hdelegated)⟩
    | invalid _ hself hlocal =>
      exact unfound (.inl id) (fun hf => (absent hself hf).2.2 hlocal) rfl
    | ignored _ hself htype =>
      refine unfound trivial (fun hf => ?_) rfl
      rcases htype with htype | htype <;> cases (absent hself hf).2.1.symm.trans htype
    | past _ hself hclient =>
      refine unfound (.inl id) (fun hf => ?_) rfl
      cases (absent hself hf).1.symm.trans (hclient (absent hself hf).2.1)
    | future _ hself hclient =>
      refine unfound (.inl id) (fun hf => ?_) rfl
      cases (absent hself hf).1.symm.trans (hclient (absent hself hf).2.1)

/-- A closed socket stays closed. -/
theorem Handled.closed (hw : s.WellFormed) {r : Except PyException Unit} {s' : System} (hh : Handled s frame later r s')
    (h : s.conn.closed = true) : s'.conn.closed = true := by
  have hacts {c : Ctx} (hid : c.self.streamId = frame.streamId) (hc : c.conn.closed = true) :
      ((Stream.handleFrame frame later).run c).2.conn.closed = true :=
    (congrArg (fun t => t.2.2.2.2) (Stream.handleFrame_acts frame later c hid).2.conn).trans hc
  cases hh with
  | oversized => exact h
  | interrupted => exact h
  | passed _ _ hd =>
    cases hd with
    | conn =>
      have hconn : Keeps (fun c : Conn => c.closed = true) Anything (Conn.handleFrame frame) :=
        Conn.handleFrame_keeps (fun _ _ _ _ _ hc => ⟨hc, trivial⟩) (fun _ _ _ hc _ => ⟨hc, trivial⟩)
          (fun _ _ => ⟨rfl, trivial⟩) fun _ => .bind (fun _ hc => ⟨hc, trivial⟩) fun _ => fun _ hc => ⟨hc, trivial⟩
      exact (hconn (s.logged (.received frame)).conn h).1
    | stream _ hself => exact hacts (hw.streamId hself) h
    | accepted => exact hacts rfl h
    | _ => exact h

/-- A frame that a peer can send: `_read_frame` strips the reserved bit. -/
def Action.OnWire : Action → Prop
  | .receive frame _ => frame.streamId < 2 ^ 31
  | _ => True

theorem Sound.step (h : Sound s) {a : Action} (ha : a.OnWire) : Sound (s.step a) := by
  refine ⟨h.wellFormed.step a, bounded_step h.wellFormed h.bounded a, ?_⟩
  have hs := step_cases s a
  revert hs
  generalize s.step a = s'
  intro hs hloop' hopen'
  cases hs with
  | @received frame later r s₁ _ hloop hh hanswer =>
    have hopen (h₁ : s₁.conn.closed = false) : s.conn.closed = false := by
      by_contra hclosed
      have := hh.closed h.wellFormed (Bool.eq_true_of_not_eq_false hclosed)
      exact Bool.false_ne_true (h₁.symm.trans this)
    cases hanswer with
    | nothing => exact (h.handled hloop (hopen hopen') ha hh).2 trivial
    | reset hopen₁ => exact (h.handled hloop (hopen hopen₁) ha hh).2 (.inl id)
    | goaway => cases hloop'
    | ended => cases hloop'
  | created => exact delegated_update (fun hstarted => by cases hstarted) (h.delegated hloop' hopen')
  | upgraded => exact delegated_update (fun hstarted => by cases hstarted) (h.delegated hloop' hopen')
  | closed => cases hopen'
  | @method _ i m self hm hself =>
    have hid : self.streamId = i := h.wellFormed.streamId hself
    have hopen : s.conn.closed = false :=
      (congrArg (fun t => t.2.2.2.2) (Stream.method_acts hm ⟨s.conn, self⟩ hid).2.conn).symm.trans hopen'
    refine delegated_update (Stream.method_delegated hm ?_) (h.delegated hloop' hopen)
    exact h.delegated hloop' hopen i self hself
  | idle => exact h.delegated hloop' hopen'

/-- A byte of DATA with two of padding. -/
def paddedData : Frame := ⟨.data, 0x8, 1, [2, 7, 0, 0]⟩

end System

end TornadoHttp2
