import TornadoHttp2.HeaderFields
import TornadoHttp2.Writers

/-! The messages that the delegate is told of. A server's request is handed on
exactly when its header list is well formed. -/

namespace TornadoHttp2

open Prog Ctx

/-- A message that a delegate is told of, with its stream. -/
abbrev ReceivedMessage := Nat × StartLine (Option Bytes) × HTTPHeaders (Option Bytes)

/-- The messages that the delegates were told of. -/
def Event.message : Event → Option ReceivedMessage
  | called streamId (.headersReceived startLine headers) => some (streamId, startLine, headers)
  | _ => none

def messages (log : List Event) : List ReceivedMessage := log.filterMap Event.message

/-- The error that answers a malformed message, on its stream or on the connection. -/
def PyException.isProtocolError : PyException → Prop
  | .streamError _ code => code = .protocolError
  | .connectionError code _ => code = .protocolError
  | _ => False

namespace Stream

/-- The start line that the pseudo-headers give. -/
def ParsedHeaders.HasStartLine (isClient : Bool) (p : ParsedHeaders) : StartLine (Option Bytes) → Prop
  | .request method path => isClient = false ∧ p.pseudoHeaders.lookup (ascii ":method") = some method ∧
      p.pseudoHeaders.lookup (ascii ":path") = some path
  | .response code => isClient = true ∧ statusCode p = .ok code

variable {c : Ctx} {p : ParsedHeaders} {startLine : StartLine (Option Bytes)} {headers : HTTPHeaders (Option Bytes)}

theorem readStartLine_run (hvalid : ¬ p.IsInvalid c.conn.isClient) (hline : p.HasStartLine c.conn.isClient startLine) :
    ∃ requestStartLine, (readStartLine p).run c = (.ok startLine, ⟨c.conn, { c.self with requestStartLine }⟩) ∧
      (c.conn.isClient = true → requestStartLine = c.self.requestStartLine) ∧
      (c.conn.isClient = false → requestStartLine.isSome = true) := by
  cases startLine with
  | request method path =>
    obtain ⟨hclient, hmethod, hpath⟩ := hline
    have hpresent : ¬ [ascii ":method", ascii ":scheme", ascii ":path"].any
        (fun k => (p.pseudoHeaders.lookup k).isNone) = true :=
      fun h => hvalid (.inr (.inr ⟨hclient, h⟩))
    refine ⟨some (method, path), ?_, fun h => absurd h (by simp [hclient]), fun _ => rfl⟩
    simp only [readStartLine, run_get_bind, hclient, Bool.false_eq_true,
      if_false, check, when, if_neg hpresent, pseudoHeader, hmethod, hpath]
    rfl
  | response code =>
    obtain ⟨hclient, hstatus⟩ := hline
    refine ⟨c.self.requestStartLine, ?_, fun _ => rfl, fun h => absurd h (by simp [hclient])⟩
    simp only [readStartLine, run_get_bind, hclient, if_true, hstatus]
    rfl

theorem setIncomingContent_run (h : Countable c startLine headers) : ∃ incomingContentRemaining,
    (setIncomingContent startLine headers).run c = (.ok (), ⟨c.conn, { c.self with incomingContentRemaining }⟩) := by
  have hbodiless : ∃ bodiless, (isBodilessResponse startLine).run c = (.ok bodiless, c) ∧
      (bodiless = false → headers.HasLength) := by
    cases startLine with
    | request => exact ⟨false, rfl, fun _ => h⟩
    | response code =>
      obtain ⟨method, path, hstart, hlength⟩ := h
      refine ⟨decide (method = some (ascii "HEAD") ∨ code = 304), ?_, fun hb => ?_⟩
      · simp only [isBodilessResponse, run_get_bind, hstart]
        rfl
      · have hnot := of_decide_eq_false hb
        tauto
  obtain ⟨bodiless, hrun, hlength⟩ := hbodiless
  rw [setIncomingContent, bind_ok hrun]
  cases bodiless with
  | true => exact ⟨some 0, rfl⟩
  | false =>
    rw [if_neg Bool.false_ne_true]
    by_cases hcontains : headers.contains (ascii "content-length") = true
    · obtain ⟨n, hn⟩ := hlength rfl hcontains
      rw [if_pos hcontains, hn]
      exact ⟨some n, rfl⟩
    · rw [if_neg hcontains]
      exact ⟨c.self.incomingContentRemaining, rfl⟩

/-- A message that nothing is wrong with reaches the delegate. -/
theorem startRequest_run (hdelegate : c.self.hasDelegate = true) (hvalid : ¬ p.IsInvalid c.conn.isClient)
    (hline : p.HasStartLine c.conn.isClient startLine) (hcount : Countable c startLine p.headers) :
    ∃ requestStartLine incomingContentRemaining, (startRequest p).run c = (.ok (), Ctx.logged ⟨c.conn, { c.self with
      requestStartLine
      incomingContentRemaining
      phase := if isFinal startLine then .body else c.self.phase
      delegateStarted := true }⟩ (.called c.self.streamId (.headersReceived startLine p.headers))) ∧
      (c.conn.isClient = true → requestStartLine = c.self.requestStartLine) ∧
      (c.conn.isClient = false → requestStartLine.isSome = true) := by
  have hconnection : ¬ p.headers.contains (ascii "connection") = true := fun h => hvalid (.inl h)
  have hte :
      ¬ (p.headers.contains (ascii "te") && p.headers.get (ascii "te") != .ok (some (ascii "trailers"))) = true :=
    fun h => hvalid (.inr (.inl h))
  obtain ⟨requestStartLine, hread, hsame, hstarted⟩ := readStartLine_run hvalid hline
  have hcount' : Countable ⟨c.conn, { c.self with requestStartLine }⟩ startLine p.headers := by
    cases startLine with
    | request => exact hcount
    | response code => rwa [Countable, hsame hline.1]
  obtain ⟨incomingContentRemaining, hset⟩ := setIncomingContent_run hcount'
  refine ⟨requestStartLine, incomingContentRemaining, ?_, hsame, hstarted⟩
  rw [startRequest, run_get_bind, run_check_of_neg hconnection, run_check_of_neg hte, bind_ok hread, bind_ok hset]
  cases hfinal : isFinal startLine <;>
    simp only [when, setSelf, callDelegate, run_modify_bind, run_pure_bind, run_get_bind, hdelegate, if_true,
      if_false, Bool.false_eq_true, check, Bool.true_eq_false] <;> rfl

theorem startRequest_invalid (h : p.IsInvalid c.conn.isClient) :
    ∃ e, (startRequest p).run c = (.error e, c) ∧ e.isProtocolError := by
  rw [startRequest, run_get_bind]
  by_cases hconnection : p.headers.contains (ascii "connection") = true
  · exact ⟨_, run_check_of_pos hconnection _ c, rfl⟩
  rw [run_check_of_neg hconnection]
  by_cases hte : (p.headers.contains (ascii "te") && p.headers.get (ascii "te") != .ok (some (ascii "trailers"))) = true
  · exact ⟨_, run_check_of_pos hte _ c, rfl⟩
  rw [run_check_of_neg hte]
  obtain ⟨hclient, hmissing⟩ := (h.resolve_left hconnection).resolve_left hte
  have hread : (readStartLine p).run c = (.error (.streamError c.self.streamId .protocolError), c) := by
    rw [readStartLine, run_get_bind, if_neg (by simp [hclient]), run_check_of_pos hmissing]
  exact ⟨_, bind_error hread _, rfl⟩

/-- The header list of a message that a peer of this role can be told of. -/
structure WellFormedHeaders (u : Unicode) (isClient : Bool) (fields : List Field) : Prop where
  ordered : Ordered isClient fields
  present : isClient = false → ∀ k ∈ [ascii ":method", ascii ":scheme", ascii ":path"], k ∈ fields.map (·.1)
  connection : valuesOf u (messageFields fields) (ascii "Connection") = []
  te : combined u (messageFields fields) (ascii "Te") = none ∨
    combined u (messageFields fields) (ascii "Te") = some (ascii "trailers")

variable {u : Unicode} {isClient : Bool} {fields : List Field}

theorem valid_iff (h : Ordered isClient fields) :
    ¬ (parsedFields u fields).IsInvalid isClient ↔ WellFormedHeaders u isClient fields := by
  have hconnection : (parsedFields u fields).headers.contains (ascii "connection") = true ↔
      ¬ valuesOf u (messageFields fields) (ascii "Connection") = [] := HTTPHeaders.ofFields_contains
  have hte : (((parsedFields u fields).headers.contains (ascii "te") &&
      (parsedFields u fields).headers.get (ascii "te") != .ok (some (ascii "trailers"))) = true) ↔
      ¬ (combined u (messageFields fields) (ascii "Te") = none ∨
        combined u (messageFields fields) (ascii "Te") = some (ascii "trailers")) := by
    have hcontains : (parsedFields u fields).headers.contains (ascii "te") = true ↔
        ¬ valuesOf u (messageFields fields) (ascii "Te") = [] := HTTPHeaders.ofFields_contains
    have hget : (parsedFields u fields).headers.get (ascii "te") =
        (combined u (messageFields fields) (ascii "Te")).elim (.error .keyError) fun v => .ok (some v) :=
      HTTPHeaders.ofFields_get
    rw [Bool.and_eq_true, hcontains, hget, combined]
    by_cases hnil : valuesOf u (messageFields fields) (ascii "Te") = []
    · simp [hnil]
    · simp [hnil]
  have hpresent : ([ascii ":method", ascii ":scheme", ascii ":path"].any
      (fun k => ((parsedFields u fields).pseudoHeaders.lookup k).isNone) = true) ↔
      ¬ ∀ k ∈ [ascii ":method", ascii ":scheme", ascii ":path"], k ∈ fields.map (·.1) := by
    have hpseudo : ∀ k ∈ [ascii ":method", ascii ":scheme", ascii ":path"], isPseudo k = true := by decide
    have habsent (k : Bytes) (hk : k ∈ [ascii ":method", ascii ":scheme", ascii ":path"]) :
        ((parsedFields u fields).pseudoHeaders.lookup k).isNone = true ↔ k ∉ fields.map (·.1) := by
      rw [← @parsedFields_lookup u fields k (hpseudo k hk), Option.not_isSome_iff_eq_none,
        Option.isNone_iff_eq_none]
    rw [List.any_eq_true, not_forall]
    refine exists_congr fun k => ?_
    rw [Classical.not_imp]
    exact and_congr_right fun hk => habsent k hk
  rw [ParsedHeaders.IsInvalid, hconnection, hte, hpresent]
  constructor
  · intro hvalid
    exact ⟨h, by tauto, by tauto, by tauto⟩
  · rintro ⟨-, h₁, h₂, h₃⟩
    tauto

theorem parsedFields_value {k : Bytes} (hk : isPseudo k = true) (hmem : k ∈ fields.map (·.1)) :
    ∃ v, (k, v) ∈ fields ∧ (parsedFields u fields).pseudoHeaders.lookup k = some (some v) := by
  obtain ⟨value, hvalue⟩ := Option.isSome_iff_exists.mp ((@parsedFields_lookup u fields k hk).mpr hmem)
  obtain ⟨before, after, hsplit, -⟩ := List.lookup_eq_some_iff.mp hvalue
  have hpair : (k, value) ∈ (parsedFields u fields).pseudoHeaders := by simp [hsplit]
  obtain ⟨f, hf, heq⟩ := List.mem_map.mp hpair
  obtain ⟨rfl, rfl⟩ := Prod.mk.inj heq
  exact ⟨f.2, List.mem_of_mem_filter hf, hvalue⟩

/-- There is no content length, or one that is a decimal number. -/
def DecimalLength (u : Unicode) (fields : List Field) : Prop :=
  valuesOf u (messageFields fields) (ascii "Content-Length") = [] ∨
  ∃ v, valuesOf u (messageFields fields) (ascii "Content-Length") = [v] ∧ v ≠ [] ∧ v.all isDigit = true

theorem DecimalLength.hasLength (h : DecimalLength u fields) : (parsedFields u fields).headers.HasLength := by
  intro hcontains
  have hpresent : valuesOf u (messageFields fields) (ascii "Content-Length") ≠ [] :=
    HTTPHeaders.ofFields_contains.mp hcontains
  obtain ⟨v, hv, hne, hdigits⟩ := h.resolve_left hpresent
  obtain ⟨n, hn⟩ := int_of_digits hne hdigits
  refine ⟨n, ?_⟩
  have hget : (parsedFields u fields).headers.get (ascii "content-length") =
      (combined u (messageFields fields) (ascii "Content-Length")).elim (.error .keyError) fun v => .ok (some v) :=
    HTTPHeaders.ofFields_get
  have hcombined : combined u (messageFields fields) (ascii "Content-Length") = some v := by
    simp [combined, hv, List.intercalate]
  rw [HTTPHeaders.getInt, hget, hcombined]
  exact hn

/-! What `_parse_headers` does with the header list of a block. -/

/-- The block that the frames carry, without the stream dependency and the weight. -/
def blockOf (frame : Frame) (rest : List Frame) : Bytes :=
  let data := (frame :: rest).flatMap Frame.data
  if frame.has .priority then data.drop 5 else data

/-- The header frames of a stream are complete, and their block decodes to `fields`. -/
structure HasBlock (c : Ctx) (frame : Frame) (rest : List Frame) (fields : List Field) : Prop where
  frames : c.self.headerFrames = frame :: rest
  priority : frame.has .priority = true → 5 ≤ ((frame :: rest).flatMap Frame.data).length ∧
    unpackBytes (((frame :: rest).flatMap Frame.data).take 4) &&& 0x7fffffff ≠ frame.streamId
  decoded : ∃ headers, (c.conn.hpackDecoder.decode c.conn.huffmanTree (blockOf frame rest)).1 = .ok headers ∧
    Lists headers fields

/-- Once a block has been decoded. -/
def decodedBlock (c : Ctx) (block : Bytes) : Ctx where
  conn := { c.conn with
    log := c.conn.log ++ [.decoded block]
    hpackDecoder := (c.conn.hpackDecoder.decode c.conn.huffmanTree block).2.1
    huffmanTree := (c.conn.hpackDecoder.decode c.conn.huffmanTree block).2.2 }
  self := { c.self with headerFrames := [] }

variable {frame : Frame} {rest : List Frame}

theorem HasBlock.parseHeaders_run (h : HasBlock c frame rest fields) : ∃ headers, Lists headers fields ∧
    parseHeaders.run c = (takeFields frame headers).run (decodedBlock c (blockOf frame rest)) := by
  obtain ⟨headers, hdecode, hlists⟩ := h.decoded
  refine ⟨headers, hlists, ?_⟩
  let c₁ : Ctx := ⟨c.conn, { c.self with headerFrames := [] }⟩
  have hstrip : (stripPriority frame ((frame :: rest).flatMap Frame.data)).run c₁ = (.ok (blockOf frame rest), c₁) := by
    rw [stripPriority, blockOf]
    split
    · obtain ⟨hlength, hself⟩ := h.priority ‹_›
      rw [run_check_of_neg (by omega), run_check_of_neg hself]
      rfl
    · rfl
  have hrun : (decodeHeaders (blockOf frame rest)).run c₁ = (.ok headers, decodedBlock c (blockOf frame rest)) := by
    rw [decodedBlock]
    generalize hresult : c.conn.hpackDecoder.decode c.conn.huffmanTree (blockOf frame rest) = result at hdecode
    have hlogged : (c₁.logged (.decoded (blockOf frame rest))).conn.hpackDecoder.decode
        (c₁.logged (.decoded (blockOf frame rest))).conn.huffmanTree (blockOf frame rest) = result := hresult
    obtain ⟨_, hpackDecoder, huffmanTree⟩ := result
    obtain rfl : _ = Except.ok headers := hdecode
    have hemit : (emit (.decoded (blockOf frame rest))).run c₁ =
      (.ok (), c₁.logged (.decoded (blockOf frame rest))) := rfl
    rw [decodeHeaders, bind_ok hemit, run_get_bind, hlogged]
    rfl
  rw [parseHeaders, run_get_bind, h.frames]
  change (parseBlock frame ((frame :: rest).flatMap Frame.data)).run c₁ = _
  rw [parseBlock_eq, bind_ok hstrip, bind_ok hrun]

theorem messages_append (log log' : List Event) : messages (log ++ log') = messages log ++ messages log' :=
  List.filterMap_append ..

/-- What follows the start of a message does not tell the delegate of another one. -/
theorem endBlock_messages : messages ((endBlock frame).run c).2.conn.log = messages c.conn.log := by
  let R (c c' : Ctx) : Prop := messages c'.conn.log = messages c.conn.log
  have : Std.Refl R := ⟨fun _ => rfl⟩
  have : IsTrans Ctx R := ⟨fun _ _ _ h h' => h'.trans h⟩
  have set (f : Stream → Stream) : Keeps (fun _ => True) R (setSelf f) := fun _ _ => ⟨trivial, rfl⟩
  have finish : Keeps (fun _ => True) R (callDelegate .finish) :=
    .get_bind fun _ _ => .bind .check fun _ => fun c _ => ⟨trivial, (messages_append ..).trans (List.append_nil _)⟩
  have hend : Keeps (fun _ => True) R (maybeEndStream frame) :=
    .ite (fun _ => .get_bind fun _ _ => .bind .check fun _ =>
      .bind (.when fun _ => .bind (set _) fun _ => finish) fun _ => .bind (set _) fun _ => .pure _) fun _ => .pure _
  have hblock : Keeps (fun _ => True) R (endBlock frame) := .bind hend fun _ => .get_bind fun _ _ => .check
  exact (hblock c trivial).2

theorem takeFields_wellFormed {decoded : List (Bytes × Option Bytes × HeaderIndexMode)} (hlists : Lists decoded fields)
    (htext : ∀ f ∈ fields, IsText (some f.1) ∧ IsText (some f.2)) (hphase : c.self.phase = .headers)
    (hdelegate : c.self.hasDelegate = true) (hfields : WellFormedHeaders c.conn.params.unicode c.conn.isClient fields)
    (hline : (parsedFields c.conn.params.unicode fields).HasStartLine c.conn.isClient startLine)
    (hcount : Countable c startLine (parsedFields c.conn.params.unicode fields).headers) :
    messages ((takeFields frame decoded).run c).2.conn.log =
      messages c.conn.log ++
        [(c.self.streamId, startLine, .ofFields c.conn.params.unicode (messageFields fields))] := by
  have hadd : addHeaders c.conn.params.unicode c.conn.isClient c.self.streamId
      ⟨[], .empty, c.self.phase = .trailers⟩ decoded =
      .ok (parsedFields c.conn.params.unicode fields) := by
    rw [hphase]
    exact (addHeaders_parsed hlists htext ordered_nil).1 hfields.ordered
  obtain ⟨requestStartLine, incomingContentRemaining, hstart, -⟩ :=
    startRequest_run hdelegate ((valid_iff hfields.ordered).mpr hfields) hline hcount
  rw [takeFields, run_get_bind, hadd]
  change messages ((when (c.self.phase = .headers) (startRequest (parsedFields c.conn.params.unicode fields)) >>=
    fun _ => endBlock frame).run c).2.conn.log = _
  rw [when, if_pos hphase, bind_ok hstart, endBlock_messages]
  exact messages_append ..

theorem takeFields_malformed {decoded : List (Bytes × Option Bytes × HeaderIndexMode)} (hlists : Lists decoded fields)
    (htext : ∀ f ∈ fields, IsText (some f.1) ∧ IsText (some f.2)) (hphase : c.self.phase = .headers)
    (hfields : ¬ WellFormedHeaders c.conn.params.unicode c.conn.isClient fields) :
    ∃ e, (takeFields frame decoded).run c = (.error e, c) ∧ e.isProtocolError := by
  have hadd := @addHeaders_parsed c.conn.params.unicode c.conn.isClient c.self.streamId fields
    [] decoded hlists htext ordered_nil
  have hfirst : (⟨[], .empty, c.self.phase = .trailers⟩ : ParsedHeaders) =
      parsedFields c.conn.params.unicode [] := by
    rw [hphase]
    rfl
  rw [takeFields, run_get_bind, hfirst]
  by_cases hordered : Ordered c.conn.isClient fields
  · obtain ⟨e, hstart, he⟩ := startRequest_invalid (not_not.mp (mt (valid_iff hordered).mp hfields))
    refine ⟨e, ?_, he⟩
    rw [hadd.1 hordered]
    change (when (c.self.phase = .headers) (startRequest (parsedFields c.conn.params.unicode fields)) >>=
      fun _ => endBlock frame).run c = _
    rw [when, if_pos hphase, bind_error hstart]
  · refine ⟨.streamError c.self.streamId .protocolError, ?_, rfl⟩
    rw [hadd.2 hordered]
    rfl

/-- A server's stream that waits for its request, with a fresh delegate. -/
structure AwaitsRequest (c : Ctx) : Prop where
  server : c.conn.isClient = false
  phase : c.self.phase = .headers
  delegate : c.self.hasDelegate = true
  fresh : c.self.delegateStarted = false

/-- The delegate is told of a request once if its headers are well formed; otherwise it is
not told of any, and nothing has begun. -/
theorem request_delivered (hawaits : AwaitsRequest c) (hblock : HasBlock c frame rest fields)
    (htext : ∀ f ∈ fields, IsText (some f.1) ∧ IsText (some f.2))
    (hlength : DecimalLength c.conn.params.unicode fields) :
    (WellFormedHeaders c.conn.params.unicode false fields → ∃ method path,
      (ascii ":method", method) ∈ fields ∧ (ascii ":path", path) ∈ fields ∧
      messages (parseHeaders.run c).2.conn.log = messages c.conn.log ++
        [(c.self.streamId, .request (some method) (some path),
          .ofFields c.conn.params.unicode (messageFields fields))]) ∧
    (¬ WellFormedHeaders c.conn.params.unicode false fields →
      messages (parseHeaders.run c).2.conn.log = messages c.conn.log ∧
      (∃ e, (parseHeaders.run c).1 = .error e ∧ e.isProtocolError) ∧
      (parseHeaders.run c).2.self.phase = c.self.phase ∧
      (parseHeaders.run c).2.self.delegateStarted = c.self.delegateStarted) := by
  obtain ⟨decoded, hlists, hrun⟩ := hblock.parseHeaders_run
  let c₁ := decodedBlock c (blockOf frame rest)
  have hlog : messages c₁.conn.log = messages c.conn.log := (messages_append ..).trans (List.append_nil _)
  have hclient : c₁.conn.isClient = false := hawaits.server
  rw [hrun]
  constructor
  · intro hfields
    obtain ⟨method, hmethod, hlookup⟩ :=
      parsedFields_value (by decide) (hfields.present rfl (ascii ":method") (by simp))
    obtain ⟨path, hpath, hlookup'⟩ :=
      parsedFields_value (by decide) (hfields.present rfl (ascii ":path") (by simp))
    refine ⟨method, path, hmethod, hpath, ?_⟩
    rw [← hlog]
    exact takeFields_wellFormed (c := c₁) hlists htext hawaits.phase hawaits.delegate (hclient ▸ hfields)
      ⟨hclient, hlookup, hlookup'⟩ hlength.hasLength
  · intro hfields
    obtain ⟨e, hraise, he⟩ : ∃ e, (takeFields frame decoded).run c₁ = (.error e, c₁) ∧ e.isProtocolError :=
      takeFields_malformed hlists htext hawaits.phase (by rwa [hclient])
    rw [hraise]
    exact ⟨hlog, ⟨e, rfl, he⟩, rfl, rfl⟩

def getFields : List Field :=
  [(ascii ":method", ascii "GET"), (ascii ":path", ascii "/"), (ascii ":scheme", ascii "https")]

/-- The first stream of a server, which has the block of these fields. -/
def awaitingGet : Ctx :=
  let conn := (System.start false (.new none .caseless)).conn
  ⟨conn, { Stream.new conn 1 true with headerFrames := [⟨.headers, 0x5, 1, [0x82, 0x84, 0x87]⟩] }⟩

theorem request_delivered_get : ∃ method path,
    (ascii ":method", method) ∈ getFields ∧ (ascii ":path", path) ∈ getFields ∧
    messages (parseHeaders.run awaitingGet).2.conn.log = messages awaitingGet.conn.log ++
      [(awaitingGet.self.streamId, .request (some method) (some path),
        .ofFields .caseless (messageFields getFields))] := by
  have hblock : HasBlock awaitingGet ⟨.headers, 0x5, 1, [0x82, 0x84, 0x87]⟩ [] getFields :=
    ⟨rfl, by decide, [(ascii ":method", some (ascii "GET"), .yes), (ascii ":path", some (ascii "/"), .yes),
      (ascii ":scheme", some (ascii "https"), .yes)], by decide +kernel, rfl⟩
  have htext : ∀ f ∈ getFields, decodesFrom 0 0 0 f.1 = true ∧ decodesFrom 0 0 0 f.2 = true := by decide
  refine (request_delivered ⟨rfl, rfl, rfl, rfl⟩ hblock (fun f hf => ⟨?_, ?_⟩) (.inl (by decide))).1
    ⟨⟨by decide, by decide, by decide, by decide⟩, by decide, by decide, by decide⟩
  · rintro _ ⟨⟩
    exact (htext f hf).1
  · rintro _ ⟨⟩
    exact (htext f hf).2

end Stream

end TornadoHttp2
