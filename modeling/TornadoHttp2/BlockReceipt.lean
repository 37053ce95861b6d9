import TornadoHttp2.BlockWriting
import TornadoHttp2.Padding

/-! What an open connection does with the frames of such a peer. A stream that
still waits for its message is told of it; one that has had it resets itself. -/

namespace TornadoHttp2

open Prog Ctx

namespace Stream

/-- The HEADERS frame of `write_headers`. -/
def blockFrame (i : Nat) (data : Bytes) : Frame := ⟨.headers, FrameFlag.endHeaders.value, i, data⟩

/-- A stream that can take a header block. -/
structure Ready (s : Stream) : Prop where
  delegate : s.hasDelegate = true
  finished : s.finished = false
  frames : s.headerFrames = []

/-- Once the block has been decoded. -/
def blockTaken (c : Ctx) (data : Bytes) (table : DynamicTable) : Ctx where
  conn := { c.conn with log := c.conn.log ++ [.decoded data], hpackDecoder := ⟨table⟩ }
  self := { c.self with
    headerFrames := []
    phase := if c.self.phase = .body then .trailers else c.self.phase }

variable {c : Ctx} {i : Nat} {data : Bytes} {fields : List Field} {table : DynamicTable} {later : Bool}

theorem blockFrame_has (flag : FrameFlag) :
    (blockFrame i data).has flag = decide (FrameFlag.endHeaders.value &&& flag.value ≠ 0) := rfl

theorem handleFrame_headers_run {frame : Frame} (htype : frame.type = .headers) (hfinished : c.self.finished = false) :
    (handleFrame frame later).run c = (handleHeadersFrame frame).run c := by
  rw [handleFrame, run_get_bind, htype]
  simp only [check, when, hfinished, Bool.false_eq_true, if_false]
  rfl

theorem handleFrame_block (hready : c.self.Ready) (htree : c.conn.huffmanTree.Complete)
    (hcarries : Carries c.conn.hpackDecoder.table data fields table)
    (hlimit : data.length ≤ c.conn.params.maxHeaderSize) :
    ∃ decoded, Lists decoded fields ∧
      (handleFrame (blockFrame i data) later).run c =
        (takeFields (blockFrame i data) decoded).run (blockTaken c data table) := by
  let c₁ : Ctx := ⟨c.conn, { c.self with
    headerFrames := [blockFrame i data]
    phase := if c.self.phase = .body then .trailers else c.self.phase }⟩
  obtain ⟨decoded, hdecode, hlists⟩ := hcarries c.conn.huffmanTree htree
  have hpriority : (blockFrame i data).has .priority = false := (blockFrame_has .priority).trans (by decide)
  have hdata : blockOf (blockFrame i data) [] = data := by
    simp only [blockOf, hpriority, Bool.false_eq_true, if_false]
    exact List.append_nil data
  have hresult : c₁.conn.hpackDecoder.decode c₁.conn.huffmanTree (blockOf (blockFrame i data) []) =
      (.ok decoded, ⟨table⟩, c.conn.huffmanTree) := hdata.symm ▸ hdecode
  have hblock : HasBlock c₁ (blockFrame i data) [] fields :=
    ⟨rfl, fun h => absurd (hpriority.symm.trans h) Bool.false_ne_true, decoded, congrArg Prod.fst hresult, hlists⟩
  obtain ⟨headers, hheaders, hrun⟩ := hblock.parseHeaders_run
  have htaken : decodedBlock c₁ (blockOf (blockFrame i data) []) = blockTaken c data table := by
    rw [decodedBlock, hresult, hdata]
    rfl
  have hpadding : (blockFrame i data).withoutPadding = .ok (blockFrame i data) := by
    rw [Frame.withoutPadding, blockFrame_has, if_neg (by decide)]
  have happend : (appendHeaderFrame (blockFrame i data)).run
      ⟨c.conn, { c.self with phase := if c.self.phase = .body then .trailers else c.self.phase }⟩ =
        parseHeaders.run c₁ := by
    have hset : (setSelf fun s => { s with headerFrames := s.headerFrames ++ [blockFrame i data] }).run
        ⟨c.conn, { c.self with phase := if c.self.phase = .body then .trailers else c.self.phase }⟩ = (.ok (), c₁) := by
      simp only [setSelf, run_modify, hready.frames, c₁]
      rfl
    have hcheck : checkHeaderLength.run c₁ = (.ok (), c₁) := by
      have hlength : ¬ c₁.self.headerLength > c₁.conn.params.maxHeaderSize := by
        simpa [headerLength, c₁, blockFrame] using hlimit
      rw [checkHeaderLength, run_get_bind, when, if_neg hlength]
      rfl
    rw [appendHeaderFrame, bind_ok hset, bind_ok hcheck, when, blockFrame_has, if_pos (by decide)]
  refine ⟨headers, hheaders, ?_⟩
  rw [handleFrame_headers_run rfl hready.finished, handleHeadersFrame_run, hpadding]
  exact happend.trans (hrun.trans (congrArg _ htaken))

variable {startLine : StartLine Bytes} {headers : HTTPHeaders Bytes}
    {decoded : List (Bytes × Option Bytes × HeaderIndexMode)}

/-- Trailers have no pseudo-headers, but every message starts with one. -/
theorem takeFields_trailers (hphase : c.self.phase = .trailers)
    (hlists : Lists decoded (sentFields startLine headers)) :
    (takeFields (blockFrame i data) decoded).run c = (.error (.streamError c.self.streamId .protocolError), c) := by
  obtain ⟨f, rest, hfields, hpseudo⟩ : ∃ f rest, sentFields startLine headers = f :: rest ∧ isPseudo f.1 = true := by
    cases startLine with
    | request method path => exact ⟨_, _, rfl, rfl⟩
    | response code => exact ⟨_, _, rfl, rfl⟩
  rw [hfields] at hlists
  obtain ⟨⟨k, v, mode⟩, others, rfl⟩ : ∃ header others, decoded = header :: others := by
    cases decoded with
    | nil => cases hlists
    | cons header others => exact ⟨header, others, rfl⟩
  have hk : k = f.1 := congrArg Prod.fst (List.cons.inj hlists).1
  have hrefused : addHeader c.conn.params.unicode c.conn.isClient c.self.streamId
      ⟨[], .empty, decide (c.self.phase = .trailers)⟩ (k, v, mode) =
      .error (.streamError c.self.streamId .protocolError) :=
    addHeader_refused (.inr ⟨hk ▸ hpseudo, .inl (decide_eq_true hphase)⟩)
  rw [takeFields, run_get_bind, addHeaders, hrefused]
  rfl

theorem endBlock_run (hphase : c.self.phase ≠ .trailers) : (endBlock (blockFrame i data)).run c = (.ok (), c) := by
  rw [endBlock, maybeEndStream, blockFrame_has, if_neg (by decide), run_pure_bind, run_get_bind, check, when,
    if_neg fun h => hphase h.2]
  rfl

/-- The message reaches the delegate as it was written. -/
theorem takeFields_sent (h : Sendable (!c.conn.isClient) startLine headers)
    (hlists : Lists decoded (sentFields startLine headers)) (hphase : c.self.phase = .headers) (hready : c.self.Ready)
    (hrequest : c.conn.isClient = true → c.self.requestStartLine.isSome = true) :
    ∃ c', (takeFields (blockFrame i data) decoded).run c = (.ok (), c') ∧
      c'.conn = (c.logged (.called c.self.streamId
        (.headersReceived startLine.optional headers.withoutConnection.optional))).conn ∧
      c'.self.Ready ∧ c'.self.requestStartLine.isSome = true := by
  let u := c.conn.params.unicode
  have hfields := h.wellFormed (u := u)
  have hline := h.hasStartLine (u := u)
  rw [Bool.not_not] at hfields hline
  have hadd : addHeaders c.conn.params.unicode c.conn.isClient c.self.streamId
      ⟨[], .empty, c.self.phase = .trailers⟩ decoded =
      .ok (parsedFields u (sentFields startLine headers)) := by
    rw [hphase]
    exact (addHeaders_parsed hlists h.text ordered_nil).1 hfields.ordered
  have hheaders : (parsedFields u (sentFields startLine headers)).headers =
      headers.withoutConnection.optional := h.ofFields_sent
  have hcount : Countable c startLine.optional (parsedFields u (sentFields startLine headers)).headers := by
    cases startLine with
    | request => exact h.decimalLength.hasLength
    | response code =>
      obtain ⟨⟨method, path⟩, hrequest⟩ := Option.isSome_iff_exists.mp (hrequest hline.1)
      exact ⟨method, path, hrequest, .inr (.inr h.decimalLength.hasLength)⟩
  obtain ⟨requestStartLine, incomingContentRemaining, hstart, hsame, hstarted⟩ :=
    startRequest_run hready.delegate ((valid_iff hfields.ordered).mpr hfields) hline hcount
  rw [hheaders] at hstart
  let c' : Ctx := Ctx.logged ⟨c.conn, { c.self with
    requestStartLine
    incomingContentRemaining
    phase := if isFinal startLine.optional then .body else c.self.phase
    delegateStarted := true }⟩ (.called c.self.streamId
      (.headersReceived startLine.optional headers.withoutConnection.optional))
  refine ⟨c', ?_, rfl, ⟨hready.delegate, hready.finished, hready.frames⟩, ?_⟩
  · have hphase' : c'.self.phase ≠ .trailers := by
      change (if isFinal startLine.optional then HTTPPhase.body else c.self.phase) ≠ .trailers
      rw [hphase]
      split <;> simp
    rw [takeFields, run_get_bind, hadd]
    change (when (c.self.phase = .headers) (startRequest (parsedFields u (sentFields startLine headers))) >>= fun _ =>
      endBlock (blockFrame i data)).run c = _
    rw [when, if_pos hphase, bind_ok hstart]
    exact endBlock_run hphase'
  · cases hclient : c.conn.isClient with
    | true => exact (congrArg Option.isSome (hsame hclient)).trans (hrequest hclient)
    | false => exact hstarted hclient

/-- What a stream does with the HEADERS frame of a message. -/
structure Told (c : Ctx) (startLine : StartLine Bytes) (headers : HTTPHeaders Bytes)
    (data : Bytes) (table : DynamicTable) (r : Except PyException Unit) (c' : Ctx) : Prop where
  conn : ∃ told, c'.conn = { c.conn with log := c.conn.log ++ .decoded data :: told, hpackDecoder := ⟨table⟩ } ∧
    (c.self.phase = .headers → r = .ok () ∧
      told = [.called c.self.streamId (.headersReceived startLine.optional headers.withoutConnection.optional)]) ∧
    (c.self.phase ≠ .headers → r = .error (.streamError c.self.streamId .protocolError) ∧ told = [])
  ready : c'.self.Ready
  requestStartLine : c'.self.requestStartLine.isSome = true

theorem handleFrame_told (h : Sendable (!c.conn.isClient) startLine headers) (hready : c.self.Ready)
    (htree : c.conn.huffmanTree.Complete)
    (hcarries : Carries c.conn.hpackDecoder.table data (sentFields startLine headers) table)
    (hlimit : data.length ≤ c.conn.params.maxHeaderSize)
    (hrequest : c.conn.isClient = true ∨ c.self.phase ≠ .headers → c.self.requestStartLine.isSome = true) :
    Told c startLine headers data table ((handleFrame (blockFrame i data) later).run c).1
      ((handleFrame (blockFrame i data) later).run c).2 := by
  obtain ⟨decoded, hlists, hrun⟩ := handleFrame_block (i := i) hready htree hcarries hlimit
  have hready' : (blockTaken c data table).self.Ready := ⟨hready.delegate, hready.finished, rfl⟩
  rw [hrun]
  by_cases hphase : c.self.phase = .headers
  · have hphase' : (blockTaken c data table).self.phase = .headers := by
      rw [blockTaken, hphase]
      rfl
    obtain ⟨c', hrun', hconn, hready'', hstart⟩ :=
      @takeFields_sent (blockTaken c data table) i data _ _ _ h hlists hphase'
      hready' fun hc => hrequest (.inl hc)
    rw [hrun']
    refine ⟨⟨[.called c.self.streamId (.headersReceived startLine.optional headers.withoutConnection.optional)],
      ?_, fun _ => ⟨rfl, rfl⟩, fun hne => absurd hphase hne⟩, hready'', hstart⟩
    rw [hconn]
    simp [logged, blockTaken]
  · have hphase' : (blockTaken c data table).self.phase = .trailers := by
      rw [blockTaken]
      cases hc : c.self.phase with
      | headers => exact absurd hc hphase
      | body => rfl
      | trailers => rfl
    rw [takeFields_trailers hphase' hlists]
    exact ⟨⟨[], rfl, fun heq => absurd heq hphase, fun _ => ⟨rfl, rfl⟩⟩, hready', hrequest (.inr hphase)⟩

end Stream

namespace System

/-- An end of the connection that takes whatever such a peer sends. -/
structure Ready (s : System) (isClient : Bool) : Prop where
  wellFormed : s.WellFormed
  role : s.conn.isClient = isClient
  running : s.loop = .running
  socket : s.conn.closed = false
  frameSize : s.conn.settings.lookup Setting.maxFrameSize.code = none
  tree : s.conn.huffmanTree.Complete
  encoder : s.conn.hpackEncoder.table.Sized
  streams {i : Nat} {self : Stream} : s.streams i = some self → self.Ready
  odd {i : Nat} {self : Stream} : s.streams i = some self → i % 2 = 1
  started {i : Nat} {self : Stream} : isClient = false → s.streams i = some self → self.requestStartLine.isSome = true

/-- A stream whose request has been sent or received. -/
def Knows (s : System) (i : Nat) : Prop :=
  ∃ self, s.streams i = some self ∧ self.requestStartLine.isSome = true

variable {s s₁ : System} {isClient : Bool} {frame : Frame} {i : Nat}

theorem Ready.setting (h : s.Ready isClient) : s.conn.setting .maxFrameSize = Setting.maxFrameSize.default := by
  rw [Conn.setting, h.frameSize]
  rfl

theorem Ready.unbroken (h : s.Ready isClient) (frame : Frame) :
    (s.logged (.received frame)).breaksHeaderBlock frame = false := by
  rw [breaksHeaderBlock]
  cases hlast : (s.logged (.received frame)).lastStream.bind (s.logged (.received frame)).streams with
  | none => rfl
  | some last =>
    obtain ⟨j, -, hj⟩ := Option.bind_eq_some_iff.mp hlast
    simp [Stream.needsContinuation, (h.streams hj).frames]

theorem dispatch_conn (later : Bool) (hblock : s.breaksHeaderBlock frame = false) (hid : frame.streamId = 0) :
    (dispatch frame later).run s = (((Conn.handleFrame frame).run s.conn).1,
      { s with conn := ((Conn.handleFrame frame).run s.conn).2 }) := by
  rw [dispatch, run_get_bind, check, when, if_neg (by simp [hblock]), run_pure_bind, if_pos hid]
  rfl

theorem dispatch_stream (later : Bool) {self : Stream} (hblock : s.breaksHeaderBlock frame = false)
    (hid : frame.streamId ≠ 0) (hself : s.streams frame.streamId = some self) :
    (dispatch frame later).run s = ((s.atStream frame later self).1, s.handled frame later self) := by
  rw [dispatch, run_get_bind, check, when, if_neg (by simp [hblock]), run_pure_bind, if_neg hid,
    if_pos (by simp [hself]), handleStreamFrame_run hself]

theorem dispatch_accepted (later : Bool) (hblock : s.breaksHeaderBlock frame = false) (hid : frame.streamId ≠ 0)
    (hself : s.streams frame.streamId = none) (hserver : s.conn.isClient = false) (htype : frame.type = .headers)
    (hremote : frame.streamId % 2 ≠ s.conn.nextStreamId % 2) :
    (dispatch frame later).run s = (((s.accepted frame).atStream frame later (.new s.conn frame.streamId true)).1,
      (s.accepted frame).handled frame later (.new s.conn frame.streamId true)) := by
  have hrun : (acceptStream frame later).run s = (handleStreamFrame frame later).run (s.accepted frame) := by
    simp only [acceptStream, run_get_bind, check, when, if_neg hremote]
    rfl
  rw [dispatch, run_get_bind, check, when, if_neg (by simp [hblock]), run_pure_bind, if_neg hid,
    if_neg (by simp [hself]), if_pos ⟨hserver, htype⟩, hrun, handleStreamFrame_run accepted_self]

theorem Ready.step_receive (h : s.Ready isClient) (hlength : frame.data.length ≤ Setting.maxFrameSize.default)
    {later : Bool} {r : Except PyException Unit}
    (hrun : (dispatch frame later).run (s.logged (.received frame)) = (r, s₁)) :
    (r = .ok () → s.step (.receive frame later) = s₁) ∧
    ∀ j code, r = .error (.streamError j code) → s₁.conn.closed = false → j < 2 ^ 31 →
      s.step (.receive frame later) = s₁.logged (.wrote (rstStreamFrame j code)) := by
  have hread : (onConn (Conn.readFrame frame)).run s = (.ok (), s.logged (.received frame)) := by
    simp only [onConn, run_zoom, Conn.readFrame, run_get_bind,
      check, when, gt_iff_lt, h.setting, if_neg (not_lt.mpr hlength)]
    rfl
  have hstep : s.step (.receive frame later) = ((receive frame later).run s).2 := by
    simp only [step, perform, run_get_bind, when, if_pos h.running]
  have hinner : (do onConn (Conn.readFrame frame); dispatch frame later : OnSystem Unit).run s = (r, s₁) :=
    (bind_ok hread _).trans hrun
  rw [hstep, receive]
  refine ⟨?_, ?_⟩
  · rintro rfl
    simp only [catching, hinner]
  · rintro j code rfl hopen hj
    have hwrite : (onConn (Conn.writeFrame (rstStreamFrame j code))).run s₁ =
        (.ok (), s₁.logged (.wrote (rstStreamFrame j code))) := by
      have hfits : ¬ ((rstStreamFrame j code).data.length ≥ 2 ^ 31 ∨ (rstStreamFrame j code).streamId ≥ 2 ^ 31) :=
        not_or.mpr ⟨by simp [rstStreamFrame, packBytes], not_le.mpr hj⟩
      simp only [onConn, run_zoom, Conn.writeFrame, check, when, if_neg hfits]
      rw [run_pure_bind, run_get_bind, hopen]
      rfl
    simp only [catching, hinner, handleStreamError, hwrite]

/-- Such an end has taken a frame, which takes its decoder to `table`, and has
written `frames` in answer. -/
structure Took (s : System) (isClient : Bool) (table : DynamicTable) (frames : List Frame) (s' : System) : Prop where
  ready : s'.Ready isClient
  params : s'.conn.params = s.conn.params
  decoder : s'.conn.hpackDecoder.table = table
  encoder : s'.conn.hpackEncoder.table = s.conn.hpackEncoder.table
  log : ∃ es, s'.conn.log = s.conn.log ++ es ∧ framesOf es = frames
  knows {i : Nat} : s.Knows i → s'.Knows i

theorem settings_run (conn : Conn) (fromClient : Bool) (hopen : conn.closed = false) :
    ∃ settings, (Conn.handleFrame (settingsFrame fromClient)).run conn =
      (.ok (), { conn with settings, log := conn.log ++ [.wrote settingsAckFrame] }) ∧
      settings.lookup Setting.maxFrameSize.code = conn.settings.lookup Setting.maxFrameSize.code := by
  have hack (c : Conn) (hc : c.closed = false) : (Conn.writeFrame settingsAckFrame).run c =
      (.ok (), { c with log := c.log ++ [.wrote settingsAckFrame] }) := by
    rw [Conn.writeFrame, run_check_of_neg (by decide), run_get_bind, run_check_of_neg (by simp [hc])]
    rfl
  cases fromClient with
  | true =>
    refine ⟨(2, 0) :: conn.settings, ?_, rfl⟩
    have happly : (Conn.applySettings (settingsFrame true).data).run conn =
        (.ok (), { conn with settings := (2, 0) :: conn.settings }) := rfl
    change (Conn.handleSettingsFrame (settingsFrame true)).run conn = _
    rw [Conn.handleSettingsFrame, if_neg (by decide), bind_ok happly]
    exact hack _ hopen
  | false =>
    refine ⟨conn.settings, ?_, rfl⟩
    have happly : (Conn.applySettings (settingsFrame false).data).run conn = (.ok (), conn) := rfl
    change (Conn.handleSettingsFrame (settingsFrame false)).run conn = _
    rw [Conn.handleSettingsFrame, if_neg (by decide), bind_ok happly]
    exact hack _ hopen

theorem Ready.take_settings (h : s.Ready isClient) (fromClient later : Bool) :
    s.Took isClient s.conn.hpackDecoder.table [settingsAckFrame]
      (s.step (.receive (settingsFrame fromClient) later)) := by
  obtain ⟨settings, hrun, hlookup⟩ := settings_run (s.logged (.received (settingsFrame fromClient))).conn
    fromClient h.socket
  have hdispatch := dispatch_conn later (h.unbroken (settingsFrame fromClient)) rfl
  rw [hrun] at hdispatch
  have hw := h.wellFormed.step (.receive (settingsFrame fromClient) later)
  rw [(h.step_receive (by cases fromClient <;> decide) hdispatch).1 rfl] at hw ⊢
  exact {
    ready := ⟨hw, h.role, h.running, h.socket, hlookup.trans h.frameSize,
      h.tree, h.encoder, h.streams, h.odd, h.started⟩
    params := rfl
    decoder := rfl
    encoder := rfl
    log := ⟨[.received (settingsFrame fromClient), .wrote settingsAckFrame], by simp [logged], rfl⟩
    knows := id }

theorem Ready.take_ack (h : s.Ready isClient) (later : Bool) :
    s.Took isClient s.conn.hpackDecoder.table [] (s.step (.receive settingsAckFrame later)) := by
  have hdispatch := dispatch_conn later (h.unbroken settingsAckFrame) rfl
  have hrun (conn : Conn) : (Conn.handleFrame settingsAckFrame).run conn = (.ok (), conn) := rfl
  rw [hrun] at hdispatch
  have hw := h.wellFormed.step (.receive settingsAckFrame later)
  rw [(h.step_receive (by decide) hdispatch).1 rfl] at hw ⊢
  exact {
    ready := ⟨hw, h.role, h.running, h.socket, h.frameSize, h.tree, h.encoder, h.streams, h.odd, h.started⟩
    params := rfl
    decoder := rfl
    encoder := rfl
    log := ⟨[.received settingsAckFrame], rfl, rfl⟩
    knows := id }

/-- A stream has taken the frame. -/
theorem Ready.took {s' : System} {self : Stream} {frames : List Frame} (h : s.Ready isClient) (hw : s'.WellFormed)
    (hstreams : s'.streams = Function.update s.streams i (some self)) (hself : self.Ready) (hodd : i % 2 = 1)
    (hrequest : self.requestStartLine.isSome = true) (hloop : s'.loop = s.loop)
    (hconn : (s'.conn.isClient, s'.conn.params, s'.conn.settings,
      s'.conn.closed, s'.conn.huffmanTree, s'.conn.hpackEncoder) =
      (s.conn.isClient, s.conn.params, s.conn.settings, s.conn.closed, s.conn.huffmanTree, s.conn.hpackEncoder))
    (hlog : ∃ es, s'.conn.log = s.conn.log ++ es ∧ framesOf es = frames) :
    s.Took isClient s'.conn.hpackDecoder.table frames s' ∧ s'.Knows i := by
  simp only [Prod.mk.injEq] at hconn
  obtain ⟨hclient, hparams, hsettings, hclosed, htree, hencoder⟩ := hconn
  have hown : s'.streams i = some self := by rw [hstreams, Function.update_self]
  have hother {j : Nat} (hj : j ≠ i) : s'.streams j = s.streams j := by rw [hstreams, Function.update_of_ne hj]
  have hknows : s'.Knows i := ⟨self, hown, hrequest⟩
  refine ⟨⟨⟨hw, hclient.trans h.role, hloop.trans h.running, hclosed.trans h.socket, ?_, ?_, ?_, ?_, ?_, ?_⟩,
    hparams, rfl, congrArg _ hencoder, hlog, ?_⟩, hknows⟩
  · rw [hsettings]
    exact h.frameSize
  · rw [htree]
    exact h.tree
  · rw [hencoder]
    exact h.encoder
  · intro j other hj
    by_cases hji : j = i
    · subst hji
      rw [hown, Option.some.injEq] at hj
      exact hj ▸ hself
    · exact h.streams ((hother hji).symm.trans hj)
  · intro j other hj
    by_cases hji : j = i
    · exact hji ▸ hodd
    · exact h.odd ((hother hji).symm.trans hj)
  · intro j other hserver hj
    by_cases hji : j = i
    · subst hji
      rw [hown, Option.some.injEq] at hj
      exact hj ▸ hrequest
    · exact h.started hserver ((hother hji).symm.trans hj)
  · intro j hj
    by_cases hji : j = i
    · exact hji ▸ hknows
    · obtain ⟨other, hother', hstart⟩ := hj
      exact ⟨other, (hother hji).trans hother', hstart⟩

theorem Ready.take_reset (h : s.Ready isClient) (hknows : s.Knows i)
    {data : Bytes} (hdata : data.length = 4) (later : Bool) :
    s.Took isClient s.conn.hpackDecoder.table [] (s.step (.receive ⟨.rstStream, 0, i, data⟩ later)) := by
  obtain ⟨self, hself, hstart⟩ := hknows
  have hready := h.streams hself
  have hid : i ≠ 0 := fun hi => by
    subst hi
    rw [h.wellFormed.zero] at hself
    cases hself
  obtain ⟨es, hrun, hes⟩ : ∃ es, (s.logged (.received ⟨.rstStream, 0, i, data⟩)).atStream
      ⟨.rstStream, 0, i, data⟩ later self =
      (.ok (), ⟨{ (s.logged (.received ⟨.rstStream, 0, i, data⟩)).conn with
        log := (s.logged (.received ⟨.rstStream, 0, i, data⟩)).conn.log ++ es }, self⟩) ∧ framesOf es = [] := by
    have hlength : ¬ data.length ≠ 4 := not_not.mpr hdata
    have hrun {c : Ctx} (hc : c.self = self) : ∃ es, (Stream.handleFrame ⟨.rstStream, 0, i, data⟩ later).run c =
        (.ok (), ⟨{ c.conn with log := c.conn.log ++ es }, c.self⟩) ∧ framesOf es = [] := by
      change ∃ es, (Stream.handleRstStreamFrame ⟨.rstStream, 0, i, data⟩).run c = _ ∧ _
      rw [Stream.handleRstStreamFrame, run_get_bind, run_check_of_neg hlength, when]
      split
      · refine ⟨[.called self.streamId .onConnectionClose], ?_, rfl⟩
        rw [Stream.callDelegate, run_get_bind, run_check_of_neg (by simp [hc, hready.delegate]), hc]
        subst hc
        rfl
      · exact ⟨[], by rw [List.append_nil]; rfl, rfl⟩
    exact hrun rfl
  have hdispatch := dispatch_stream later (h.unbroken ⟨.rstStream, 0, i, data⟩) hid hself
  rw [handled, hrun] at hdispatch
  have hw := h.wellFormed.step (.receive ⟨.rstStream, 0, i, data⟩ later)
  rw [(h.step_receive (by simp [hdata, Setting.default]) hdispatch).1 rfl] at hw ⊢
  refine (h.took hw rfl (h.streams hself) (h.odd hself) hstart rfl rfl
    ⟨.received ⟨.rstStream, 0, i, data⟩ :: es, ?_, ?_⟩).1
  · simp [setStream, logged]
  · exact hes

/-- The stream that a header block comes to, which a server may have to open. -/
structure Admits (s : System) (isClient : Bool) (i : Nat) (x : System) (stream : Stream) : Prop where
  ready : stream.Ready
  streamId : stream.streamId = i
  requestStartLine : isClient = true ∨ stream.phase ≠ .headers → stream.requestStartLine.isSome = true
  phase : (∀ self, s.streams i = some self → self.phase = .headers) → stream.phase = .headers
  streams (self' : Stream) : Function.update x.streams i (some self') = Function.update s.streams i (some self')
  loop : x.loop = s.loop
  conn : ∃ es, x.conn = { s.conn with log := s.conn.log ++ es } ∧ framesOf es = [] ∧ messages es = []

theorem Ready.admits (h : s.Ready isClient) (hid : frame.streamId = i) (htype : frame.type = .headers)
    (hknown : isClient = true → s.Knows i) (hodd : i % 2 = 1) (later : Bool) :
    ∃ x self, s.Admits isClient i x self ∧ (dispatch frame later).run (s.logged (.received frame)) =
      ((x.atStream frame later self).1, x.handled frame later self) := by
  subst hid
  have hne : frame.streamId ≠ 0 := fun hi => by simp [hi] at hodd
  cases hself : s.streams frame.streamId with
  | some self =>
    refine ⟨s.logged (.received frame), self,
      ⟨h.streams hself, h.wellFormed.streamId hself, fun _ => ?_, fun hfresh => hfresh self hself,
      fun _ => rfl, rfl, [.received frame], rfl, rfl, rfl⟩, dispatch_stream later (h.unbroken frame) hne hself⟩
    cases hclient : isClient with
    | true =>
      obtain ⟨self', hself', hstart⟩ := hknown hclient
      rw [hself, Option.some.injEq] at hself'
      exact hself' ▸ hstart
    | false => exact h.started hclient hself
  | none =>
    have hserver : isClient = false := by
      by_contra hclient
      obtain ⟨self', hself', -⟩ := hknown (eq_true_of_ne_false hclient)
      rw [hself] at hself'
      cases hself'
    have hparity : frame.streamId % 2 ≠ s.conn.nextStreamId % 2 := by
      rw [h.wellFormed.parity, h.role, hserver, hodd]
      decide
    refine ⟨(s.logged (.received frame)).accepted frame, .new (s.logged (.received frame)).conn frame.streamId true,
      ⟨⟨rfl, rfl, rfl⟩, rfl, fun hor => ?_, fun _ => rfl, fun self' => ?_, rfl, ?_⟩,
      dispatch_accepted later (h.unbroken frame) hne hself (h.role.trans hserver) htype hparity⟩
    · exact absurd rfl (hor.resolve_left (by simp [hserver]))
    · exact Function.update_idem ..
    · refine ⟨[.received frame, .opened frame.streamId
        (Stream.new (s.logged (.received frame)).conn frame.streamId true).window.size,
        .startRequest frame.streamId], ?_, rfl, rfl⟩
      simp [accepted, withStream, logged, Stream.new]

theorem Ready.take_block {startLine : StartLine Bytes} {headers : HTTPHeaders Bytes}
    {data : Bytes} {table : DynamicTable}
    (h : s.Ready isClient) (hsend : Sendable (!isClient) startLine headers)
    (hcarries : Carries s.conn.hpackDecoder.table data (sentFields startLine headers) table)
    (hsize : data.length ≤ Setting.maxFrameSize.default) (hlimit : data.length ≤ s.conn.params.maxHeaderSize)
    (hi : i < 2 ^ 31) (hknown : isClient = true → s.Knows i) (hodd : i % 2 = 1) (later : Bool) :
    ∃ frames, s.Took isClient table frames (s.step (.receive (Stream.blockFrame i data) later)) ∧
      (s.step (.receive (Stream.blockFrame i data) later)).Knows i ∧
      (frames = [] ∨ frames = [rstStreamFrame i .protocolError]) ∧
      ((∀ self, s.streams i = some self → self.phase = .headers) →
        messages (s.step (.receive (Stream.blockFrame i data) later)).conn.log =
          messages s.conn.log ++ [(i, startLine.optional, headers.withoutConnection.optional)]) := by
  obtain ⟨x, self, hadmits, hdispatch⟩ :=
    @Ready.admits s isClient (Stream.blockFrame i data) i h rfl rfl hknown hodd later
  obtain ⟨es, hx, hframes, hmessages⟩ := hadmits.conn
  have hconn : (x.conn.isClient, x.conn.params, x.conn.hpackDecoder, x.conn.huffmanTree) =
      (s.conn.isClient, s.conn.params, s.conn.hpackDecoder, s.conn.huffmanTree) := by rw [hx]
  simp only [Prod.mk.injEq] at hconn
  obtain ⟨hxclient, hxparams, hxdecoder, hxtree⟩ := hconn
  have hclient : x.conn.isClient = isClient := hxclient.trans h.role
  obtain ⟨⟨told, hc, hfresh, hstale⟩, hready, hrequest⟩ :
      Stream.Told ⟨x.conn, self⟩ startLine headers data table (x.atStream (Stream.blockFrame i data) later self).1
        (x.atStream (Stream.blockFrame i data) later self).2 := by
    refine Stream.handleFrame_told ?_ hadmits.ready ?_ ?_ ?_ fun hor =>
      hadmits.requestStartLine (hor.imp hclient.symm.trans id)
    · rw [hclient]
      exact hsend
    · rw [hxtree]
      exact h.tree
    · rw [hxdecoder]
      exact hcarries
    · rw [hxparams]
      exact hlimit
  obtain ⟨hok, herror⟩ := h.step_receive hsize hdispatch
  have hw := h.wellFormed.step (.receive (Stream.blockFrame i data) later)
  let y : System := x.handled (Stream.blockFrame i data) later self
  have hy : y.conn = { s.conn with log := s.conn.log ++ (es ++ .decoded data :: told), hpackDecoder := ⟨table⟩ } :=
    hc.trans (by simp [hx])
  have htook (frames : List Frame) (rest : List Event) {s' : System} (hw : s'.WellFormed)
      (hs' : s' = { y with conn := { y.conn with log := y.conn.log ++ rest } })
      (hrest : framesOf (es ++ .decoded data :: (told ++ rest)) = frames) :
      s.Took isClient table frames s' ∧ s'.Knows i := by
    have hdecoder : s'.conn.hpackDecoder.table = table := by simp [hs', hy]
    rw [← hdecoder]
    refine h.took hw ?_ hready hodd hrequest ?_ ?_ ⟨es ++ .decoded data :: (told ++ rest), ?_, hrest⟩
    · rw [hs']
      exact hadmits.streams _
    · rw [hs']
      exact hadmits.loop
    · simp [hs', hy]
    · simp [hs', hy]
  by_cases hphase : self.phase = .headers
  · obtain ⟨hr, rfl⟩ := hfresh hphase
    have hstep := hok hr
    rw [hstep] at hw ⊢
    obtain ⟨htook, hknows⟩ := htook [] [] hw (by simp [y]) (by simp [framesOf_append, hframes]; rfl)
    refine ⟨[], htook, hknows, .inl rfl, fun _ => ?_⟩
    change messages y.conn.log = _
    rw [hy]
    simp only [Stream.messages_append, hmessages, hadmits.streamId, List.nil_append]
    rfl
  · obtain ⟨hr, rfl⟩ := hstale hphase
    have hclosed : y.conn.closed = false := by
      rw [hy]
      exact h.socket
    have hstep := herror i .protocolError (hadmits.streamId ▸ hr) hclosed hi
    rw [hstep] at hw ⊢
    obtain ⟨htook, hknows⟩ := htook [rstStreamFrame i .protocolError]
      [.wrote (rstStreamFrame i .protocolError)] hw rfl (by simp [framesOf_append, hframes]; rfl)
    exact ⟨_, htook, hknows, .inr rfl, fun hfresh' => absurd (hadmits.phase hfresh') hphase⟩

end System

end TornadoHttp2
