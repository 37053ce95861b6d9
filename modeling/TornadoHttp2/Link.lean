import TornadoHttp2.FrameSizes
import TornadoHttp2.InFlight

/-! A client and a server of this program over a reliable link that keeps the
order of its bytes, once the server has read the connection preface. -/

namespace TornadoHttp2

/-- The ends of the link, the client as `true`; the bytes on their way to each of
them, and the calls of `write_headers` whose frames are among these bytes. -/
structure Link where
  ends : Bool → System
  inFlight : Bool → Bytes
  unread : Bool → List Message

namespace Link

/-- The client opens a stream, an end calls `write_headers` without a first chunk,
or the next frame reaches an end. -/
inductive Action
  | createStream
  | writeHeaders (isClient : Bool) (streamId : Nat) (startLine : StartLine Bytes)
    (headers : HTTPHeaders Bytes) (callback : Option Nat)
  | deliver (toClient later : Bool)
  deriving DecidableEq, Repr

/-- A step of one end. The frames that it writes are on their way to the other,
and `m` is the message of its header blocks. -/
def perform (n : Link) (isClient : Bool) (a : System.Action) (m : Message) : Link :=
  let s := n.ends isClient
  let frames := framesOf ((s.step a).conn.log.drop s.conn.log.length)
  { ends := Function.update n.ends isClient (s.step a)
    inFlight := Function.update n.inFlight (!isClient) (n.inFlight (!isClient) ++ frames.flatMap Frame.encoded)
    unread := Function.update n.unread (!isClient) (n.unread (!isClient) ++ carried m frames) }

/-- The bytes of a frame have been read. -/
def pop (n : Link) (toClient : Bool) (frame : Frame) (rest : Bytes) : Link where
  ends := n.ends
  inFlight := Function.update n.inFlight toClient rest
  unread := Function.update n.unread toClient
    (if frame.type = .headers then (n.unread toClient).tail else n.unread toClient)

def step (n : Link) : Action → Link
  | .createStream => n.perform true .createStream (0, .response 0, .empty)
  | .writeHeaders isClient streamId startLine headers callback =>
    n.perform isClient (.writeHeaders streamId startLine headers [] callback) (streamId, startLine, headers)
  | .deliver toClient later =>
    match Frame.read (n.inFlight toClient) with
    | none => n
    | some (frame, rest) =>
      -- The only header block that an end writes by itself is that of a 431 response.
      (n.pop toClient frame rest).perform toClient (.receive frame later) (frame.streamId, .response 431, .empty)

/-- Both ends have sent their SETTINGS. -/
def start (params : Bool → Params) : Link where
  ends isClient := .start isClient (params isClient)
  inFlight toClient := (settingsFrame (!toClient)).encoded
  unread _ := []

/-- A message is written only if its block fits the peer's limits. -/
def Permitted (n : Link) : Action → Prop
  | .writeHeaders isClient streamId startLine headers callback =>
    let length := (n.ends isClient).payloadLength (.writeHeaders streamId startLine headers [] callback)
    streamId < 2 ^ 31 ∧ Sendable isClient startLine headers ∧
      length ≤ (n.ends (!isClient)).conn.setting .maxFrameSize ∧
      length ≤ (n.ends (!isClient)).conn.params.maxHeaderSize
  | _ => True

/-- A message that is written is on its way, and the next one to arrive reaches
the delegate if its stream is new or waits for it. -/
def Relays (n : Link) : Action → Prop
  | .createStream => True
  | .writeHeaders isClient streamId startLine headers callback =>
    ((n.ends isClient).streams streamId).isSome = true →
      (n.step (.writeHeaders isClient streamId startLine headers callback)).unread (!isClient) =
        n.unread (!isClient) ++ [(streamId, startLine, headers)]
  | .deliver toClient later =>
    match Frame.read (n.inFlight toClient) with
    | none => n.unread toClient = []
    | some (frame, _) => frame.type = .headers → ∃ startLine headers,
      (n.unread toClient).head? = some (frame.streamId, startLine, headers) ∧
        ((∀ self, (n.ends toClient).streams frame.streamId = some self → self.phase = .headers) →
          messages ((n.step (.deliver toClient later)).ends toClient).conn.log =
            messages (n.ends toClient).conn.log ++
              [(frame.streamId, startLine.optional, headers.withoutConnection.optional)])

/-- Both ends are ready, and what is on its way to an end takes its HPACK table
to that of the peer. The client knows every stream of the server. -/
structure Synced (n : Link) : Prop where
  ready (isClient : Bool) : (n.ends isClient).Ready isClient
  flows (toClient : Bool) : Flows toClient (n.ends toClient) (n.inFlight toClient) (n.unread toClient)
    (n.ends (!toClient)).conn.hpackEncoder.table
  known {i : Nat} : (n.ends false).Knows i → (n.ends true).Knows i
  unread (toClient : Bool) : ∀ m ∈ n.unread toClient, (n.ends (!toClient)).Knows m.1

variable {n : Link} {isClient toClient : Bool} {a : System.Action} {m : Message}

theorem perform_ends : (n.perform isClient a m).ends isClient = (n.ends isClient).step a := Function.update_self ..

theorem perform_peer : (n.perform isClient a m).ends (!isClient) = n.ends (!isClient) :=
  Function.update_of_ne (by simp) ..

theorem perform_idle (h : (n.ends isClient).step a = n.ends isClient) : n.perform isClient a m = n := by
  have hnothing : (n.ends isClient).conn.log.drop (n.ends isClient).conn.log.length = [] := List.drop_length ..
  rw [perform, h, hnothing]
  simp [framesOf, carried]

/-- A step of one end, by what it becomes and what it sends. -/
theorem Synced.perform (new : List Message) (hready : ((n.ends isClient).step a).Ready isClient)
    (hpeer : (n.ends (!isClient)).Ready (!isClient))
    (hin : Flows isClient ((n.ends isClient).step a) (n.inFlight isClient) (n.unread isClient)
      (n.ends (!isClient)).conn.hpackEncoder.table)
    (hout : Flows (!isClient) (n.ends (!isClient)) (n.inFlight (!isClient)) (n.unread (!isClient))
      (n.ends isClient).conn.hpackEncoder.table)
    (hsent : ∃ es, ((n.ends isClient).step a).conn.log = (n.ends isClient).conn.log ++ es ∧
      carried m (framesOf es) = new ∧
      Underway (!isClient) (n.ends (!isClient)).conn.params.maxHeaderSize
        (fun j => (n.ends (!isClient)).Knows j ∨ j ∈ (n.unread (!isClient)).map (·.1))
          (n.ends isClient).conn.hpackEncoder.table
        (framesOf es) new ((n.ends isClient).step a).conn.hpackEncoder.table)
    (hknown : ∀ i, ((n.perform isClient a m).ends false).Knows i → ((n.perform isClient a m).ends true).Knows i)
    (hunread : ∀ m ∈ n.unread isClient, (n.ends (!isClient)).Knows m.1)
    (hsender : ∀ m ∈ n.unread (!isClient) ++ new, ((n.ends isClient).step a).Knows m.1) :
    Synced (n.perform isClient a m) ∧ (n.perform isClient a m).unread (!isClient) = n.unread (!isClient) ++ new := by
  obtain ⟨es, hlog, rfl, hway⟩ := hsent
  have hes : ((n.ends isClient).step a).conn.log.drop (n.ends isClient).conn.log.length = es := by
    rw [hlog, List.drop_left]
  have hne : isClient ≠ !isClient := by simp
  have hbytes : (n.perform isClient a m).inFlight (!isClient) =
      n.inFlight (!isClient) ++ (framesOf es).flatMap Frame.encoded := by
    rw [Link.perform, hes]
    exact Function.update_self ..
  have hbytes' : (n.perform isClient a m).inFlight isClient = n.inFlight isClient := Function.update_of_ne hne ..
  have hmessages : (n.perform isClient a m).unread (!isClient) = n.unread (!isClient) ++ carried m (framesOf es) := by
    rw [Link.perform, hes]
    exact Function.update_self ..
  have hmessages' : (n.perform isClient a m).unread isClient = n.unread isClient := Function.update_of_ne hne ..
  refine ⟨⟨fun e => ?_, fun e => ?_, hknown _, fun e => ?_⟩, hmessages⟩
  · rcases Bool.eq_or_eq_not e isClient with rfl | rfl
    · rw [perform_ends]
      exact hready
    · rw [perform_peer]
      exact hpeer
  · rcases Bool.eq_or_eq_not e isClient with rfl | rfl
    · rw [perform_ends, perform_peer, hbytes', hmessages']
      exact hin
    · rw [Bool.not_not, perform_ends, perform_peer, hbytes, hmessages]
      exact hout.send hway
  · rcases Bool.eq_or_eq_not e isClient with rfl | rfl
    · rw [perform_peer, hmessages']
      exact hunread
    · rw [Bool.not_not, perform_ends, hmessages]
      exact hsender

namespace Synced

theorem outgoing (h : Synced n) (isClient : Bool) : Flows (!isClient) (n.ends (!isClient)) (n.inFlight (!isClient))
    (n.unread (!isClient)) (n.ends isClient).conn.hpackEncoder.table := by
  have hflows := h.flows (!isClient)
  rwa [Bool.not_not] at hflows

theorem sender (h : Synced n) (isClient : Bool) : ∀ m ∈ n.unread (!isClient), (n.ends isClient).Knows m.1 := by
  have hunread := h.unread (!isClient)
  rwa [Bool.not_not] at hunread

end Synced

theorem ready_start (isClient : Bool) (params : Params) : (System.start isClient params).Ready isClient := by
  have hnone {i : Nat} {self : Stream} (h : (System.start isClient params).streams i = some self) : False := by cases h
  have htree : (System.start isClient params).conn.huffmanTree = huffmanTree := by simp only [System.start]
  exact ⟨.start isClient params, rfl, rfl, rfl, rfl, htree ▸ huffmanTree_complete, DynamicTable.new_sized _,
    fun h => (hnone h).elim, fun h => (hnone h).elim, fun _ h => (hnone h).elim⟩

theorem Synced.start (params : Bool → Params) : Synced (Link.start params) where
  ready isClient := ready_start isClient (params isClient)
  flows toClient := ⟨[settingsFrame (!toClient)], by simp [Link.start], .settings .nil⟩
  known := by
    rintro i ⟨self, hself, -⟩
    cases hself
  unread toClient m hm := by cases hm

/-- `create_stream` on the client. -/
theorem ready_createStream {s : System} (h : s.Ready true) : (s.step .createStream).Ready true ∧
    ∀ i, s.Knows i → (s.step .createStream).Knows i := by
  have hw := h.wellFormed.step .createStream
  have hnew : s.streams s.conn.nextStreamId = none := by
    have hown := (h.wellFormed.ownIds (i := s.conn.nextStreamId) rfl).not
    simpa using hown
  have hodd : s.conn.nextStreamId % 2 = 1 := by rw [h.wellFormed.parity, h.role, if_pos rfl]
  have hother {i : Nat} (hi : i ≠ s.conn.nextStreamId) : (s.step .createStream).streams i = s.streams i :=
    Function.update_of_ne hi ..
  have hself : (s.step .createStream).streams s.conn.nextStreamId =
      some { Stream.new { s.conn with nextStreamId := s.conn.nextStreamId + 2 } s.conn.nextStreamId true with
        requestStartLine := none } := Function.update_self ..
  refine ⟨⟨hw, h.role, h.running, h.socket, h.frameSize,
    h.tree, h.encoder, fun {i self} hi => ?_, fun {i self} hi => ?_,
    fun hserver => absurd hserver.symm Bool.false_ne_true⟩, fun i hi => ?_⟩
  · by_cases hnext : i = s.conn.nextStreamId
    · rw [hnext, hself, Option.some.injEq] at hi
      exact hi ▸ ⟨rfl, rfl, rfl⟩
    · exact h.streams ((hother hnext).symm.trans hi)
  · by_cases hnext : i = s.conn.nextStreamId
    · exact hnext ▸ hodd
    · exact h.odd ((hother hnext).symm.trans hi)
  · obtain ⟨self, hself, hstart⟩ := hi
    have hnext : i ≠ s.conn.nextStreamId := fun heq => by
      rw [heq, hnew] at hself
      cases hself
    exact ⟨self, (hother hnext).trans hself, hstart⟩

theorem Synced.createStream (h : Synced n) : Synced (n.step .createStream) := by
  obtain ⟨hready, hknows⟩ := ready_createStream (h.ready true)
  have hrun : ∃ windowSize, ((n.ends true).step .createStream).conn =
      { (n.ends true).conn with
        nextStreamId := (n.ends true).conn.nextStreamId + 2
        log := (n.ends true).conn.log ++ [.opened (n.ends true).conn.nextStreamId windowSize] } := ⟨_, rfl⟩
  obtain ⟨windowSize, hconn⟩ := hrun
  have hlog : ((n.ends true).step .createStream).conn.log =
      (n.ends true).conn.log ++ [.opened (n.ends true).conn.nextStreamId windowSize] := by rw [hconn]
  refine (Synced.perform [] hready (h.ready false) ?_ (h.flows false) ⟨_, hlog, rfl, ?_⟩ ?_ (h.unread true) ?_).1
  · exact (h.flows true).grow (by rw [hconn]) (by rw [hconn]) hknows
  · rw [hconn]
    exact .nil
  · intro i hi
    exact hknows i (h.known hi)
  · intro m hm
    rw [List.append_nil] at hm
    exact hknows _ (h.unread false m hm)

theorem Synced.writeHeaders (h : Synced n) {i : Nat} {startLine : StartLine Bytes} {headers : HTTPHeaders Bytes}
    {callback : Option Nat} (hok : n.Permitted (.writeHeaders isClient i startLine headers callback)) :
    Synced (n.step (.writeHeaders isClient i startLine headers callback)) ∧
      n.Relays (.writeHeaders isClient i startLine headers callback) := by
  obtain ⟨hi, hsend, hsize, hlimit⟩ := hok
  cases hself : (n.ends isClient).streams i with
  | none =>
    have hidle : (n.ends isClient).step (.writeHeaders i startLine headers [] callback) = n.ends isClient := by
      have hcall : (n.ends isClient).step (.writeHeaders i startLine headers [] callback) =
          ((System.onStream i (Stream.writeHeaders startLine headers [] callback)).run (n.ends isClient)).2 :=
        System.step_method rfl
      rw [hcall]
      simp only [System.onStream, Prog.run_get_bind, hself, Prog.run_pure]
    refine ⟨?_, fun hsome => by simp [hself] at hsome⟩
    rw [step, perform_idle hidle]
    exact h
  | some self =>
    rw [(h.ready (!isClient)).setting] at hsize
    simp only [System.payloadLength, hself, Option.elim_some] at hsize hlimit
    have hknows (hserver : isClient = false) : (n.ends true).Knows i := by
      subst hserver
      exact h.known ⟨self, hself, (h.ready false).started rfl hself⟩
    have hwrote : (n.ends isClient).Wrote isClient (i, startLine, headers)
      (n.ends (!isClient)).conn.params.maxHeaderSize
        (fun j => (n.ends (!isClient)).Knows j ∨ j ∈ (n.unread (!isClient)).map (·.1))
        ((n.ends isClient).step (.writeHeaders i startLine headers [] callback)) := by
      refine (h.ready isClient).write hself hi hsend hsize hlimit fun hserver => .inl ?_
      subst hserver
      exact hknows rfl
    have hsynced := @Synced.perform n isClient (.writeHeaders i startLine headers [] callback) (i, startLine, headers)
      [(i, startLine, headers)] hwrote.ready (h.ready _)
      ((h.flows isClient).grow hwrote.params hwrote.decoder fun j => hwrote.knows) (h.outgoing isClient) hwrote.log
      (fun j hj => ?_) (h.unread isClient) (fun m hm => ?_)
    · exact ⟨hsynced.1, fun _ => hsynced.2⟩
    · cases isClient with
      | true =>
        rw [perform_ends]
        exact hwrote.knows (h.known hj)
      | false =>
        rw [perform_ends] at hj
        rcases hwrote.learns hj with hj | rfl
        · exact h.known hj
        · exact hknows rfl
    · rcases List.mem_append.mp hm with hm | hm
      · exact hwrote.knows (h.sender isClient m hm)
      · rw [List.mem_singleton.mp hm]
        exact hwrote.sender

theorem Synced.deliver (h : Synced n) (toClient later : Bool) :
    Synced (n.step (.deliver toClient later)) ∧ n.Relays (.deliver toClient later) := by
  cases hread : Frame.read (n.inFlight toClient) with
  | none =>
    rw [step, Relays, hread]
    exact ⟨h, (h.flows toClient).unread_nil hread⟩
  | some read =>
    obtain ⟨frame, rest⟩ := read
    obtain ⟨htakes, hflows⟩ := (h.flows toClient).take (h.ready toClient) hread later
    have hstep : n.step (.deliver toClient later) = (n.pop toClient frame rest).perform toClient (.receive frame later)
        (frame.streamId, .response 431, .empty) := by
      rw [step, hread]
    have hin : (n.pop toClient frame rest).inFlight toClient = rest := Function.update_self ..
    have hmessages : (n.pop toClient frame rest).unread toClient =
        if frame.type = .headers then (n.unread toClient).tail else n.unread toClient := Function.update_self ..
    have hbytes : (n.pop toClient frame rest).inFlight (!toClient) = n.inFlight (!toClient) :=
      Function.update_of_ne (by simp) ..
    have hpeer : (n.pop toClient frame rest).unread (!toClient) = n.unread (!toClient) :=
      Function.update_of_ne (by simp) ..
    have hhead {m : Message} (hm : m ∈ (n.unread toClient).head?) : (n.ends (!toClient)).Knows m.1 :=
      h.unread toClient m (List.mem_of_mem_head? hm)
    have hsynced := @Synced.perform (n.pop toClient frame rest) toClient (.receive frame later)
      (frame.streamId, .response 431, .empty) [] htakes.ready (h.ready (!toClient))
        (by rw [hin, hmessages]; exact hflows)
      (by rw [hbytes, hpeer]; exact h.outgoing toClient) ?_ (fun j hj => ?_) (fun m hm => ?_) (fun m hm => ?_)
    · rw [hstep]
      refine ⟨hsynced.1, ?_⟩
      rw [Relays, hread, hstep, perform_ends]
      exact htakes.told
    · obtain ⟨es, hes, hanswers⟩ := htakes.log
      have hcarried : carried (frame.streamId, .response 431, .empty) (framesOf es) = [] := by
        rw [carried, List.filter_eq_nil_iff.mpr fun f hf => ?_, List.map_nil]
        rcases hanswers f hf with rfl | ⟨m, -, -, rfl⟩
        · decide
        · simp [rstStreamFrame]
      have hencoder : (((n.pop toClient frame rest).ends toClient).step
          (.receive frame later)).conn.hpackEncoder.table =
          ((n.pop toClient frame rest).ends toClient).conn.hpackEncoder.table := htakes.encoder
      refine ⟨es, hes, hcarried, ?_⟩
      rw [hencoder]
      refine .answers fun f hf => (hanswers f hf).imp id ?_
      rintro ⟨m, hm, hi, rfl⟩
      exact ⟨m.1, packBytes 4 ErrorCode.protocolError.code, .inl (hhead hm), hi, rfl, rfl⟩
    · cases toClient with
      | true =>
        rw [perform_ends]
        exact htakes.knows (h.known hj)
      | false =>
        rw [perform_ends] at hj
        rcases htakes.learns hj with hj | ⟨m, hm, rfl⟩
        · exact h.known hj
        · exact hhead hm
    · refine h.unread toClient m ?_
      rw [hmessages] at hm
      split at hm
      · exact List.mem_of_mem_tail hm
      · exact hm
    · rw [List.append_nil, hpeer] at hm
      exact htakes.knows (h.sender toClient m hm)

theorem Synced.step (h : Synced n) (a : Action) (hok : n.Permitted a) : Synced (n.step a) ∧ n.Relays a := by
  cases a with
  | createStream => exact ⟨h.createStream, trivial⟩
  | writeHeaders => exact h.writeHeaders hok
  | deliver toClient later => exact h.deliver toClient later

/-- What `write_headers` sends, the delegate at the other end receives. -/
theorem written_headers_received (params : Bool → Params) (actions : List Action)
    (h : Runs.Along step Permitted (start params) actions) : Runs.Along step Relays (start params) actions :=
  Runs.Along.mono (fun _ a (hn : Synced _) hok => (hn.step a hok).1)
    (fun _ a hn hok => (hn.step a hok).2) (.start params) h

theorem Relays.told {later : Bool} {frame : Frame} {rest : Bytes} (h : n.Relays (.deliver toClient later))
    (hread : Frame.read (n.inFlight toClient) = some (frame, rest)) (htype : frame.type = .headers)
    (hnew : (n.ends toClient).streams frame.streamId = none) :
    messages ((n.step (.deliver toClient later)).ends toClient).conn.log ≠ [] := by
  rw [Relays, hread] at h
  obtain ⟨startLine, headers, -, htold⟩ := h htype
  rw [htold fun self hself => absurd (hnew.symm.trans hself) (by simp)]
  simp

def getRequest : StartLine Bytes := .request (ascii "GET") (ascii "/")

def twoValues : HTTPHeaders Bytes := ⟨[(ascii "Accept", [ascii "a", ascii "b"])]⟩

def withLength : HTTPHeaders Bytes :=
  ⟨[(ascii "Content-Length", [ascii "5"]), (ascii "Connection", [ascii "close"])]⟩

/-- A request with two values of a header, and its response. -/
def exchange : List Action :=
  [.createStream, .writeHeaders true 1 getRequest twoValues none, .deliver false false, .deliver false false,
    .writeHeaders false 1 (.response 200) withLength none, .deliver true false, .deliver true false,
    .deliver true false]

theorem twoValues_sendable : Sendable true getRequest twoValues where
  line := ⟨rfl, by decide, by decide⟩
  multimap := ⟨by decide, by decide, by decide, by decide⟩
  names := by decide
  values := by decide
  length := .inl (by decide)
  te := .inl (by decide)

theorem withLength_sendable : Sendable false (.response 200) withLength where
  line := rfl
  multimap := ⟨by decide, by decide, by decide, by decide⟩
  names := by decide
  values := by decide
  length := .inr ⟨ascii "5", by decide, by decide, by decide⟩
  te := .inl (by decide)

theorem exchange_received : Runs.Along step Relays (start fun _ => .new none .caseless) exchange ∧
    let n := exchange.foldl step (start fun _ => .new none .caseless)
    messages (n.ends false).conn.log = [(1, getRequest.optional, twoValues.optional)] ∧
      messages (n.ends true).conn.log = [(1, .response 200, withLength.withoutConnection.optional)] :=
  ⟨written_headers_received _ exchange ⟨trivial, ⟨by decide, twoValues_sendable, by decide +kernel⟩,
    trivial, trivial, ⟨by decide, withLength_sendable, by decide +kernel⟩, trivial, trivial, trivial, trivial⟩,
    by decide +kernel, by decide +kernel⟩

/-- `te: trailers`, twice. -/
def repeatedTe : HTTPHeaders Bytes := ⟨[(ascii "Te", [ascii "trailers", ascii "trailers"])]⟩

/-- The client once it has opened the streams below this one. -/
def clientAt (streamId : Nat) : System :=
  let s := System.start true (.new none .caseless)
  { s with conn := { s.conn with nextStreamId := streamId } }

/-- The server joins the values of TE before it compares them. A block for a
stream id that does not fit its field changes the encoder, but is not sent. -/
theorem not_every_written_header_received :
    let n := [Action.createStream, .writeHeaders true 1 getRequest repeatedTe none, .deliver false false].foldl step
      (start fun _ => .new none .caseless)
    (getRequest.SentBy true ∧ repeatedTe.WellFormed ∧
      (∀ e ∈ repeatedTe.asList, Stream.isPseudo e.1 = false) ∧
      (∀ e ∈ repeatedTe.asList, ∀ v ∈ e.2, IsText (some v)) ∧
      repeatedTe.values (ascii "content-length") = none ∧
      (∀ vs, repeatedTe.values (ascii "te") = some vs → ∀ v ∈ vs, v = ascii "trailers")) ∧
    ¬ n.Relays (.deliver false false) ∧
    let s := ((clientAt (2 ^ 31 + 1)).step .createStream).step
      (.writeHeaders (2 ^ 31 + 1) getRequest twoValues [] none)
    framesOf s.conn.log = [settingsFrame true] ∧
      s.conn.hpackEncoder.table ≠ (clientAt (2 ^ 31 + 1)).conn.hpackEncoder.table := by
  intro n
  have hfacts : ((Frame.read (n.inFlight false)).map fun read => (read.1.type, read.1.streamId)) = some (.headers, 1) ∧
      (n.ends false).streams 1 = none ∧ messages ((n.step (.deliver false false)).ends false).conn.log = [] := by
    decide +kernel
  generalize n = n at hfacts ⊢
  obtain ⟨hframe, hnew, hnothing⟩ := hfacts
  refine ⟨⟨⟨rfl, by decide, by decide⟩, ⟨by decide, by decide, by decide, by decide⟩, by decide, by decide, by decide,
    fun vs hvs => ?_⟩, fun h => ?_, by decide +kernel⟩
  · obtain rfl : [ascii "trailers", ascii "trailers"] = vs := Option.some.inj ((by decide : _ = _).symm.trans hvs)
    decide
  · obtain ⟨⟨frame, rest⟩, hread, heq⟩ := Option.map_eq_some_iff.mp hframe
    obtain ⟨htype, hid⟩ := Prod.mk.inj heq
    exact h.told hread htype (hid ▸ hnew) hnothing

end Link

end TornadoHttp2
