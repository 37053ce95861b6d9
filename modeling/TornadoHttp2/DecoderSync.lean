import TornadoHttp2.Delivery
import TornadoHttp2.Padding
import TornadoHttp2.StreamIds
import TornadoHttp2.TableLimit

/-! The decoder of a connection against the header blocks on the wire. Which
blocks there are is read off the frames alone, and the decoder should have
decoded each of them once. -/

namespace TornadoHttp2

open Prog

/-- The payload of a frame without the padding that its first byte announces. -/
def Frame.payload (f : Frame) : Bytes :=
  if f.has .padded then
    match f.data with
    | [] => []
    | p :: rest => rest.take (rest.length - p.toNat)
  else f.data

/-- The header blocks that some frames make up: those that are complete, and the
frames of the one that is not. -/
structure WireBlocks where
  complete : List Bytes
  underway : List Frame

namespace WireBlocks

/-- The block with these frames goes on, or ends here. -/
def collect (b : WireBlocks) (first : Frame) (rest : List Frame) (ends : Bool) : WireBlocks :=
  if ends then ⟨b.complete ++ [blockData first rest], []⟩ else ⟨b.complete, first :: rest⟩

def after (b : WireBlocks) (frame : Frame) : WireBlocks :=
  match frame.type with
  | .headers => b.collect { frame with data := frame.payload } [] (frame.has .endHeaders)
  | .continuation =>
    match b.underway with
    | [] => b
    | first :: rest => b.collect first (rest ++ [frame]) (frame.has .endHeaders)
  | _ => b

/-- What a new decoder becomes that decodes the complete blocks. -/
def decoder (b : WireBlocks) : HpackDecoder × HuffmanTree :=
  b.complete.foldl HpackDecoder.next (.new 4096, huffmanTree)

theorem after_of_ne {b : WireBlocks} {frame : Frame} (htype : frame.type ≠ .headers)
    (h : frame.type = .continuation → b.underway = []) : b.after frame = b := by
  rw [after]
  split
  · exact absurd ‹_› htype
  · rw [h ‹_›]
  · rfl

end WireBlocks

/-- The header blocks that the frames in a log make up. -/
def wireBlocks (log : List Event) : WireBlocks := (receivedFrames log).foldl .after ⟨[], []⟩

/-- A pad length of 0 has nothing after it, and one of 128 or more has 255 bytes. -/
def Frame.PadLengthRead (f : Frame) : Prop :=
  f.has .padded = true → (f.data.head? = some 0 → f.data.length = 1) ∧
    (128 ≤ (f.data.headD 0).toNat → f.data.length = 256)

instance (f : Frame) : Decidable f.PadLengthRead := inferInstanceAs (Decidable (_ → _))

theorem Frame.withoutPadding_payload {frame f : Frame} (hread : frame.PadLengthRead)
    (h : frame.withoutPadding = .ok f) : f = { frame with data := frame.payload } := by
  by_cases hpadded : frame.has .padded = true
  · obtain ⟨hzero, hlarge⟩ := hread hpadded
    rw [payload, if_pos hpadded]
    cases hdata : frame.data with
    | nil => simp [withoutPadding, hpadded, hdata] at h
    | cons p rest =>
      rw [hdata] at hzero hlarge
      have hlt := p.toNat_lt
      by_cases hlength : p.toNat ≤ rest.length ∨ 128 ≤ p.toNat
      · rw [withoutPadding_stripped hpadded hdata hlength] at h
        cases h
        have hstripped : stripped p rest = rest.take (rest.length - p.toNat) := by
          rw [stripped]
          by_cases hp : p = 0
          · have hnil : rest = [] := by simpa [hp] using hzero
            simp [hp, hnil]
          · rw [if_neg hp]
            split
            · rfl
            · have : rest.length = 255 := by simpa using hlarge (by simpa using not_lt.mp ‹_›)
              rw [this]
        rw [hstripped]
      · rw [withoutPadding_invalid hpadded hdata (by omega) (by omega)] at h
        cases h
  · rw [withoutPadding, if_neg hpadded] at h
    rw [payload, if_neg hpadded]
    exact (Except.ok.inj h).symm

section

variable {b : WireBlocks} {c c' : Ctx} {frame f first : Frame} {rest : List Frame}

theorem Ctx.Adds.after (h : c.Adds frame f) (hcollected : c.self.headerFrames = b.underway)
    (hcontinues : b.underway ≠ [] → frame.type = .continuation)
    (hread : frame.type = .headers → frame.PadLengthRead)
    (hframes : c.self.headerFrames ++ [f] = first :: rest) :
    b.after frame = b.collect first rest (frame.has .endHeaders) := by
  rw [hcollected] at hframes
  rcases h with ⟨htype, hpadding⟩ | ⟨htype, hne, rfl⟩
  · have hnil : b.underway = [] := by
      by_contra hne
      exact absurd (htype.symm.trans (hcontinues hne)) nofun
    rw [hnil, List.nil_append, List.cons.injEq] at hframes
    obtain ⟨rfl, rfl⟩ := hframes
    rw [Frame.withoutPadding_payload (hread htype) hpadding, WireBlocks.after, htype]
  · rw [WireBlocks.after, htype]
    cases hunderway : b.underway with
    | nil => exact absurd (hcollected.trans hunderway) hne
    | cons first' rest' =>
      rw [hunderway, List.cons_append, List.cons.injEq] at hframes
      obtain ⟨rfl, rfl⟩ := hframes
      rfl

/-- The decoder and the fragments of a stream are those that the wire asks for. -/
structure Ctx.InSync (c : Ctx) (b : WireBlocks) : Prop where
  decoder : (c.conn.hpackDecoder, c.conn.huffmanTree) = b.decoder
  underway : c.self.headerFrames = b.underway

theorem Ctx.InSync.collects {r : Except PyException Unit} (h : c.InSync b)
    (hcontinues : b.underway ≠ [] → frame.type = .continuation ∧ c.self.finished = false)
    (hread : frame.type = .headers → c.self.finished = false ∧ frame.PadLengthRead)
    (hcollects : Collects frame c r c') (hr : ¬ Fatal r) : c'.InSync (b.after frame) := by
  have hadded {f first : Frame} {rest : List Frame} (hadds : c.Adds frame f)
      (hframes : c.self.headerFrames ++ [f] = first :: rest) :
      b.after frame = b.collect first rest (frame.has .endHeaders) :=
    hadds.after h.underway (fun hne => (hcontinues hne).1) (fun htype => (hread htype).2) hframes
  cases hcollects with
  | nothing hframe hundecoded =>
    have hsame : b.after frame = b := by
      rcases hframe with ⟨hheaders, hcontinuation⟩ | hfinished | hfatal
      · exact WireBlocks.after_of_ne hheaders fun htype => absurd htype hcontinuation
      · refine WireBlocks.after_of_ne (fun htype => ?_) fun _ => ?_
        · exact absurd ((hread htype).1.symm.trans hfinished) nofun
        · by_contra hne
          exact absurd ((hcontinues hne).2.symm.trans hfinished) nofun
      · exact absurd hfatal hr
    rw [hsame]
    refine ⟨?_, hundecoded.frames.trans h.underway⟩
    rw [hundecoded.decoder, hundecoded.tree, h.decoder]
  | @fragment f _ _ hadds hends _ hundecoded =>
    obtain ⟨first, rest, hframes⟩ := List.exists_cons_of_ne_nil (List.append_ne_nil_of_right_ne_nil c.self.headerFrames
      (List.cons_ne_nil f []))
    rw [hadded hadds hframes, hends.resolve_right hr]
    refine ⟨?_, hundecoded.frames.trans hframes⟩
    rw [hundecoded.decoder, hundecoded.tree]
    exact h.decoder
  | abandoned hfatal => exact absurd hfatal hr
  | @block f first rest _ _ hadds hends hframes hdecodes =>
    rw [hadded hadds hframes, hends]
    refine ⟨?_, hdecodes.frames⟩
    have hnext : (c'.conn.hpackDecoder, c'.conn.huffmanTree) =
        HpackDecoder.next (c.conn.hpackDecoder, c.conn.huffmanTree) (blockData first rest) := hdecodes.decoder
    rw [hnext, h.decoder, WireBlocks.decoder, WireBlocks.decoder, WireBlocks.collect, if_pos rfl, List.foldl_concat]

end

theorem receivedFrames_grows {log log' : List Event} (h : Grows (fun e => ¬ e.ofLoop) log log') :
    receivedFrames log' = receivedFrames log := by
  obtain ⟨es, rfl, hes⟩ := h
  have hnil : receivedFrames es = [] := List.filterMap_eq_nil_iff.mpr fun e he => by
    cases e with
    | received => exact absurd trivial (hes _ he)
    | _ => rfl
  rw [receivedFrames_append, hnil, List.append_nil]

theorem wireBlocks_received {log : List Event} {frame : Frame} :
    wireBlocks (log ++ [.received frame]) = (wireBlocks log).after frame := by
  rw [wireBlocks, receivedFrames_append]
  exact List.foldl_concat ..

theorem wireBlocks_congr {log log' : List Event} (h : receivedFrames log' = receivedFrames log) :
    wireBlocks log' = wireBlocks log := congrArg (List.foldl _ _) h

namespace System

def fragmentsOf (s : System) (i : Nat) : List Frame := ((s.streams i).map Stream.headerFrames).getD []

/-- The fragments that the connection has collected. -/
def underway (s : System) : List Frame := (s.lastStream.map s.fragmentsOf).getD []

/-- The decoder is where it comes to that decodes the header blocks on the wire,
each of them once, and the fragments are those of the block that is not complete. -/
structure InSync (s : System) : Prop where
  decoder : (s.conn.hpackDecoder, s.conn.huffmanTree) = (wireBlocks s.conn.log).decoder
  underway : s.underway = (wireBlocks s.conn.log).underway

/-- A HEADERS frame of a stream that exists, or that it opens, finds the stream
unfinished, and its pad length is read. -/
def ReadsBlock (s : System) : Action → Prop
  | .receive frame _ => frame.type = .headers →
      s.Reads frame ∧ (s.streams frame.streamId).isSome = true ∨ s.Opens frame →
        (s.streamOf frame).finished = false ∧ frame.PadLengthRead
  | _ => True

instance (s : System) : (a : Action) → Decidable (s.ReadsBlock a)
  | .receive frame _ => inferInstanceAs (Decidable (frame.type = .headers → _ → _ ∧ _))
  | .createStream | .upgrade _ _ | .writeHeaders _ _ _ _ _ | .write _ _ _ | .finish _ | .reset _
  | .resume _ _ | .resolve _ _ | .goawayFlushed | .disconnect => isTrue trivial

section

variable {s s' : System} {i : Nat} {self : Stream} {frame : Frame} {later : Bool}

theorem fragmentsOf_some (h : s.streams i = some self) : s.fragmentsOf i = self.headerFrames := by
  rw [fragmentsOf, h]
  rfl

theorem underway_congr (hlast : s'.lastStream = s.lastStream) (h : ∀ i, s'.fragmentsOf i = s.fragmentsOf i) :
    s'.underway = s.underway := by
  rw [underway, underway, hlast, funext h]

theorem fragmentsOf_withStream (hnone : s.streams self.streamId = none) (hframes : self.headerFrames = []) (i : Nat) :
    (s.withStream self).fragmentsOf i = s.fragmentsOf i := by
  by_cases hid : i = self.streamId
  · subst hid
    rw [fragmentsOf_some withStream_self, hframes, fragmentsOf, hnone]
    rfl
  · rw [fragmentsOf, withStream_of_ne hid]
    rfl

theorem InSync.congr (h : s.InSync) (hconn : (s'.conn.hpackDecoder, s'.conn.huffmanTree) =
    (s.conn.hpackDecoder, s.conn.huffmanTree)) (hlast : s'.lastStream = s.lastStream)
    (hlog : receivedFrames s'.conn.log = receivedFrames s.conn.log)
    (hstreams : ∀ i, s'.fragmentsOf i = s.fragmentsOf i) : s'.InSync where
  decoder := by rw [hconn, wireBlocks_congr hlog, h.decoder]
  underway := by rw [wireBlocks_congr hlog, underway_congr hlast hstreams, h.underway]

theorem exists_of_fragmentsOf (h : s.fragmentsOf i ≠ []) :
    ∃ self, s.streams i = some self ∧ self.headerFrames ≠ [] := by
  cases hself : s.streams i with
  | none => exact absurd (by rw [fragmentsOf, hself]; rfl) h
  | some self => exact ⟨self, rfl, fragmentsOf_some hself ▸ h⟩

/-- What a frame that is let through finds at its stream is all that has been
collected. -/
theorem Collecting.underway_eq {p : Prop} (hw : WellFormed s) (h : s.Collecting p)
    (hblock : s.breaksHeaderBlock frame = false) : s.underway = s.fragmentsOf frame.streamId := by
  by_cases hempty : s.fragmentsOf frame.streamId = []
  · rw [hempty, underway]
    cases hlast : s.lastStream with
    | none => rfl
    | some i =>
      by_contra hne
      obtain ⟨self, hself, hframes⟩ := exists_of_fragmentsOf hne
      obtain ⟨-, rfl⟩ := h.continues hw hblock hself hframes
      exact hne hempty
  · obtain ⟨self, hself, hframes⟩ := exists_of_fragmentsOf hempty
    rw [underway, h.last hself hframes]
    rfl

/-- The decoder and the fragments after a stream has handled the frame. -/
theorem InSync.handled {self : Stream} {log : List Event} (hself : self.streamId = frame.streamId)
    (hlog : receivedFrames s.conn.log = receivedFrames (log ++ [.received frame]))
    (h : (⟨s.conn, self⟩ : Ctx).InSync (wireBlocks log))
    (hcontinues : (wireBlocks log).underway ≠ [] → frame.type = .continuation ∧ self.finished = false)
    (hread : frame.type = .headers → self.finished = false ∧ frame.PadLengthRead)
    (hr : ¬ Fatal (s.atStream frame later self).1) : (s.handled frame later self).InSync := by
  have hsync := h.collects (r := (s.atStream frame later self).1) hcontinues hread Stream.handleFrame_collects hr
  have hgrows := (Stream.handleFrame_acts frame later ⟨s.conn, self⟩ hself).2.log
  have hwire : wireBlocks (s.handled frame later self).conn.log = (wireBlocks log).after frame := by
    rw [← wireBlocks_received]
    exact wireBlocks_congr ((receivedFrames_grows (hgrows.mono fun _ he => he.2)).trans hlog)
  refine ⟨hwire ▸ hsync.decoder, ?_⟩
  rw [hwire]
  exact (fragmentsOf_some (setStream_self (s := { s with lastStream := some frame.streamId }))).trans hsync.underway

/-- A frame of stream 0 that is no violation belongs to no header block. -/
theorem conn_plain {c : Conn} (hr : ¬ Fatal ((Conn.handleFrame frame).run c).1) :
    frame.type ≠ .headers ∧ frame.type ≠ .continuation := by
  rw [Conn.handleFrame] at hr
  constructor
  · intro htype
    rw [htype] at hr
    exact hr ⟨_, rfl, fun _ _ h => by cases h⟩
  · intro htype
    rw [htype] at hr
    exact hr ⟨_, rfl, fun _ _ h => by cases h⟩

theorem past_headers_absent (hw : WellFormed s) (hremote : s.conn.isClient = true → s.maxRemoteStreamId = 0)
    (hid : frame.streamId ≠ 0) (hself : s.streams frame.streamId = none) (hclient : s.conn.isClient = true) :
    ¬ (frame.streamId : Int) ≤ s.maxStreamId frame.streamId := by
  rw [maxStreamId]
  split
  · rename_i hlocal
    have hown := hw.ownIds hlocal
    rw [hself] at hown
    simp only [Option.isSome_none, Bool.false_eq_true, false_iff] at hown
    omega
  · rw [hremote hclient]
    omega

theorem InSync.handledFrame (hw : WellFormed s) (hc : s.Collecting (s.loop = .running))
    (hremote : s.conn.isClient = true → s.maxRemoteStreamId = 0) (hloop : s.loop = .running) (h : s.InSync)
    (hcond : s.ReadsBlock (.receive frame later)) {r : Except PyException Unit} (hh : Handled s frame later r s')
    (hr : ¬ Fatal r) : s'.InSync := by
  cases hh with
  | oversized => exact absurd ⟨_, rfl, fun _ _ h => by cases h⟩ hr
  | interrupted => exact absurd ⟨_, rfl, fun _ _ h => by cases h⟩ hr
  | passed hsize hblock hd =>
    have hreads : s.Reads frame := ⟨hloop, hsize, hblock⟩
    have hfragments := hc.underway_eq hw hblock
    -- A block that is underway can only be continued, by a frame of its stream.
    have hcontinues (hne : (wireBlocks s.conn.log).underway ≠ []) : ∃ self,
        s.streams frame.streamId = some self ∧ frame.type = .continuation ∧ self.finished = false := by
      rw [← h.underway, hfragments] at hne
      obtain ⟨self, hself, hframes⟩ := exists_of_fragmentsOf hne
      obtain ⟨first, rest, hlist⟩ := List.exists_cons_of_ne_nil hframes
      exact ⟨self, hself, (hc.continues hw hblock hself hframes).1, (hc.buffered hloop hself hlist).isOpen⟩
    have outside (hself : s.streams frame.streamId = none) (htype : frame.type ≠ .headers) :
        (s.logged (.received frame)).InSync := by
      have hsame : wireBlocks (s.logged (.received frame)).conn.log = wireBlocks s.conn.log := by
        refine wireBlocks_received.trans (WireBlocks.after_of_ne htype fun _ => ?_)
        by_contra hne
        obtain ⟨self, hself', -⟩ := hcontinues hne
        exact absurd (hself'.symm.trans hself) (Option.some_ne_none _)
      exact ⟨hsame ▸ h.decoder, hsame ▸ h.underway⟩
    cases hd with
    | conn hid =>
      have hsame := (Conn.handleFrame_connOnly frame (s.logged (.received frame)).conn trivial).2
      refine (outside (hid ▸ hw.zero) (conn_plain hr).1).congr ?_ rfl ?_ fun _ => rfl
      · exact congrArg (fun t => (t.2.2.2.1, t.2.2.2.2.2)) hsame.same
      · exact receivedFrames_grows (hsame.log.mono fun _ he => he.2)
    | @stream self hid hself =>
      have hstored : s.streams frame.streamId = some self := hself
      refine InSync.handled (hw.streamId hself) rfl ⟨h.decoder, ?_⟩ (fun hne => ?_) (fun htype => ?_) hr
      · rw [← h.underway, hfragments, fragmentsOf_some hstored]
      · obtain ⟨self', hself', hcontinue⟩ := hcontinues hne
        rwa [Option.some.inj (hself.symm.trans hself')]
      · have hread := hcond htype (.inl ⟨hreads, Option.isSome_iff_exists.mpr ⟨_, hself⟩⟩)
        rwa [streamOf, hstored, Option.getD_some] at hread
    | accepted hid hself hserver htype hparity =>
      have hplain : Grows Event.isPlain (s.logged (.received frame)).conn.log
          ((s.logged (.received frame)).accepted frame).conn.log :=
        Grows.trans (.snoc (e := .opened frame.streamId _) trivial) (.snoc (e := .startRequest _) trivial)
      refine InSync.handled rfl hplain.receivedFrames ⟨h.decoder, ?_⟩ (fun hne => ?_) (fun _ => ?_) hr
      · rw [← h.underway, hfragments, fragmentsOf, show s.streams frame.streamId = none from hself]
        rfl
      · obtain ⟨self, hself', -⟩ := hcontinues hne
        exact absurd (hself'.symm.trans hself) (Option.some_ne_none _)
      · exact ⟨rfl, (hcond htype (.inr ⟨hreads, hserver, htype, hself, hid, hparity⟩)).2⟩
    | invalid => exact absurd ⟨_, rfl, fun _ _ h => by cases h⟩ hr
    | ignored _ hself htype =>
      refine outside hself fun hheaders => ?_
      rcases htype with htype | htype <;> cases hheaders.symm.trans htype
    | past hid hself hheaders hpast =>
      exact outside hself fun htype => past_headers_absent hw hremote hid hself (hheaders htype) hpast
    | future => exact absurd ⟨_, rfl, fun _ _ h => by cases h⟩ hr

theorem step_isClient (hw : WellFormed s) (a : Action) : (s.step a).conn.isClient = s.conn.isClient := by
  refine step_conn (Q := fun c => c.isClient = s.conn.isClient) hw ?_
    (fun frame c hc => ?_) (fun c c' hsame hc => ?_) rfl
  · rintro _ _ ⟨es, nextStreamId, closed, rfl, -⟩ hclient
    exact hclient
  · exact (congrArg Prod.fst (Conn.handleFrame_connOnly frame c trivial).2.same).trans hc
  · exact (congrArg Prod.fst hsame).trans hc

/-- A client has no streams of its peer. -/
theorem step_remote (hw : WellFormed s) (h : s.conn.isClient = true → s.maxRemoteStreamId = 0) (a : Action) :
    (s.step a).conn.isClient = true → (s.step a).maxRemoteStreamId = 0 := by
  rw [step_isClient hw]
  intro hclient
  rcases step_remoteIds hw a with ⟨frame, -, -, hopens, -⟩ | ⟨-, hids⟩
  · exact absurd (hopens.2.1.symm.trans hclient) nofun
  · exact (congrArg Prod.snd hids).trans (h hclient)

theorem InSync.step (hw : WellFormed s) (hc : s.Collecting (s.loop = .running))
    (hremote : s.conn.isClient = true → s.maxRemoteStreamId = 0) (h : s.loop = .running → s.InSync) {a : Action}
    (hcond : s.ReadsBlock a) : (s.step a).loop = .running → (s.step a).InSync := by
  have hs := step_cases s a
  revert hs
  generalize s.step a = s'
  intro hs hrunning
  cases hs with
  | @received _ _ _ s₁ _ hloop hh ha =>
    have h₁ := (h hloop).handledFrame hw hc hremote hloop hcond hh
    cases ha with
    | nothing => exact h₁ fun ⟨_, he, _⟩ => by cases he
    | @reset i code =>
      have hr : ¬ Fatal (.error (.streamError i code)) := by
        rintro ⟨_, he, hne⟩
        cases he
        exact hne _ _ rfl
      exact (h₁ hr).congr rfl rfl (receivedFrames_grows (.snoc id)) fun _ => rfl
    | goaway => cases hrunning
    | ended => cases hrunning
  | created =>
    have hnone : s.streams s.conn.nextStreamId = none := by
      have hown := hw.ownIds (i := s.conn.nextStreamId) rfl
      simpa using hown
    refine (h hrunning).congr rfl rfl (Grows.receivedFrames (.snoc trivial)) fun i => ?_
    exact fragmentsOf_withStream hnone rfl i
  | upgraded _ hnone =>
    refine (h hrunning).congr rfl rfl (Grows.receivedFrames (.snoc trivial)) fun i => ?_
    exact fragmentsOf_withStream hnone rfl i
  | closed hloop => exact (h (hloop hrunning)).congr rfl rfl rfl fun _ => rfl
  | @method a i m self ha hself =>
    have hundisturbed : Undisturbed ⟨s.conn, self⟩ (m.run ⟨s.conn, self⟩).2 := by
      rcases Stream.method_sends ha with hm | ⟨k, rfl⟩
      · exact (hm _ _ rfl).2.undisturbed
      · exact (Stream.resolveData_undisturbed _ trivial).2
    refine (h hrunning).congr ?_ rfl hundisturbed.log.receivedFrames fun j => ?_
    · exact Prod.ext hundisturbed.decoder hundisturbed.tree
    · by_cases hij : j = i
      · subst hij
        rw [fragmentsOf_some setStream_self, fragmentsOf_some hself]
        exact hundisturbed.frames
      · rw [fragmentsOf, setStream_of_ne hij]
        rfl
  | idle => exact h hrunning

end

/-- As long as every HEADERS frame finds its stream unfinished and has its pad
length read, the decoder of an open connection has decoded every complete header
block that was received, in order and once. -/
theorem decoder_in_sync (isClient : Bool) (params : Params) (actions : List Action)
    (h : Runs.Along step ReadsBlock (start isClient params) actions) :
    let s := (start isClient params).run actions
    s.loop = .running →
      (s.conn.hpackDecoder, s.conn.huffmanTree) = (wireBlocks s.conn.log).complete.foldl HpackDecoder.next
        (.new 4096, huffmanTree) := by
  intro s hloop
  have hstart : (start isClient params).InSync := by
    refine ⟨?_, rfl⟩
    have hwire : wireBlocks (start isClient params).conn.log = ⟨[], []⟩ := rfl
    have htable : Setting.headerTableSize.default = 4096 := rfl
    rw [hwire, WireBlocks.decoder]
    simp only [start, List.foldl_nil, htable]
  have hcollecting : (start isClient params).Collecting ((start isClient params).loop = .running) :=
    (Collecting.start isClient params).mono rfl rfl (Collecting.start isClient params).assembled fun _ =>
      .inl ⟨trivial, rfl⟩
  have hinvariant := Runs.invariant (I := fun s => WellFormed s ∧ s.Collecting (s.loop = .running) ∧
      (s.conn.isClient = true → s.maxRemoteStreamId = 0) ∧ (s.loop = .running → s.InSync))
    (fun s a hs hread => ⟨hs.1.step a, hs.2.1.step hs.1 a, step_remote hs.1 hs.2.2.1 a,
      InSync.step hs.1 hs.2.1 hs.2.2.1 hs.2.2.2 hread⟩)
    ⟨.start isClient params, hcollecting, fun _ => rfl, fun _ => hstart⟩ h
  exact (hinvariant.2.2.2 hloop).decoder

/-- A block of two frames whose first is padded and puts a field into the table. -/
theorem decoder_in_sync_two :
    let s := (start false (.new none .caseless)).run
      [.receive ⟨.headers, 0x8, 1, [1, 0x82, 0x84, 0x87, 0x40, 1, 97, 0]⟩ false,
      .receive ⟨.continuation, 0x4, 1, [1, 98]⟩ false]
    s.loop = .running →
      (s.conn.hpackDecoder, s.conn.huffmanTree) = (wireBlocks s.conn.log).complete.foldl HpackDecoder.next
        (.new 4096, huffmanTree) :=
  decoder_in_sync false (.new none .caseless) _ (by decide +kernel)

/-- A second header block on a stream that the peer has ended is answered with
RST_STREAM and not decoded. -/
theorem decoder_not_in_sync : ¬ ∀ isClient params actions,
    let s := (start isClient params).run actions
    s.loop = .running →
      s.conn.hpackDecoder.table = ((wireBlocks s.conn.log).complete.foldl HpackDecoder.next
        (.new 4096, huffmanTree)).1.table := by
  intro h
  have hsync := h false (.new none .caseless) [.receive (requestFrame 1 0x5) false,
    .receive ⟨.headers, 0x5, 1, [0x40, 1, 97, 1, 98]⟩ false] (by decide +kernel)
  have hentries := congrArg DynamicTable.entries hsync
  exact absurd hentries (by decide +kernel)

end System

end TornadoHttp2
