import TornadoHttp2.EncoderBounds
import TornadoHttp2.ErrorMessages
import TornadoHttp2.Invariants

/-! The sizes of the frames that are written. All of them are small but for the
header blocks of `write_headers` and the pieces of `_write_chunk`, which nothing
splits to the peer's `MAX_FRAME_SIZE`. -/

namespace TornadoHttp2

open Prog Ctx

/-! What the writers of a stream hand to the connection. -/

/-- A frame has at most `n` bytes of payload. -/
def Event.fits (n : Nat) : Event → Prop
  | wrote frame => frame.data.length ≤ n
  | _ => True

structure Ctx.Fits (n : Nat) (c c' : Ctx) : Prop where
  settings : c'.conn.settings = c.conn.settings
  encoder : c.conn.hpackEncoder.Small → c'.conn.hpackEncoder.Small
  log : Grows (Event.fits n) c.conn.log c'.conn.log

namespace Ctx.Fits

variable {n : Nat} {c c' c'' : Ctx} {job : Job} {chunk : Bytes} {callback : Option Nat}

theorem refl : c.Fits n c := ⟨rfl, id, .refl⟩

theorem trans (h : c.Fits n c') (h' : c'.Fits n c'') : c.Fits n c'' :=
  ⟨h'.settings.trans h.settings, h'.encoder ∘ h.encoder, h.log.trans h'.log⟩

instance : Std.Refl (Ctx.Fits n) := ⟨fun _ => refl⟩

instance : IsTrans Ctx (Ctx.Fits n) := ⟨fun _ _ _ h h' => h.trans h'⟩

theorem logged {e : Event} (he : e.fits n) : c.Fits n (c.logged e) := ⟨rfl, id, .snoc he⟩

theorem calledBack : c.Fits n (c.calledBack callback) := by
  cases callback with
  | none => exact refl
  | some token => exact logged trivial

theorem resets (hn : 5 ≤ n) (h : Resets c c') : c.Fits n c' := by
  rcases h with rfl | rfl
  · exact refl
  · exact logged (by simp only [Event.fits, resetFrame, List.length_cons, List.length_nil]; omega)

/-- A slice writes what the window has granted. -/
theorem slice (hn : 5 ≤ n) (h : Slice c c') (hpiece : ∀ chunk callback amount,
    c.self.writeLock.owner = .writer (.chunk chunk callback) (.consume amount) → c.conn.closed = false →
      (chunk.take amount.toNat).length ≤ n) : c.Fits n c' := by
  cases h with
  | idle => exact refl
  | failed _ h =>
    have hlost : c.Fits n (c.withOwner .lost) := ⟨rfl, id, .refl⟩
    exact hlost.trans (resets hn h)
  | finished =>
    have hreleased : c.Fits n c.released := ⟨rfl, id, .refl⟩
    exact hreleased.trans calledBack
  | waits => exact ⟨rfl, id, .refl⟩
  | waitsParent => exact ⟨rfl, id, .refl⟩
  | takes => exact ⟨rfl, id, .snoc trivial⟩
  | debits => exact ⟨rfl, id, .snoc trivial⟩
  | writes howner hopen => exact ⟨rfl, id, .snoc (hpiece _ _ _ howner hopen)⟩
  | ends => exact ⟨rfl, id, .snoc (Nat.zero_le n)⟩
  | aborts _ h => exact (resets hn h).trans ⟨rfl, id, .refl⟩

theorem acquires (hn : 5 ≤ n) (h : Acquires c job c') : c.Fits n c' := by
  cases h with
  | granted hfree h =>
    have hlock : c.Fits n (c.withOwner (.writer job .lock)) := ⟨rfl, id, .refl⟩
    exact hlock.trans (slice hn h fun _ _ _ howner => nomatch howner)
  | queued => exact ⟨rfl, id, .refl⟩

theorem writes (hn : 5 ≤ n) (h : Writes c chunk callback c') : c.Fits n c' := by
  cases h with
  | rejected _ _ _ h =>
    have hcounted : c.Fits n (c.counted chunk) := ⟨rfl, id, .refl⟩
    exact hcounted.trans (resets hn h)
  | empty =>
    have haccepted : c.Fits n (c.logged (.accepted c.self.streamId [])) := logged trivial
    exact haccepted.trans calledBack
  | accepted _ _ h =>
    have hcounted : c.Fits n ((c.counted chunk).logged (.accepted c.self.streamId chunk)) :=
      ⟨rfl, id, .snoc trivial⟩
    exact hcounted.trans (acquires hn h)

theorem prepared (h : Prepared c c') : c.Fits n c' := by
  cases h with
  | undeclared _ _ h => exact ⟨rfl, fun hs => hs.encodes h, .refl⟩
  | declared _ _ _ h => exact ⟨rfl, fun hs => hs.encodes h, .snoc trivial⟩

theorem writesHeaders {startLine : StartLine Bytes} {headers : HTTPHeaders Bytes} (hn : 5 ≤ n)
    (h : WritesHeaders c startLine headers chunk callback c')
    (hblock : ∀ data, c.conn.closed = false →
      ((Stream.headerBlock startLine headers).run (c.issued .writeHeaders)).1 = .ok data →
        data.length ≤ n) : c.Fits n c' := by
  have hissued : c.Fits n (c.issued .writeHeaders) := logged trivial
  cases h with
  | failed h hreset => exact (hissued.trans (prepared h)).trans (resets hn hreset)
  | written h hreset =>
    cases h with
    | @mk data _ _ hrun h hopen hwrite =>
      have hheaders : (Event.wrote (c.headersFrame data)).fits n := hblock data hopen (congrArg Prod.fst hrun)
      have hprepared := hissued.trans (prepared h)
      exact ((hprepared.trans (logged hheaders)).trans (writes hn hwrite)).trans (resets hn hreset)

theorem finishes (hn : 5 ≤ n) (h : Finishes c c') : c.Fits n c' := by
  have hissued : c.Fits n (c.issued .finish) := logged trivial
  cases h with
  | short _ _ h => exact hissued.trans (resets hn h)
  | ends _ h => exact hissued.trans (acquires hn h)

end Ctx.Fits

namespace Stream

theorem headerBlock_status {c : Ctx} {data : Bytes} (henc : c.conn.hpackEncoder.Small)
    (h : ((headerBlock (.response 431) .empty).run c).1 = .ok data) : data.length ≤ 5 := by
  have hwp : wp (headerBlock (.response 431) .empty) (fun data _ => data.length ≤ 5) (fun _ _ => True) c := by
    rw [headerBlock, wp_bind]
    refine wp_mono setOutgoingContent_wp (fun _ c' h => ?_) fun _ _ _ => trivial
    have henc' : c'.conn.hpackEncoder.Small := by
      rcases h with rfl | ⟨length, rfl⟩ <;> exact henc
    have hlist : (HTTPHeaders.empty : HTTPHeaders Bytes).getAll = [] := rfl
    rw [hlist, wp_bind, pseudoHeaderList, wp_bind, wp_get]
    cases c'.conn.isClient with
    | true => exact trivial
    | false =>
      have hcode : toString (431 : Int) = "431" := by decide
      dsimp only
      rw [hcode, wp_pure, wp_bind, regularHeaderList, wp_bind, wp_get, wp_pure, regularHeaders, List.append_nil]
      rw [encodeHeaders, onConn, wp_zoom, wp_zoom]
      exact HpackEncoder.encode_status_wp henc'
  rw [wp, h] at hwp
  exact hwp

/-- The length of the header block that `write_headers` encodes. -/
def headerBlockLength (c : Ctx) (startLine : StartLine Bytes) (headers : HTTPHeaders Bytes) : Nat :=
  match ((headerBlock startLine headers).run (c.issued .writeHeaders)).1 with
  | .ok data => data.length
  | .error _ => 0

/-- The length of the piece that a suspended `_write_chunk` is about to write. -/
def pieceLength (s : Stream) : Nat :=
  match s.writeLock.owner with
  | .writer (.chunk chunk _) (.consume amount) => (chunk.take amount.toNat).length
  | _ => 0

section

variable {n i : Nat}

theorem writeHeaders_fits {c : Ctx} {startLine : StartLine Bytes} {headers : HTTPHeaders Bytes} {chunk : Bytes}
    {callback : Option Nat} (hn : 5 ≤ n)
    (h : c.conn.closed = false → headerBlockLength c startLine headers ≤ n) :
    c.Fits n ((writeHeaders startLine headers chunk callback).run c).2 := by
  refine Ctx.Fits.writesHeaders hn (wp_state.mp writeHeaders_wp) fun data hopen hblock => ?_
  simpa only [headerBlockLength, hblock] using h hopen

theorem resume_fits {c : Ctx} {flushed : Bool} (hn : 5 ≤ n)
    (h : c.conn.closed = false → c.self.pieceLength ≤ n) : c.Fits n ((resume flushed).run c).2 := by
  refine Ctx.Fits.slice hn (wp_state.mp (resume_wp (E := fun _ c' => Slice c c')))
    fun chunk callback amount howner hopen => ?_
  simpa only [pieceLength, howner] using h hopen

theorem receives_fits {c c' : Ctx} (hn : 5 ≤ n) (h : ReceivesOnly i c c') : c.Fits n c' where
  settings := congrArg (fun t => t.2.2.1) h.conn
  encoder := by
    have henc : c'.conn.hpackEncoder = c.conn.hpackEncoder := congrArg (fun t => t.2.2.2.2.1) h.conn
    rw [henc]
    exact id
  log := h.log.mono fun e he => by
    cases e with
    | wrote frame =>
      have hlength : frame.data.length = 4 := he.2.1
      change frame.data.length ≤ n
      omega
    | _ => trivial

theorem handleFrame_fits {frame : Frame} {later : Bool} (hn : 5 ≤ n) :
    Keeps (fun c : Ctx => c.self.streamId = i ∧ c.conn.hpackEncoder.Small) (Ctx.Fits n)
      (handleFrame frame later) := by
  have sends {m : OnStream Unit} (hid : Sends i m) (hfits : ∀ c : Ctx, c.conn.hpackEncoder.Small →
      c.Fits n (m.run c).2) : Keeps (fun c : Ctx => c.self.streamId = i ∧ c.conn.hpackEncoder.Small)
        (Ctx.Fits n) m :=
    fun c hc => ⟨⟨(hid c hc.1).1, (hfits c hc.2).encoder hc.2⟩, hfits c hc.2⟩
  refine handleFrame_keeps (fun _ hc => hc.1) (fun c c' hc h => ?_) (sends writeHeaders_sends ?_)
    (sends finish_sends ?_) fun _ => ?_
  · have hfits : c.Fits n c' := receives_fits hn h
    exact ⟨⟨h.acts.self.trans hc.1, hfits.encoder hc.2⟩, hfits⟩
  · intro c henc
    refine Ctx.Fits.writesHeaders hn (wp_state.mp writeHeaders_wp) fun data _ hblock => ?_
    exact (headerBlock_status (c := c.issued .writeHeaders) henc hblock).trans hn
  · exact fun c _ => Ctx.Fits.finishes hn (wp_state.mp finish_wp)
  · exact .get_bind fun _ _ => .bind (fun _ hc => ⟨hc, rfl, id, .refl⟩) fun _ =>
      fun _ hc => ⟨hc, rfl, id, .snoc trivial⟩

/-- The length of the payload that a call takes from its arguments: a header
block that `write_headers` encodes, or what `_write_chunk` cuts off its chunk. -/
def payloadLength (c : Ctx) : System.Action → Nat
  | .writeHeaders _ startLine headers _ _ => headerBlockLength c startLine headers
  | .resume _ _ => c.self.pieceLength
  | _ => 0

theorem method_fits {c : Ctx} {a : System.Action} {m : OnStream Unit} (ha : a.method = some (i, m)) (hn : 5 ≤ n)
    (h : c.conn.closed = false → payloadLength c a ≤ n) : c.Fits n (m.run c).2 := by
  cases a with
  | receive | createStream | upgrade | goawayFlushed | disconnect => cases ha
  | writeHeaders =>
    cases ha
    exact writeHeaders_fits hn h
  | write =>
    cases ha
    exact Ctx.Fits.writes hn (wp_state.mp write_wp)
  | finish =>
    cases ha
    exact Ctx.Fits.finishes hn (wp_state.mp finish_wp)
  | reset =>
    cases ha
    have hresets : Resets c (reset.run c).2 := wp_state.mp (reset_wp (fun _ => .inl rfl) (.inr rfl))
    exact Ctx.Fits.resets hn hresets
  | resume =>
    cases ha
    exact resume_fits hn h
  | resolve =>
    cases ha
    exact receives_fits hn (resolveData_receives c rfl).2

end

end Stream

/-! The frames of the connection. -/

structure Conn.Bounded (c : Conn) : Prop where
  min : 16384 ≤ c.setting .maxFrameSize
  max : c.setting .maxFrameSize ≤ maxMaxFrameSize
  encoder : c.hpackEncoder.Small

theorem Conn.Bounded.fits {n : Nat} {c c' : Ctx} (hb : c.conn.Bounded) (h : c.Fits n c') : c'.conn.Bounded where
  min := (Conn.setting_congr h.settings _).symm ▸ hb.min
  max := (Conn.setting_congr h.settings _).symm ▸ hb.max
  encoder := h.encoder hb.encoder

def Conn.Fits (n : Nat) (c c' : Conn) : Prop := Grows (Event.fits n) c.log c'.log

instance {n : Nat} : Std.Refl (Conn.Fits n) := ⟨fun _ => .refl⟩

instance {n : Nat} : IsTrans Conn (Conn.Fits n) := ⟨fun _ _ _ => .trans⟩

theorem refusedSetting_maxFrameSize {value : Nat} (h : Conn.refusedSetting Setting.maxFrameSize.code value = none) :
    16384 ≤ value ∧ value ≤ maxMaxFrameSize := by
  by_contra hbad
  have hout : value < Setting.maxFrameSize.default ∨ value > maxMaxFrameSize := by
    simp only [Setting.default]
    omega
  simp [Conn.refusedSetting, Setting.code, hout] at h

theorem Conn.handleFrame_bounded (frame : Frame) :
    Keeps Conn.Bounded (Conn.Fits 16384) (Conn.handleFrame frame) := by
  refine handleFrame_keeps (fun _ _ _ _ hlength hc => ⟨⟨hc.min, hc.max, hc.encoder⟩, .snoc (hlength.trans (by decide))⟩)
    (fun _ _ value hc hrefused => ⟨⟨?_, ?_, hc.encoder⟩, .refl⟩) (fun _ hc => ⟨⟨hc.min, hc.max, hc.encoder⟩, .refl⟩)
    fun _ => .bind (fun _ hc => ⟨⟨hc.min, hc.max, hc.encoder⟩, .refl⟩) fun _ =>
      fun _ hc => ⟨⟨hc.min, hc.max, hc.encoder⟩, .snoc trivial⟩
  · rw [setting_cons]
    split
    · rename_i hcode
      exact (refusedSetting_maxFrameSize (hcode ▸ hrefused)).1
    · exact hc.min
  · rw [setting_cons]
    split
    · rename_i hcode
      exact (refusedSetting_maxFrameSize (hcode ▸ hrefused)).2
    · exact hc.max

namespace System

/-- The length of the payload that a step takes from its arguments: a header
block that `write_headers` encodes, or what `_write_chunk` cuts off its chunk. -/
def payloadLength (s : System) : Action → Nat
  | .writeHeaders i startLine headers _ _ =>
    (s.streams i).elim 0 fun self => Stream.headerBlockLength ⟨s.conn, self⟩ startLine headers
  | .resume i _ => (s.streams i).elim 0 Stream.pieceLength
  | _ => 0

/-- On an open socket, the payload that comes from the application is at most
`MAX_FRAME_SIZE` long. -/
def FitsFrameSize (s : System) (a : Action) : Prop :=
  s.conn.closed = false → s.payloadLength a ≤ s.conn.setting .maxFrameSize

instance (s : System) (a : Action) : Decidable (s.FitsFrameSize a) :=
  inferInstanceAs (Decidable (_ → _))

variable {s s' : System} {frame : Frame} {later : Bool} {r : Except PyException Unit}

theorem Handled.fits (hb : s.conn.Bounded) (h : Handled s frame later r s') :
    s'.conn.Bounded ∧ Conn.Fits 16384 s.conn s'.conn ∧ ∀ e, r = .error e → e.isShort := by
  have raises {e : PyException} (he : e.isShort) : ∀ e', Except.error (α := Unit) e = .error e' → e'.isShort := by
    rintro _ ⟨⟩
    exact he
  have hreceived : Conn.Fits 16384 s.conn (s.logged (.received frame)).conn := .snoc trivial
  have hb' : (s.logged (.received frame)).conn.Bounded := ⟨hb.min, hb.max, hb.encoder⟩
  have stream {s₁ : System} {self : Stream} (hb₁ : s₁.conn.Bounded) (hs₁ : Conn.Fits 16384 s.conn s₁.conn) :
      (s₁.handled frame later self).conn.Bounded ∧
        Conn.Fits 16384 s.conn (s₁.handled frame later self).conn ∧
          ∀ e, (s₁.atStream frame later self).1 = .error e → e.isShort := by
    have hfits : Ctx.Fits 16384 ⟨s₁.conn, self⟩ (s₁.atStream frame later self).2 :=
      (Stream.handleFrame_fits (by decide) ⟨s₁.conn, self⟩ ⟨rfl, hb₁.encoder⟩).2
    exact ⟨hb₁.fits hfits, Grows.trans hs₁ hfits.log, fun _ he => Stream.handleFrame_terse.error he⟩
  cases h with
  | oversized => exact ⟨hb, .refl, raises trivial⟩
  | interrupted =>
    exact ⟨hb', hreceived, raises (by decide : "CONTINUATION frame required".length ≤ 64)⟩
  | passed _ _ hd =>
    cases hd with
    | conn =>
      have hconn := Conn.handleFrame_bounded frame _ hb'
      exact ⟨hconn.1, Grows.trans hreceived hconn.2, fun _ he => Conn.handleFrame_terse.error he⟩
    | stream => exact stream hb' hreceived
    | accepted =>
      have haccepted : Conn.Fits 16384 s.conn ((s.logged (.received frame)).accepted frame).conn :=
        (Grows.trans hreceived (.snoc (e := .opened frame.streamId _) trivial)).trans
          (.snoc (e := .startRequest frame.streamId) trivial)
      have hb₁ : ((s.logged (.received frame)).accepted frame).conn.Bounded := ⟨hb.min, hb.max, hb.encoder⟩
      exact stream hb₁ haccepted
    | invalid => exact ⟨hb', hreceived, raises (by decide : "invalid stream id".length ≤ 64)⟩
    | ignored => exact ⟨hb', hreceived, nofun⟩
    | past => exact ⟨hb', hreceived, raises trivial⟩
    | future => exact ⟨hb', hreceived, raises (by decide : "non-existent stream".length ≤ 64)⟩

theorem Stepped.fits {a : Action} (hb : s.conn.Bounded) (hfits : s.FitsFrameSize a) (h : Stepped s a s') :
    s'.conn.Bounded ∧ Conn.Fits (s.conn.setting .maxFrameSize) s.conn s'.conn := by
  have hn : 5 ≤ s.conn.setting .maxFrameSize := by
    have := hb.min
    omega
  have hsmall {c c' : Conn} (h : Conn.Fits 16384 c c') : Conn.Fits (s.conn.setting .maxFrameSize) c c' :=
    h.mono fun e he => by
      cases e with
      | wrote frame => exact Nat.le_trans he hb.min
      | _ => trivial
  have hopened {c : Conn} {e : Event} (he : e.fits (s.conn.setting .maxFrameSize)) :
      Conn.Fits (s.conn.setting .maxFrameSize) c { c with log := c.log ++ [e] } := .snoc he
  cases h with
  | received _ hh ha =>
    obtain ⟨hb₁, hs₁, hshort⟩ := hh.fits hb
    cases ha with
    | nothing => exact ⟨hb₁, hsmall hs₁⟩
    | reset =>
      have hlength : 4 ≤ s.conn.setting .maxFrameSize := by omega
      exact ⟨⟨hb₁.min, hb₁.max, hb₁.encoder⟩, Grows.trans (hsmall hs₁) (hopened hlength)⟩
    | @goaway code message =>
      have hlength : (goawayFrame code 0 message).data.length ≤ s.conn.setting .maxFrameSize := by
        have hmin := hb.min
        have hmessage := hshort _ rfl
        cases message with
        | none =>
          simp [goawayFrame, packBytes]
          omega
        | some text =>
          simp only [PyException.isShort] at hmessage
          simp [goawayFrame, packBytes, ascii, String.length_toList]
          omega
      exact ⟨⟨hb₁.min, hb₁.max, hb₁.encoder⟩, Grows.trans (hsmall hs₁) (hopened hlength)⟩
    | ended => exact ⟨⟨hb₁.min, hb₁.max, hb₁.encoder⟩, hsmall hs₁⟩
  | created => exact ⟨⟨hb.min, hb.max, hb.encoder⟩, hopened trivial⟩
  | upgraded => exact ⟨⟨hb.min, hb.max, hb.encoder⟩, hopened trivial⟩
  | closed => exact ⟨⟨hb.min, hb.max, hb.encoder⟩, .refl⟩
  | @method _ i m self ha hself =>
    have hpayload : s.payloadLength a = Stream.payloadLength ⟨s.conn, self⟩ a := by
      cases a <;> simp only [Action.method, reduceCtorEq, Option.some.injEq, Prod.mk.injEq] at ha <;>
        simp only [payloadLength, Stream.payloadLength, ha.1, hself, Option.elim_some]
    have hctx : Ctx.Fits (s.conn.setting .maxFrameSize) ⟨s.conn, self⟩ (m.run ⟨s.conn, self⟩).2 :=
      Stream.method_fits ha hn (hpayload ▸ hfits)
    exact ⟨hb.fits hctx, hctx.log⟩
  | idle => exact ⟨hb, .refl⟩

/-- Whatever the application sends, the settings and the encoder keep their bounds. -/
theorem bounded_step (hw : s.WellFormed) (h : s.conn.Bounded) (a : Action) : (s.step a).conn.Bounded := by
  have hall : s.All fun _ _ => True := fun _ _ _ => trivial
  have hstable : Stable (fun _ _ => True) Conn.Bounded := by
    refine ⟨?_, fun _ _ => trivial, fun _ _ _ => trivial⟩
    rintro _ _ ⟨es, nextStreamId, closed, rfl, -⟩ hb
    exact ⟨hb.min, hb.max, hb.encoder⟩
  refine (hall.step (a := a) hstable hw h (fun frame _ c _ _ _ _ hc => (Conn.handleFrame_bounded frame c hc).1)
    (fun frame later c _ _ _ _ _ hown => ⟨trivial, ?_⟩) fun i m self ha _ _ hown => ⟨trivial, ?_⟩).2
  · exact hown.2.fits (Stream.handleFrame_fits (le_refl 5) c ⟨rfl, hown.2.encoder⟩).2
  · exact hown.2.fits (Stream.method_fits ha (n := 5 + Stream.payloadLength ⟨s.conn, self⟩ a) (Nat.le_add_right _ _)
      fun _ => Nat.le_add_left _ _)

theorem bounded_start (isClient : Bool) (params : Params) : (start isClient params).conn.Bounded where
  min := le_refl 16384
  max := (by decide : 16384 ≤ maxMaxFrameSize)
  encoder := ⟨DynamicTable.new_sized _, le_refl 4096, rfl⟩

end System

/-- The three bytes of the length field hold the length. -/
theorem Frame.encoded_length {frame : Frame} (h : frame.data.length ≤ maxMaxFrameSize) :
    unpackBytes (frame.encoded.take 3) = frame.data.length := by
  have hlt : frame.data.length < 2 ^ 24 := Nat.lt_of_le_of_lt h (by decide)
  have hbytes : frame.encoded.take 3 = [UInt8.ofNat (frame.data.length >>> 16),
      UInt8.ofNat (frame.data.length >>> 8), UInt8.ofNat (frame.data.length >>> 0)] := rfl
  rw [hbytes]
  simp only [unpackBytes, List.foldl_cons, List.foldl_nil, UInt8.toNat_ofNat', Nat.shiftRight_eq_div_pow]
  omega

/-- A connection whose peer allows `conn`'s frame size reads a written frame. -/
def Event.isReadable (conn : Conn) : Event → Prop
  | wrote frame => frame.data.length ≤ conn.setting .maxFrameSize ∧
      unpackBytes (frame.encoded.take 3) = frame.data.length ∧
      ∀ peer : Conn, conn.setting .maxFrameSize ≤ peer.setting .maxFrameSize →
        ((Conn.readFrame frame).run peer).1 = .ok ()
  | _ => True

theorem Event.fits.isReadable {conn : Conn} {e : Event} (hb : conn.Bounded)
    (h : e.fits (conn.setting .maxFrameSize)) : e.isReadable conn := by
  cases e with
  | wrote frame =>
    refine ⟨h, Frame.encoded_length (Nat.le_trans h hb.max), fun peer hpeer => ?_⟩
    have hread : ¬ frame.data.length > peer.setting .maxFrameSize := not_lt.mpr (Nat.le_trans h hpeer)
    rw [Conn.readFrame, run_get_bind, check, when, if_neg hread]
    rfl
  | _ => trivial

/-- Every frame that the step writes can be read by the peer. -/
def System.FramesFit (s : System) (a : System.Action) : Prop :=
  Grows (Event.isReadable s.conn) s.conn.log (s.step a).conn.log

/-- A request and the headers of its response. -/
def System.answerActions : List System.Action :=
  [.receive (requestFrame 1 0x5) false, .writeHeaders 1 (.response 200) .empty [] none]

/-- As long as the application's header blocks and the pieces of its chunks fit
the peer's frame size, every frame does. -/
theorem frames_fit {isClient : Bool} {params : Params} {actions : List System.Action}
    (hfits : Runs.Along System.step System.FitsFrameSize (System.start isClient params) actions) :
    Runs.Along System.step System.FramesFit (System.start isClient params) actions := by
  refine Runs.Along.mono (I := fun s => s.conn.Bounded) (fun s a hb hs => ?_) (fun s a hb hs => ?_)
    (System.bounded_start isClient params) hfits
  · exact (System.Stepped.fits hb hs (System.step_cases s a)).1
  · obtain ⟨-, hlog⟩ := System.Stepped.fits hb hs (System.step_cases s a)
    exact hlog.mono fun _ he => he.isReadable hb

theorem frames_fit_answer : Runs.Along System.step System.FramesFit (System.start false (.new none .caseless))
    (System.answerActions ++ [.write 1 (List.replicate 20 0) none, .resume 1 true, .resume 1 true, .finish 1]) :=
  frames_fit (by decide +kernel)

/-- The state in which `_write_chunk` is about to write the whole of its chunk. -/
def Ctx.granted (c : Ctx) (chunk : Bytes) : Ctx :=
  (((((c.logged (.accepted c.self.streamId chunk)).parentDebited chunk.length).logged
    (.consumed none c.self.streamId chunk.length chunk.length)).debited chunk.length).logged
      (.consumed (some c.self.streamId) c.self.streamId chunk.length chunk.length)).withOwner
        (.writer (.chunk chunk none) (.consume chunk.length))

namespace Stream

/-- With both windows open, `_write_chunk` asks for its whole chunk and gets it. -/
theorem write_granted {c : Ctx} {chunk : Bytes} (hchunk : chunk ≠ []) (hfree : c.self.writeLock.owner = .free)
    (hcontent : c.self.outgoingContentRemaining = none)
    (hsize : (chunk.length : Int) ≤ c.self.window.size) (hparent : (chunk.length : Int) ≤ c.conn.window.size)
    (hopen : c.self.window.closed = false) (hopen' : c.conn.window.closed = false) :
    ((resume true).run ((write chunk none).run c).2).2 = c.granted chunk := by
  have hpos : 0 < (chunk.length : Int) := Int.natCast_pos.mpr (List.length_pos_iff.mpr hchunk)
  have hself : ¬ c.self.window.size < chunk.length ∧ ¬ c.self.window.size ≤ 0 := by omega
  have hconn : ¬ c.conn.window.size < chunk.length ∧ ¬ c.conn.window.size ≤ 0 := by omega
  simp [write, resetOnError, catching, run_bind, when, check, hchunk, countOutgoing, hcontent, emit, Ctx.onConn,
    Conn.emit, writeChunk, acquire, hfree, setOwner, setSelf, resume, resumeChunk, writeChunkLoop, consume,
    consumeParent, Window.blocked, hopen, hopen', hself, hconn, Ctx.granted, Ctx.logged, parentDebited, debited,
    withOwner, withLock]

theorem resume_granted {c : Ctx} {chunk : Bytes} (hlength : chunk.length < 2 ^ 31)
    (hid : c.self.streamId < 2 ^ 31) (hopen : c.conn.closed = false) :
    ((resume true).run (c.granted chunk)).2.conn.log =
      (c.granted chunk).conn.log ++ [.wrote (c.pieceFrame chunk)] := by
  have hpiece : chunk.take (chunk.length : Int).toNat = chunk := by simp
  have hwrite : (writeFrame ⟨.data, 0, c.self.streamId, chunk⟩).run (c.granted chunk) =
      (.ok (), (c.granted chunk).logged (.wrote (c.pieceFrame chunk))) := writeFrame_run hlength hid hopen
  have hchunk : (resumeChunk true chunk none (.consume chunk.length)).run (c.granted chunk) =
      (.ok (), ((c.granted chunk).logged (.wrote (c.pieceFrame chunk))).withOwner
        (.writer (.chunk (chunk.drop (chunk.length : Int).toNat) none) .flush)) := by
    rw [resumeChunk, run_get_bind, hpiece]
    exact bind_ok hwrite _
  have hresume : (resume true).run (c.granted chunk) =
      (catching (resumeChunk true chunk none (.consume chunk.length)) fun _ => do
        setOwner .lost
        catching reset fun _ => pure ()).run (c.granted chunk) := rfl
  rw [hresume]
  simp only [catching, hchunk]
  rfl

end Stream

/-- `_write_chunk` writes what the windows allow, whatever the peer's frame size. -/
theorem System.FramesFit.chunk {s : System} {self : Stream} {i : Nat} {chunk : Bytes}
    (hself : s.streams i = some self) (hfree : self.writeLock.owner = .free)
    (hcontent : self.outgoingContentRemaining = none) (hopen : s.conn.closed = false)
    (hwindow : self.window.closed = false) (hwindow' : s.conn.window.closed = false) (hchunk : chunk ≠ [])
    (hsize : (chunk.length : Int) ≤ self.window.size) (hsize' : (chunk.length : Int) ≤ s.conn.window.size)
    (hlength : chunk.length < 2 ^ 31) (hid : self.streamId < 2 ^ 31)
    (hfits : ((s.step (.write i chunk none)).step (.resume i true)).FramesFit (.resume i true)) :
    chunk.length ≤ s.conn.setting .maxFrameSize := by
  have hgranted : ((Stream.resume true).run ((Stream.write chunk none).run ⟨s.conn, self⟩).2).2 =
      Ctx.granted ⟨s.conn, self⟩ chunk :=
    Stream.write_granted hchunk hfree hcontent hsize hsize' hwindow hwindow'
  obtain ⟨s', hs'⟩ : ∃ s' : System, s' = (s.step (.write i chunk none)).step (.resume i true) := ⟨_, rfl⟩
  have hstep : s'.conn = (Ctx.granted ⟨s.conn, self⟩ chunk).conn ∧
      s'.streams i = some (Ctx.granted ⟨s.conn, self⟩ chunk).self := by
    rw [hs', step_stream (a := .write i chunk none) rfl hself,
      step_stream (a := .resume i true) rfl setStream_self, ← hgranted]
    exact ⟨rfl, setStream_self⟩
  have hlog : (s'.step (.resume i true)).conn.log =
      s'.conn.log ++ [.wrote (Ctx.pieceFrame ⟨s.conn, self⟩ chunk)] := by
    rw [step_stream (a := .resume i true) rfl hstep.2, hstep.1]
    exact Stream.resume_granted hlength hid hopen
  obtain ⟨es, hes, hreadable⟩ := hs' ▸ hfits
  rw [hlog, List.append_cancel_left_eq] at hes
  have hpiece := (hreadable (.wrote (Ctx.pieceFrame ⟨s.conn, self⟩ chunk)) (by simp [← hes])).1
  rwa [hstep.1] at hpiece

theorem frames_not_fit : ¬ ∀ isClient params actions,
    Runs.Along System.step System.FramesFit (System.start isClient params) actions := by
  intro h
  have hs : let s := (System.start false (.new none .caseless)).run System.answerActions
      ((s.streams 1).any fun self => self.streamId = 1 ∧ self.writeLock.owner = .free ∧
      self.outgoingContentRemaining = none ∧ self.window.size = 65535 ∧ self.window.closed = false) = true ∧
    s.conn.window.size = 65535 ∧ s.conn.window.closed = false ∧ s.conn.closed = false ∧
      s.conn.setting .maxFrameSize = 16384 := by
    decide +kernel
  obtain ⟨hstream, hparent, hwindow', hopen, hsetting⟩ := hs
  obtain ⟨self, hself, hstream⟩ := (Option.any_eq_true ..).mp hstream
  obtain ⟨hid, hfree, hcontent, hsize, hwindow⟩ := of_decide_eq_true hstream
  obtain ⟨chunk, hlength⟩ : ∃ chunk : Bytes, chunk.length = 16385 := ⟨_, List.length_replicate (a := 0)⟩
  have hfits := (Runs.along_append.mp (h false (.new none .caseless)
    (System.answerActions ++ [.write 1 chunk none, .resume 1 true, .resume 1 true]))).2.2.2.1
  have hle := System.FramesFit.chunk hself hfree hcontent hopen hwindow hwindow' (by rintro rfl; simp at hlength)
    (by omega) (by omega) (by omega) (by omega) hfits
  omega

end TornadoHttp2
