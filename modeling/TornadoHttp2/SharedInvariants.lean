import TornadoHttp2.Invariants

/-! Invariants that tie every stream to the connection: what one stream does to
the connection must leave the others' intact. Those about windows and write
locks alone are kept by all calls and frame handlers as soon as WINDOW_UPDATE
frames and `acquire` keep them. -/

namespace TornadoHttp2

open Prog

/-- A property `b` of the connection and a property `p` of a stream beside it
survive the changes `R` of the connection, among them all that the connection
loop does on its own. -/
structure Shared (b : Conn → Prop) (p : Conn → Stream → Prop) (R : Conn → Conn → Prop) : Prop where
  base {c c' : Conn} : R c c' → b c → b c'
  change {c c' : Conn} {self : Stream} : R c c' → p c self → p c' self
  quiet {c c' : Conn} : Quiet c c' → R c c'
  new {c : Conn} (i : Nat) (hasDelegate : Bool) (requestStartLine : Option (Option Bytes × Option Bytes)) :
    b c → p c { Stream.new c i hasDelegate with requestStartLine }

namespace System

structure Each (b : Conn → Prop) (p : Conn → Stream → Prop) (s : System) : Prop where
  conn : b s.conn
  stream {i : Nat} {self : Stream} : s.streams i = some self → p s.conn self

variable {b : Conn → Prop} {p : Conn → Stream → Prop} {R : Conn → Conn → Prop} {s s' : System}

theorem Each.change (hp : Shared b p R) (h : s.Each b p) (hstreams : s'.streams = s.streams) (hR : R s.conn s'.conn) :
    s'.Each b p := ⟨hp.base hR h.conn, fun hself => hp.change hR (h.stream (hstreams ▸ hself))⟩

theorem Each.setStream (hp : Shared b p R) (h : s.Each b p) {i : Nat} {c : Ctx} (hR : R s.conn c.conn)
    (hself : p c.conn c.self) : (s.setStream i c).Each b p := by
  refine ⟨hp.base hR h.conn, fun {j self} hj => ?_⟩
  by_cases hij : j = i
  · subst hij
    rw [setStream_self, Option.some.injEq] at hj
    exact hj ▸ hself
  · rw [setStream_of_ne hij] at hj
    exact hp.change hR (h.stream hj)

theorem Each.withStream (hp : Shared b p R) (h : s.Each b p) {self : Stream} (hself : p s.conn self) :
    (s.withStream self).Each b p := by
  have hR : R s.conn (s.withStream self).conn := hp.quiet .opened
  refine ⟨hp.base hR h.conn, fun {j other} hj => ?_⟩
  by_cases hid : j = self.streamId
  · subst hid
    rw [withStream_self, Option.some.injEq] at hj
    exact hj ▸ hp.change hR hself
  · rw [withStream_of_ne hid] at hj
    exact hp.change hR (h.stream hj)

theorem Each.handled (hp : Shared b p R) (h : s.Each b p) {frame : Frame} {later : Bool} {self : Stream}
    (hself : s.streams frame.streamId = some self)
    (hframe : ∀ c : Ctx, p c.conn c.self → p ((Stream.handleFrame frame later).run c).2.conn
      ((Stream.handleFrame frame later).run c).2.self ∧ R c.conn ((Stream.handleFrame frame later).run c).2.conn) :
    (s.handled frame later self).Each b p := by
  obtain ⟨hown, hR⟩ := hframe ⟨s.conn, self⟩ (h.stream hself)
  have hlast : { s with lastStream := some frame.streamId }.Each b p := ⟨h.conn, h.stream⟩
  exact hlast.setStream hp hR hown

/-- One step keeps the invariant if the handlers and methods that it calls do. -/
theorem Each.step (hp : Shared b p R) (h : s.Each b p) {a : Action}
    (hconn : ∀ frame c, R c ((Conn.handleFrame frame).run c).2)
    (hframe : ∀ frame later (c : Ctx), p c.conn c.self → p ((Stream.handleFrame frame later).run c).2.conn
      ((Stream.handleFrame frame later).run c).2.self ∧ R c.conn ((Stream.handleFrame frame later).run c).2.conn)
    (hmethod : ∀ i m self, a.method = some (i, m) → s.streams i = some self → p s.conn self →
      p (m.run ⟨s.conn, self⟩).2.conn (m.run ⟨s.conn, self⟩).2.self ∧ R s.conn (m.run ⟨s.conn, self⟩).2.conn) :
    (s.step a).Each b p := by
  have hs := step_cases s a
  revert hs
  generalize s.step a = s'
  intro hs
  cases hs with
  | @received frame later r s₁ _ hloop hh ha =>
    have answer (h₁ : s₁.Each b p) : s'.Each b p := by
      cases ha with
      | nothing => exact h₁
      | reset => exact h₁.change hp rfl (hp.quiet (.noise isNoise_rstStreamFrame))
      | goaway => exact h₁.change hp rfl (hp.quiet (.trans (.noise isNoise_goawayFrame) (.changed _ false)))
      | ended => exact h₁.change hp rfl (hp.quiet (.changed _ _))
    have hr : (s.logged (.received frame)).Each b p := h.change hp rfl (hp.quiet (.noise isNoise_received))
    cases hh with
    | oversized => exact answer h
    | interrupted => exact answer hr
    | passed _ _ hd =>
      cases hd with
      | conn => exact answer (hr.change hp rfl (hconn frame _))
      | stream _ hself => exact answer (hr.handled hp hself (hframe frame later))
      | accepted =>
        have hopen := hr.withStream hp (hp.new frame.streamId true none hr.conn)
        have hnew : ((s.logged (.received frame)).accepted frame).Each b p :=
          hopen.change hp rfl (hp.quiet (.noise isNoise_startRequest))
        exact answer (hnew.handled hp accepted_self (hframe frame later))
      | _ => exact answer hr
  | created =>
    have hnext : { s with conn := { s.conn with nextStreamId := s.conn.nextStreamId + 2 } }.Each b p :=
      h.change hp rfl (hp.quiet (.changed _ s.conn.closed))
    exact hnext.withStream hp (hp.new _ _ none hnext.conn)
  | upgraded => exact h.withStream hp (hp.new _ _ _ h.conn)
  | closed => exact h.change hp rfl (hp.quiet (.changed _ _))
  | @method _ i m self ha hself =>
    obtain ⟨hown, hR⟩ := hmethod i m self ha hself (h.stream hself)
    exact h.setStream hp hR hown
  | idle => exact h

end System

/-- What a WINDOW_UPDATE frame can do to a window. -/
inductive Window.Updated (w : Window) : Window → Prop
  | rejected : Updated w w
  | overflowed (amount : Nat) (hamount : amount ≤ maxWindowSize) (hover : maxWindowSize < w.size + amount) :
    Updated w { w with size := w.size + amount }
  | credited (amount : Nat) : Updated w { w with size := w.size + amount, notified := w.notified + 1 }

theorem Window.applyWindowUpdate_updated (frame : Frame) (w : Window) :
    w.Updated ((applyWindowUpdate frame).run w).2 := by
  refine wp_state.mp ?_
  rw [applyWindowUpdate]
  rcases unpackWord frame.data with _ | n
  · exact .rejected
  · have raises {w' : Window} {code : ErrorCode} {message : String} {Q : Unit → Window → Prop} (h : w.Updated w') :
        wp (raiseError code message) Q (fun _ => w.Updated) w' := by
      rw [raiseError, wp_bind, wp_get]
      cases w'.streamId <;> exact h
    have hamount : ((n &&& 0x7fffffff : Nat) : Int) ≤ maxWindowSize := Int.ofNat_le.mpr Nat.and_le_right
    simp only [wp_bind, wp_when]
    refine ⟨fun _ => raises .rejected, fun _ => ?_⟩
    simp only [adjust, wp_bind, wp_modify, wp_get, wp_when]
    exact ⟨fun hover => raises (.overflowed _ hamount hover), fun _ => .credited _⟩

/-- A property `B` of the connection's window, a property `P` of that, of a
stream's window and of its write lock, and the changes `Q` of the connection's
window that they survive. -/
structure Guards (B : Window → Prop) (P : Window → Window → WriteLock → Prop) (Q : Window → Window → Prop) :
    Prop where
  base {w w' : Window} : Q w w' → B w → B w'
  change {w w' own : Window} {lock : WriteLock} : Q w w' → P w own lock → P w' own lock
  new {w : Window} (i : Nat) (size : Int) : B w → P w (.new (some i) size) ⟨.free, []⟩
  update (frame : Frame) {w own : Window} {lock : WriteLock} :
    P w own lock → P w ((Window.applyWindowUpdate frame).run own).2 lock
  updateConn (frame : Frame) (w : Window) : Q w ((Window.applyWindowUpdate frame).run w).2
  acquire (job : Job) : Keeps (fun c : Ctx => P c.conn.window c.self.window c.self.writeLock)
    (fun c c' => Q c.conn.window c'.conn.window) (Stream.acquire job)

namespace Guards

open Ctx TornadoHttp2.Stream

/-- What a method of a stream keeps. -/
abbrev Kept {α : Type} (P : Window → Window → WriteLock → Prop) (Q : Window → Window → Prop) (m : OnStream α) : Prop :=
  Keeps (fun c : Ctx => P c.conn.window c.self.window c.self.writeLock)
    (fun c c' => Q c.conn.window c'.conn.window) m

variable {B : Window → Prop} {P : Window → Window → WriteLock → Prop} {Q : Window → Window → Prop} [Std.Refl Q]
  [IsTrans Window Q]

instance : Std.Refl fun c c' : Ctx => Q c.conn.window c'.conn.window := ⟨fun c => refl c.conn.window⟩

instance : IsTrans Ctx fun c c' => Q c.conn.window c'.conn.window := ⟨fun _ _ _ h h' => IsTrans.trans _ _ _ h h'⟩

omit [IsTrans Window Q] in
theorem setSelf_kept {f : Stream → Stream} (hf : ∀ s, ((f s).window, (f s).writeLock) = (s.window, s.writeLock)) :
    Kept P Q (setSelf f) := by
  intro c hc
  obtain ⟨hwindow, hlock⟩ := Prod.mk.inj (hf c.self)
  refine ⟨?_, refl c.conn.window⟩
  change P c.conn.window (f c.self).window (f c.self).writeLock
  rwa [hwindow, hlock]

omit [IsTrans Window Q] in
theorem onConn_kept {α : Type} {m : OnConn α} (hm : ∀ c, (m.run c).2.window = c.window) : Kept P Q (onConn m) := by
  intro c hc
  have hwindow : ((onConn m).run c).2.conn.window = c.conn.window := hm c.conn
  dsimp only
  rw [hwindow]
  exact ⟨hc, refl c.conn.window⟩

omit [IsTrans Window Q] in
theorem emit_kept {e : Event} : Kept P Q (emit e) := onConn_kept fun _ => rfl

omit [IsTrans Window Q] in
theorem writeFrame_kept {frame : Frame} : Kept P Q (writeFrame frame) := by
  refine onConn_kept fun c => ?_
  simp only [Conn.writeFrame, check, when]
  split
  · rfl
  · rw [run_pure_bind, run_get_bind]
    split <;> rfl

theorem decodeHeaders_kept {data : Bytes} : Kept P Q (decodeHeaders data) :=
  .bind emit_kept fun _ => .get_bind fun c _ => by
    rcases c.conn.hpackDecoder.decode c.conn.huffmanTree data with ⟨_ | _, _, _⟩
    · exact .bind (onConn_kept fun _ => rfl) fun _ => .raise _
    · exact .bind (onConn_kept fun _ => rfl) fun _ => .pure _

theorem callDelegate_kept {call : DelegateCall} : Kept P Q (callDelegate call) :=
  .get_bind fun _ _ => .bind .check fun _ => emit_kept

theorem sendWindowUpdate_kept {amount : Nat} : Kept P Q (sendWindowUpdate amount) :=
  .get_bind fun _ _ => .bind .check fun _ => .bind writeFrame_kept fun _ => writeFrame_kept

theorem resetOnError_kept {m : OnStream Unit} (hm : Kept P Q m) : Kept P Q (resetOnError m) :=
  .catching hm fun _ => .bind (.get_bind fun _ _ => writeFrame_kept) fun _ => .raise _

theorem declare_kept {length : Int} : Kept P Q (declare length) :=
  .get_bind fun _ _ => .bind (setSelf_kept fun _ => rfl) fun _ => emit_kept

theorem setOutgoingContent_kept {startLine : StartLine Bytes} {headers : HTTPHeaders Bytes} :
    Kept P Q (setOutgoingContent startLine headers) :=
  .bind KeepsSending.isBodiless fun _ => .ite (fun _ => declare_kept) fun _ =>
    .ite (fun _ => .bind (.ofExcept _) fun _ => declare_kept) fun _ => .pure _

theorem pseudoHeaderList_kept {startLine : StartLine Bytes} : Kept P Q (pseudoHeaderList startLine) :=
  .get_bind fun c _ => by
    rcases c.conn.isClient <;> rcases startLine with ⟨method, path⟩ | code
    · exact .raise _
    · exact .pure _
    · exact .bind (setSelf_kept fun _ => rfl) fun _ => .pure _
    · exact .bind (setSelf_kept fun _ => rfl) fun _ => .raise _

theorem countOutgoing_kept {chunk : Bytes} : Kept P Q (countOutgoing chunk) :=
  .get_bind fun c _ => match c.self.outgoingContentRemaining with
    | none => .pure _
    | some _ => .bind (setSelf_kept fun _ => rfl) fun _ => .check

omit [IsTrans Window Q] in
theorem runCallback_kept {callback : Option Nat} : Kept P Q (runCallback callback) :=
  .get_bind fun _ _ => match callback with
    | none => .pure _
    | some _ => emit_kept

theorem deliverData_kept {later : Bool} {data : Bytes} : Kept P Q (deliverData later data) :=
  .bind callDelegate_kept fun _ => .ite (fun _ => setSelf_kept fun _ => rfl) fun _ => sendWindowUpdate_kept

theorem resolveData_kept {i : Nat} : Kept P Q (resolveData i) :=
  .get_bind fun c _ => match c.self.pendingCredits[i]? with
    | none => .pure _
    | some _ => .bind (setSelf_kept fun _ => rfl) fun _ => sendWindowUpdate_kept

theorem keepsReceiving : KeepsReceiving (fun c : Ctx => P c.conn.window c.self.window c.self.writeLock)
    fun c c' => Q c.conn.window c'.conn.window where
  set f hf := setSelf_kept fun s => by
    have hsending : (f s).sending = s.sending := congrArg Prod.fst (hf s)
    rw [TornadoHttp2.Stream.sending, TornadoHttp2.Stream.sending, Prod.mk.injEq, Prod.mk.injEq, Prod.mk.injEq,
      Prod.mk.injEq] at hsending
    rw [hsending.2.2.1, hsending.2.2.2.2]
  frames _ := setSelf_kept fun _ => rfl
  decode _ := decodeHeaders_kept
  headers _ _ := callDelegate_kept
  finish := callDelegate_kept
  close := callDelegate_kept

section

variable (h : Guards B P Q)

include h

theorem write {chunk : Bytes} {callback : Option Nat} : Kept P Q (Stream.write chunk callback) :=
  resetOnError_kept (.get_bind fun _ _ => .bind (.when fun _ => countOutgoing_kept) fun _ =>
    .bind emit_kept fun _ => .ite (fun _ => runCallback_kept) fun _ => h.acquire _)

theorem finish : Kept P Q Stream.finish :=
  resetOnError_kept (.get_bind fun _ _ => .bind emit_kept fun _ => .bind .check fun _ => h.acquire _)

theorem writeHeaders {startLine : StartLine Bytes} {headers : HTTPHeaders Bytes}
    {chunk : Bytes} {callback : Option Nat} :
    Kept P Q (Stream.writeHeaders startLine headers chunk callback) :=
  resetOnError_kept (.get_bind fun _ _ => .bind emit_kept fun _ => .bind setOutgoingContent_kept fun _ =>
    .bind pseudoHeaderList_kept fun _ => .bind KeepsSending.regularHeaderList fun _ =>
      .bind (onConn_kept fun _ => rfl) fun _ => .bind writeFrame_kept fun _ => h.write)

theorem handleFrame {frame : Frame} {later : Bool} : Kept P Q (Stream.handleFrame frame later) := by
  have hupdate : Kept P Q (zoom (fun c : Ctx => c.self.window)
      (fun c window => { c with self := { c.self with window } }) (Window.applyWindowUpdate frame)) :=
    fun c hc => ⟨h.update frame hc, refl c.conn.window⟩
  exact keepsReceiving.handleFrame h.writeHeaders h.finish
    (fun _ => .get_bind fun _ _ => .bind hupdate fun _ => emit_kept)
    fun _ => handleDataFrame_keeps keepsReceiving.set (fun _ _ _ => deliverData_kept) callDelegate_kept

/-- Everything but the resumption of a coroutine. -/
theorem method {a : System.Action} {i : Nat} {m : OnStream Unit} (ha : a.method = some (i, m))
    (hresume : ∀ i flushed, a ≠ .resume i flushed) : Kept P Q m := by
  cases a with
  | receive | createStream | upgrade | goawayFlushed | disconnect => cases ha
  | writeHeaders => cases ha; exact h.writeHeaders
  | write => cases ha; exact h.write
  | finish => cases ha; exact h.finish
  | reset =>
    cases ha
    exact .get_bind fun _ _ => writeFrame_kept
  | resume i flushed => exact absurd rfl (hresume i flushed)
  | resolve => cases ha; exact resolveData_kept

omit [IsTrans Window Q] in
theorem shared : Shared (fun conn => B conn.window) (fun conn self => P conn.window self.window self.writeLock)
    fun c c' => Q c.window c'.window where
  base := h.base
  change := h.change
  quiet := by
    intro c c' hquiet
    obtain ⟨es, nextStreamId, closed, rfl, _⟩ := hquiet
    exact refl c.window
  new _ _ _ := h.new _ _

theorem connHandleFrame (frame : Frame) (c : Conn) : Q c.window ((Conn.handleFrame frame).run c).2.window := by
  have hupdate : Keeps (fun _ => True) (fun c c' : Conn => Q c.window c'.window)
      (zoom Conn.window (fun c window => { c with window }) (Window.applyWindowUpdate frame)) :=
    fun c _ => ⟨trivial, h.updateConn frame c.window⟩
  have hkeeps : Keeps (fun _ => True) (fun c c' : Conn => Q c.window c'.window) (Conn.handleFrame frame) :=
    Conn.handleFrame_keeps (fun c _ _ _ _ _ => ⟨trivial, refl c.window⟩) (fun c _ _ _ _ => ⟨trivial, refl c.window⟩)
      (fun c _ => ⟨trivial, refl c.window⟩) fun _ => .bind hupdate fun _ c _ => ⟨trivial, refl c.window⟩
  exact (hkeeps c trivial).2

/-- A step keeps the property of every stream if the resumed coroutine does. -/
theorem step {s : System} {a : System.Action}
    (hs : s.Each (fun conn => B conn.window) fun conn self => P conn.window self.window self.writeLock)
    (hresume : ∀ i flushed self, a = .resume i flushed → s.streams i = some self →
      P s.conn.window self.window self.writeLock →
        P ((resume flushed).run ⟨s.conn, self⟩).2.conn.window ((resume flushed).run ⟨s.conn, self⟩).2.self.window
            ((resume flushed).run ⟨s.conn, self⟩).2.self.writeLock ∧
          Q s.conn.window ((resume flushed).run ⟨s.conn, self⟩).2.conn.window) :
    (s.step a).Each (fun conn => B conn.window) fun conn self => P conn.window self.window self.writeLock := by
  refine hs.step h.shared h.connHandleFrame (fun _ _ c hc => h.handleFrame c hc) fun i m self ha hself hown => ?_
  by_cases ha' : ∃ i flushed, a = .resume i flushed
  · obtain ⟨i', flushed, rfl⟩ := ha'
    cases ha
    exact hresume i flushed self rfl hself hown
  · exact h.method ha (fun i flushed ha => ha' ⟨i, flushed, ha⟩) ⟨s.conn, self⟩ hown

end

end Guards

end TornadoHttp2
