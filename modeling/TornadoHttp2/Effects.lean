import TornadoHttp2.Connection

/-! What the two halves of a stream leave alone. The receiving half touches no
window, no lock and nothing that is being sent; the sending half touches nothing
that is being received. Both only add to the log, and only events of their own
stream or of the connection. -/

namespace TornadoHttp2

/-- The stream that an event is about; `0` is the connection. -/
def Event.streamId : Event → Nat
  | received frame => frame.streamId
  | wrote frame => frame.streamId
  | opened streamId _ => streamId
  | startRequest streamId => streamId
  | called streamId _ => streamId
  | decoded _ => 0
  | credited window _ => window.getD 0
  | consumed window streamId _ _ => window.getD streamId
  | issued streamId _ => streamId
  | declared streamId _ => streamId
  | accepted streamId _ => streamId
  | callback streamId _ => streamId

/-- The log has grown by events that satisfy `p`. -/
def Grows (p : Event → Prop) (log log' : List Event) : Prop := ∃ es, log' = log ++ es ∧ ∀ e ∈ es, p e

namespace Grows

variable {p q : Event → Prop} {log log' log'' : List Event}

theorem refl : Grows p log log := ⟨[], by simp, by simp⟩

theorem trans (h : Grows p log log') (h' : Grows p log' log'') : Grows p log log'' := by
  obtain ⟨es, rfl, he⟩ := h
  obtain ⟨fs, rfl, hf⟩ := h'
  refine ⟨es ++ fs, List.append_assoc .., fun e hmem => ?_⟩
  exact (List.mem_append.mp hmem).elim (he e) (hf e)

theorem snoc {e : Event} (h : p e) : Grows p log (log ++ [e]) := ⟨[e], rfl, by simpa using h⟩

theorem mono (h : Grows p log log') (hpq : ∀ e, p e → q e) : Grows q log log' := by
  obtain ⟨es, hlog, he⟩ := h
  exact ⟨es, hlog, fun e hmem => hpq e (he e hmem)⟩

end Grows

/-- The attributes that the receiving half leaves alone. -/
def Stream.sending (s : Stream) :=
  (s.streamId, s.hasDelegate, s.writeLock, s.outgoingContentRemaining, s.window)

def Conn.sending (c : Conn) :=
  (c.isClient, c.params, c.settings, c.nextStreamId, c.hpackEncoder, c.window, c.closed)

/-- The attributes that the sending half leaves alone. -/
def Stream.receiving (s : Stream) :=
  (s.streamId, s.hasDelegate, s.finished, s.incomingContentRemaining, s.delegateStarted,
    s.headerFrames, s.phase, s.pendingCredits)

def Conn.receiving (c : Conn) :=
  (c.isClient, c.params, c.settings, c.nextStreamId, c.hpackDecoder, c.huffmanTree, c.closed)

namespace Event

/-- The events of stream 0. -/
def ofConn : Event → Prop
  | received _ => True
  | wrote frame => frame.type ≠ .headers ∧ frame.type ≠ .data
  | decoded _ => True
  | credited _ _ => True
  | _ => False

def ofReceiving (streamId : Nat) : Event → Prop
  | called i _ => i = streamId
  | decoded _ => True
  | wrote frame => frame.type = .windowUpdate ∧ frame.data.length = 4 ∧
      (frame.streamId = 0 ∨ frame.streamId = streamId)
  | _ => False

def ofSending (streamId : Nat) : Event → Prop
  | wrote frame => frame.streamId = streamId ∧
      (frame.type = .headers ∨ frame.type = .data ∨ frame = ⟨.rstStream, 0, streamId, [0, 0, 0, 0]⟩)
  | consumed window i _ _ => window.getD i = streamId
  | issued i _ => i = streamId
  | declared i _ => i = streamId
  | accepted i _ => i = streamId
  | callback i _ => i = streamId
  | _ => False

/-- The events that only the connection loop adds. -/
def ofLoop : Event → Prop
  | received _ => True
  | opened _ _ => True
  | startRequest _ => True
  | _ => False

/-- What a method of a stream may add to the log: events of its stream and of
stream 0. -/
def concerns (i : Nat) (e : Event) : Prop :=
  (e.streamId = 0 ∧ e.ofConn ∨ e.streamId = i) ∧ ¬ e.ofLoop

theorem ofReceiving.concerns {i : Nat} {e : Event} (h : e.ofReceiving i) : e.concerns i := by
  cases e with
  | called => exact ⟨.inr h, id⟩
  | decoded => exact ⟨.inl ⟨rfl, trivial⟩, id⟩
  | wrote frame =>
    rcases h with ⟨htype, -, hid | hid⟩
    · exact ⟨.inl ⟨hid, by simp [ofConn, htype]⟩, id⟩
    · exact ⟨.inr hid, id⟩
  | _ => exact h.elim

theorem ofSending.streamId {i : Nat} {e : Event} (h : e.ofSending i) : e.streamId = i := by
  cases e with
  | wrote frame => exact h.1
  | consumed | issued | declared | accepted | callback => exact h
  | _ => exact h.elim

theorem ofSending.concerns {i : Nat} {e : Event} (h : e.ofSending i) : e.concerns i := by
  refine ⟨.inr h.streamId, ?_⟩
  cases e with
  | wrote | consumed | issued | declared | accepted | callback => exact id
  | _ => exact h.elim

end Event

structure ReceivesOnly (streamId : Nat) (c c' : Ctx) : Prop where
  self : c'.self.sending = c.self.sending
  conn : c'.conn.sending = c.conn.sending
  log : Grows (·.ofReceiving streamId) c.conn.log c'.conn.log

structure SendsOnly (streamId : Nat) (c c' : Ctx) : Prop where
  self : c'.self.receiving = c.self.receiving
  conn : c'.conn.receiving = c.conn.receiving
  log : Grows (·.ofSending streamId) c.conn.log c'.conn.log

instance (i : Nat) : Std.Refl (ReceivesOnly i) := ⟨fun _ => ⟨rfl, rfl, .refl⟩⟩

instance (i : Nat) : IsTrans Ctx (ReceivesOnly i) :=
  ⟨fun _ _ _ h h' => ⟨h'.self.trans h.self, h'.conn.trans h.conn, h.log.trans h'.log⟩⟩

instance (i : Nat) : Std.Refl (SendsOnly i) := ⟨fun _ => ⟨rfl, rfl, .refl⟩⟩

instance (i : Nat) : IsTrans Ctx (SendsOnly i) :=
  ⟨fun _ _ _ h h' => ⟨h'.self.trans h.self, h'.conn.trans h.conn, h.log.trans h'.log⟩⟩

open Prog

/-- A program of the stream's receiving half. -/
abbrev Receives {α : Type} (streamId : Nat) (m : OnStream α) : Prop :=
  Keeps (fun c => c.self.streamId = streamId) (ReceivesOnly streamId) m

/-- A program of the stream's sending half. -/
abbrev Sends {α : Type} (streamId : Nat) (m : OnStream α) : Prop :=
  Keeps (fun c => c.self.streamId = streamId) (SendsOnly streamId) m

namespace Ctx

variable {i : Nat}

theorem emit_receives {e : Event} (h : e.ofReceiving i) : Receives i (emit e) :=
  fun _ hc => ⟨hc, rfl, rfl, .snoc h⟩

theorem emit_sends {e : Event} (h : e.ofSending i) : Sends i (emit e) :=
  fun _ hc => ⟨hc, rfl, rfl, .snoc h⟩

theorem writeFrame_wp {frame : Frame} {E : PyException → Ctx → Prop} {Q : Unit → Ctx → Prop} {c : Ctx} :
    wp (writeFrame frame) Q E c ↔
      if frame.data.length ≥ 2 ^ 31 ∨ frame.streamId ≥ 2 ^ 31 then E .structError c
      else if c.conn.closed = true then E .streamClosedError c
      else Q () { c with conn := { c.conn with log := c.conn.log ++ [.wrote frame] } } := by
  simp only [writeFrame, onConn, Conn.writeFrame, Conn.emit, wp_zoom, wp_bind, wp_check, wp_get,
    wp_modify]
  split <;> rename_i h
  · simp only [h, not_true, forall_const, false_imp_iff, and_true]
  · simp only [h, not_false_iff, forall_const, false_imp_iff, true_and]
    split <;> simp [*]

theorem writeFrame_keeps {R : Ctx → Ctx → Prop} [Std.Refl R] {frame : Frame}
    (h : ∀ c : Ctx, R c { c with conn := { c.conn with log := c.conn.log ++ [.wrote frame] } }) :
    Keeps (fun c : Ctx => c.self.streamId = i) R (writeFrame frame) := by
  rw [Keeps.iff_wp]
  intro c hc
  rw [writeFrame_wp]
  split
  · exact ⟨hc, refl c⟩
  · split
    · exact ⟨hc, refl c⟩
    · exact ⟨hc, h c⟩

theorem writeFrame_receives {frame : Frame} (h : (Event.wrote frame).ofReceiving i) :
    Receives i (writeFrame frame) := writeFrame_keeps fun _ => ⟨rfl, rfl, .snoc h⟩

theorem writeFrame_sends {frame : Frame} (h : (Event.wrote frame).ofSending i) :
    Sends i (writeFrame frame) := writeFrame_keeps fun _ => ⟨rfl, rfl, .snoc h⟩

theorem setSelf_receives {f : Stream → Stream} (h : ∀ s, (f s).sending = s.sending) :
    Receives i (setSelf f) := fun c hc =>
  ⟨(congrArg Prod.fst (h c.self)).trans hc, h c.self, rfl, .refl⟩

theorem setSelf_sends {f : Stream → Stream} (h : ∀ s, (f s).receiving = s.receiving) :
    Sends i (setSelf f) := fun c hc =>
  ⟨(congrArg Prod.fst (h c.self)).trans hc, h c.self, rfl, .refl⟩

end Ctx

end TornadoHttp2
