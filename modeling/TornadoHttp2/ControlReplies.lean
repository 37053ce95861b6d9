import TornadoHttp2.BlockWriting
import TornadoHttp2.Histories
import Mathlib.Data.List.Induction

/-! The SETTINGS and PING frames that a connection writes: its own SETTINGS, and
after that one reply for each frame that asks for it, in the order of arrival. -/

namespace TornadoHttp2

open Prog Ctx

def Frame.isControl (frame : Frame) : Bool := frame.type = .settings || frame.type = .ping

/-- The replies that a frame asks for. -/
def Frame.replies (frame : Frame) : List Frame :=
  if frame.streamId = 0 ∧ frame.has .ack = false then
    match frame.type with
    | .settings => [settingsAckFrame]
    | .ping => [⟨.ping, FrameFlag.ack.value, 0, frame.data⟩]
    | _ => []
  else []

/-- The SETTINGS and PING frames that were written. -/
def controlFrames (log : List Event) : List Frame := (framesOf log).filter Frame.isControl

/-- An event that writes neither. -/
def Event.isUncontrolled (e : Event) : Prop := ∀ f, e = .wrote f → f.isControl = false

section

variable {log log' : List Event} {frame : Frame}

@[simp] theorem controlFrames_append : controlFrames (log ++ log') = controlFrames log ++ controlFrames log' := by
  rw [controlFrames, framesOf_append, List.filter_append]
  rfl

@[simp] theorem controlFrames_received : controlFrames [.received frame] = [] := rfl

theorem controlFrames_wrote (h : frame.isControl = true) : controlFrames [.wrote frame] = [frame] := by
  simp [controlFrames, framesOf, Event.frame, h]

theorem controlFrames_grows (h : Grows Event.isUncontrolled log log') : controlFrames log' = controlFrames log := by
  obtain ⟨es, rfl, hes⟩ := h
  have hnone : controlFrames es = [] := by
    rw [controlFrames, List.filter_eq_nil_iff]
    intro f hf
    obtain ⟨e, he, hframe⟩ := List.mem_filterMap.mp hf
    cases e with
    | wrote f' =>
      cases hframe
      simp [hes _ he f rfl]
    | _ => cases hframe
  rw [controlFrames_append, hnone, List.append_nil]

theorem Frame.replies_of_ne (hid : frame.streamId ≠ 0) : frame.replies = [] := if_neg fun h => hid h.1

theorem Event.isUncontrolled_of_type {frame : Frame} (hsettings : frame.type ≠ .settings) (hping : frame.type ≠ .ping) :
    (Event.wrote frame).isUncontrolled := by
  rintro f ⟨⟩
  simp [Frame.isControl, hsettings, hping]

theorem Event.ofSending.isUncontrolled {i : Nat} {e : Event} (h : e.ofSending i) : e.isUncontrolled := by
  cases e with
  | wrote f =>
    refine isUncontrolled_of_type ?_ ?_ <;> rcases h.2 with htype | htype | hframe <;> simp [*]
  | _ => exact fun _ h => by cases h

theorem Event.ofReceiving.isUncontrolled {i : Nat} {e : Event} (h : e.ofReceiving i) : e.isUncontrolled := by
  cases e with
  | wrote f => exact isUncontrolled_of_type (by simp [h.1]) (by simp [h.1])
  | _ => exact fun _ h => by cases h

end

/-- Neither SETTINGS nor PING is written. -/
structure Uncontrolled (c c' : Ctx) : Prop where
  log : Grows Event.isUncontrolled c.conn.log c'.conn.log

instance : Std.Refl Uncontrolled := ⟨fun _ => ⟨.refl⟩⟩

instance : IsTrans Ctx Uncontrolled := ⟨fun _ _ _ h h' => ⟨h.log.trans h'.log⟩⟩

theorem SendsOnly.uncontrolled {i : Nat} {c c' : Ctx} (h : SendsOnly i c c') : Uncontrolled c c' :=
  ⟨h.log.mono fun _ he => he.isUncontrolled⟩

theorem ReceivesOnly.uncontrolled {i : Nat} {c c' : Ctx} (h : ReceivesOnly i c c') : Uncontrolled c c' :=
  ⟨h.log.mono fun _ he => he.isUncontrolled⟩

namespace Stream

variable {i : Nat} {frame : Frame} {later : Bool}

theorem handleFrame_uncontrolled : Keeps (fun c : Ctx => c.self.streamId = i)
    Uncontrolled (handleFrame frame later) := by
  refine handleFrame_keeps (fun _ h => h) (fun c c' hc h => ⟨h.acts.self.trans hc, h.uncontrolled⟩)
    (writeHeaders_sends.mono fun _ _ => SendsOnly.uncontrolled) (finish_sends.mono fun _ _ => SendsOnly.uncontrolled)
    fun _ => ?_
  exact .get_bind fun _ _ => .bind (fun _ hc => ⟨hc, ⟨.refl⟩⟩) fun _ => fun _ hc => ⟨hc, ⟨.snoc fun _ h => by cases h⟩⟩

theorem method_uncontrolled {a : System.Action} {m : OnStream Unit} (ha : a.method = some (i, m)) :
    Keeps (fun c : Ctx => c.self.streamId = i) Uncontrolled m := by
  rcases method_sends ha with h | ⟨k, rfl⟩
  · exact (h i).mono fun _ _ => SendsOnly.uncontrolled
  · exact resolveData_receives.mono fun _ _ => ReceivesOnly.uncontrolled

end Stream

/-- What ends `_conn_loop`: it goes on after StreamError alone. -/
def PyException.isFatal : PyException → Prop
  | .streamError _ _ => False
  | _ => True

theorem PyException.isFatal_iff {e : PyException} : e.isFatal ↔ ∀ i code, e ≠ .streamError i code := by
  cases e <;> simp [isFatal]

namespace Conn

variable {frame : Frame} {c : Conn}

/-- The entries of a SETTINGS frame change nothing but the settings. -/
theorem applySettings_outcome : ∀ (data : Bytes) (c : Conn),
    ∃ settings, (applySettings data).run c = (.ok (), { c with settings }) ∨
    ∃ e : PyException, e.isFatal ∧ (applySettings data).run c = (.error e, { c with settings })
  | [], c => ⟨c.settings, .inl rfl⟩
  | b₀ :: b₁ :: b₂ :: b₃ :: b₄ :: b₅ :: data, c => by
    rw [applySettings]
    cases hrefused : refusedSetting (unpackBytes [b₀, b₁]) (unpackBytes [b₂, b₃, b₄, b₅]) with
    | some e =>
      refine ⟨c.settings, .inr ⟨e, PyException.isFatal_iff.mpr ?_, rfl⟩⟩
      rw [refusedSetting] at hrefused
      split_ifs at hrefused <;> cases hrefused <;> simp
    | none => exact applySettings_outcome data { c with settings := _ :: c.settings }
  | [_], c | [_, _], c | [_, _, _], c | [_, _, _, _], c | [_, _, _, _, _], c =>
    ⟨c.settings, .inr ⟨.connectionError _ _, trivial, rfl⟩⟩

theorem reply_run {f : Frame} (hlength : f.data.length < 2 ^ 31) (hid : f.streamId = 0) (c : Conn) :
    (writeFrame f).run c = (.ok (), { c with log := c.log ++ [.wrote f] }) ∨
    (writeFrame f).run c = (.error .streamClosedError, c) := by
  rw [writeFrame, run_check_of_neg (by rw [hid]; omega), run_get_bind]
  by_cases hclosed : c.closed = true
  · exact .inr (run_check_of_pos hclosed _ _)
  · exact .inl (run_check_of_neg hclosed _ _)

/-- A frame of stream 0 gets its replies, or ends the connection without them. -/
def Replied (frame : Frame) (c : Conn) (r : Except PyException Unit) (c' : Conn) : Prop :=
  controlFrames c'.log = controlFrames c.log ++ frame.replies ∨
    controlFrames c'.log = controlFrames c.log ∧ ∃ e : PyException, e.isFatal ∧ r = .error e

theorem Replied.of_run {m : OnConn Unit} {r : Except PyException Unit × Conn} (hrun : m.run c = r)
    (h : Replied frame c r.1 r.2) : Replied frame c (m.run c).1 (m.run c).2 := hrun ▸ h

theorem handleSettingsFrame_replied (hid : frame.streamId = 0) (htype : frame.type = .settings) :
    Replied frame c ((handleSettingsFrame frame).run c).1 ((handleSettingsFrame frame).run c).2 := by
  rw [handleSettingsFrame]
  by_cases hack : frame.has .ack = true
  · rw [if_pos hack]
    have hnone : frame.replies = [] := if_neg fun h => Bool.false_ne_true (h.2.symm.trans hack)
    refine .inl ?_
    rw [hnone, List.append_nil, check, when]
    split <;> rfl
  · rw [if_neg hack]
    have hreplies : frame.replies = [settingsAckFrame] := by simp [Frame.replies, hid, hack, htype]
    obtain ⟨settings, happly | ⟨e, he, happly⟩⟩ := applySettings_outcome frame.data c
    · rcases @reply_run settingsAckFrame (by decide) rfl { c with settings } with hwrite | hwrite
      · refine .of_run ((bind_ok happly _).trans hwrite) (.inl ?_)
        rw [hreplies]
        exact controlFrames_append.trans (congrArg _ (controlFrames_wrote rfl))
      · exact .of_run ((bind_ok happly _).trans hwrite) (.inr ⟨rfl, .streamClosedError, trivial, rfl⟩)
    · exact .of_run (bind_error happly _) (.inr ⟨rfl, e, he, rfl⟩)

theorem handlePingFrame_replied (hid : frame.streamId = 0) (htype : frame.type = .ping) :
    Replied frame c ((handlePingFrame frame).run c).1 ((handlePingFrame frame).run c).2 := by
  rw [handlePingFrame]
  by_cases hack : frame.has .ack = true
  · rw [if_pos hack]
    have hnone : frame.replies = [] := if_neg fun h => Bool.false_ne_true (h.2.symm.trans hack)
    exact .inl (by rw [hnone, List.append_nil]; rfl)
  · rw [if_neg hack]
    have hreplies : frame.replies = [⟨.ping, FrameFlag.ack.value, 0, frame.data⟩] := by
      simp [Frame.replies, hid, hack, htype]
    by_cases hlength : frame.data.length = 8
    · have hcheck := run_check_of_neg (e := PyException.connectionError .frameSizeError none) (not_not.mpr hlength)
        (fun _ => writeFrame ⟨.ping, FrameFlag.ack.value, 0, frame.data⟩) c
      rcases @reply_run ⟨.ping, FrameFlag.ack.value, 0, frame.data⟩ (by simp [hlength]) rfl c with hwrite | hwrite
      · refine .of_run (hcheck.trans hwrite) (.inl ?_)
        rw [hreplies]
        exact controlFrames_append.trans (congrArg _ (controlFrames_wrote rfl))
      · exact .of_run (hcheck.trans hwrite) (.inr ⟨rfl, .streamClosedError, trivial, rfl⟩)
    · exact .of_run (run_check_of_pos hlength _ _) (.inr ⟨rfl, .connectionError .frameSizeError none, trivial, rfl⟩)

theorem handleFrame_replied (hid : frame.streamId = 0) :
    Replied frame c ((handleFrame frame).run c).1 ((handleFrame frame).run c).2 := by
  rw [handleFrame]
  cases htype : frame.type with
  | settings => exact handleSettingsFrame_replied hid htype
  | ping => exact handlePingFrame_replied hid htype
  | windowUpdate =>
    have hnone : frame.replies = [] := by simp [Frame.replies, htype]
    refine .inl ?_
    dsimp only
    rw [hnone, List.append_nil, handleWindowUpdateFrame, run_bind, run_zoom]
    rcases (Window.applyWindowUpdate frame).run c.window with ⟨e | amount, window⟩
    · rfl
    · exact controlFrames_append.trans (List.append_nil _)
  | _ => exact .inl (by simp [Frame.replies, htype, handleGoawayFrame])

end Conn

namespace System

variable {s s' : System} {frame : Frame} {later : Bool} {r : Except PyException Unit}

theorem handled_control {self : Stream} (hid : self.streamId = frame.streamId) :
    controlFrames (s.handled frame later self).conn.log = controlFrames s.conn.log :=
  controlFrames_grows (Stream.handleFrame_uncontrolled ⟨s.conn, self⟩ hid).2.log

theorem Answered.control (h : Answered s r s') : controlFrames s'.conn.log = controlFrames s.conn.log := by
  cases h with
  | nothing => rfl
  | reset => exact controlFrames_append.trans (List.append_nil _)
  | goaway => exact controlFrames_append.trans (List.append_nil _)
  | ended => rfl

/-- A frame gets its replies, or the loop ends without them. -/
theorem Dispatched.control (hw : s.WellFormed) (h : Dispatched s frame later r s') :
    controlFrames s'.conn.log = controlFrames s.conn.log ++ frame.replies ∨
      controlFrames s'.conn.log = controlFrames s.conn.log ∧ ∃ e : PyException, e.isFatal ∧ r = .error e := by
  cases h with
  | conn hid => exact Conn.handleFrame_replied hid
  | stream hid hself =>
    rw [Frame.replies_of_ne hid, List.append_nil]
    exact .inl (handled_control (hw.streamId hself))
  | accepted hid =>
    have hopened : controlFrames (s.accepted frame).conn.log = controlFrames s.conn.log := by
      refine controlFrames_grows (Grows.trans (.snoc ?_) (.snoc ?_)) <;> exact fun _ h => by cases h
    rw [Frame.replies_of_ne hid, List.append_nil]
    exact .inl ((handled_control rfl).trans hopened)
  | invalid hid | ignored hid | past hid | future hid =>
    rw [Frame.replies_of_ne hid, List.append_nil]
    exact .inl rfl

theorem step_control (hw : s.WellFormed) (a : Action) :
    controlFrames (s.step a).conn.log = controlFrames s.conn.log ++ (s.reads a).flatMap Frame.replies ∨
      controlFrames (s.step a).conn.log = controlFrames s.conn.log ∧ (s.step a).loop ≠ .running := by
  have hs := step_cases s a
  revert hs
  generalize s.step a = s'
  intro hs
  have same (h : ∀ frame later, a ≠ .receive frame later)
    (hlog : controlFrames s'.conn.log = controlFrames s.conn.log) :
      controlFrames s'.conn.log = controlFrames s.conn.log ++ (s.reads a).flatMap Frame.replies := by
    rw [hlog, reads_of_not_receive h, List.flatMap_nil, List.append_nil]
  cases hs with
  | @received frame later r s₁ _ hloop hh ha =>
    rw [ha.control]
    cases hh with
    | oversized => exact .inr ⟨rfl, ha.not_running fun _ _ h => by cases h⟩
    | interrupted => exact .inr ⟨controlFrames_append.trans (List.append_nil _), ha.not_running fun _ _ h => by cases h⟩
    | passed hsize hblock hd =>
      have hlogged : controlFrames (s.logged (.received frame)).conn.log = controlFrames s.conn.log :=
        controlFrames_append.trans (List.append_nil _)
      have hreads : s.reads (.receive frame later) = [frame] := if_pos ⟨hloop, hsize⟩
      rw [hreads, List.flatMap_singleton, ← hlogged]
      rcases hd.control (hw.logged (e := .received frame) (.inr (.inl trivial))) with hreplied | ⟨hsame, e, he, rfl⟩
      · exact .inl hreplied
      · exact .inr ⟨hsame, ha.not_running (PyException.isFatal_iff.mp he)⟩
  | created => exact .inl (same (by simp) (controlFrames_append.trans (List.append_nil _)))
  | upgraded => exact .inl (same (by simp) (controlFrames_append.trans (List.append_nil _)))
  | closed _ ha => exact .inl (same (by rcases ha with rfl | rfl <;> simp) rfl)
  | @method _ i m self ha hself =>
    refine .inl (same (fun frame later h => by simp [h, Action.method] at ha) ?_)
    exact controlFrames_grows (Stream.method_uncontrolled ha ⟨s.conn, self⟩ (hw.streamId hself)).2.log
  | idle hidle =>
    cases a with
    | receive frame later =>
      rw [reads, if_neg fun h => hidle frame later rfl h.1, List.flatMap_nil, List.append_nil]
      exact .inl rfl
    | _ => exact .inl (same (by simp) rfl)

/-- A connection writes its SETTINGS, and after it one ACK for each SETTINGS frame
and each PING that it reads, in that order; while it reads frames none is missing. -/
theorem control_replies (isClient : Bool) (params : Params) (actions : List Action) :
    let s := (start isClient params).run actions
    let due := settingsFrame isClient :: (receivedFrames s.conn.log).flatMap Frame.replies
    controlFrames s.conn.log <+: due ∧ (s.loop = .running → controlFrames s.conn.log = due) := by
  induction actions using List.reverseRecOn with
  | nil =>
    have hstart : controlFrames (start isClient params).conn.log = [settingsFrame isClient] := by
      cases isClient <;> rfl
    exact ⟨hstart ▸ List.prefix_refl _, fun _ => hstart⟩
  | append_singleton actions a ih =>
    have hrun : (start isClient params).run (actions ++ [a]) = ((start isClient params).run actions).step a :=
      List.foldl_concat ..
    have hw : ((start isClient params).run actions).WellFormed := .run (.start isClient params) actions
    rw [hrun]
    generalize (start isClient params).run actions = s at ih hw
    obtain ⟨hdue, hall⟩ := ih
    have hreceived := step_received hw a
    dsimp only
    rw [hreceived, List.flatMap_append, ← List.cons_append]
    rcases step_control hw a with hreplied | ⟨hsame, hends⟩
    · by_cases hloop : s.loop = .running
      · rw [hreplied, hall hloop]
        exact ⟨List.prefix_refl _, fun _ => rfl⟩
      · have hnone : s.reads a = [] := by
          cases a with
          | receive frame later => exact if_neg fun h => hloop h.1
          | _ => rfl
        rw [hreplied, hnone, List.flatMap_nil, List.append_nil, List.append_nil]
        exact ⟨hdue, fun h => absurd (running_of_step h) hloop⟩
    · rw [hsame]
      exact ⟨hdue.trans (List.prefix_append ..), fun h => absurd h hends⟩

end System

end TornadoHttp2
