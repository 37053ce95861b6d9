import TornadoHttp2.Invariants

/-! The settings of the peer, entry by entry. Nothing but a SETTINGS frame of
stream 0 changes them. The same table says how long a frame this endpoint reads,
so the peer moves that limit along with its own. -/

namespace TornadoHttp2

open Prog

/-- The value of a setting once the entries of a SETTINGS payload have been gone
through; a refused entry ends the frame. -/
def announced (setting : Setting) (current : Nat) : Bytes → Nat
  | b₀ :: b₁ :: b₂ :: b₃ :: b₄ :: b₅ :: data =>
    let code := unpackBytes [b₀, b₁]
    let value := unpackBytes [b₂, b₃, b₄, b₅]
    if (Conn.refusedSetting code value).isSome then current
    else announced setting (if code = setting.code then value else current) data
  | _ => current

namespace Conn

variable {c : Conn} {setting : Setting}

theorem applySettings_announced : ∀ (data : Bytes) (c : Conn),
    ((applySettings data).run c).2.setting setting = announced setting (c.setting setting) data
  | [], _ => rfl
  | b₀ :: b₁ :: b₂ :: b₃ :: b₄ :: b₅ :: data, c => by
    rw [applySettings, announced]
    cases hrefused : refusedSetting (unpackBytes [b₀, b₁]) (unpackBytes [b₂, b₃, b₄, b₅]) with
    | some e => simp
    | none => simp [applySettings_announced data, setting_cons]
  | [_], _ | [_, _], _ | [_, _, _], _ | [_, _, _, _], _ | [_, _, _, _, _], _ => rfl

theorem handleFrame_announced (frame : Frame) (c : Conn) :
    ((handleFrame frame).run c).2.setting setting =
      if frame.type = .settings ∧ frame.has .ack = false then announced setting (c.setting setting) frame.data
      else c.setting setting := by
  let R (c c' : Conn) : Prop := c'.setting setting = c.setting setting
  have : Std.Refl R := ⟨fun _ => rfl⟩
  have : IsTrans Conn R := ⟨fun _ _ _ h h' => h'.trans h⟩
  have write (f : Frame) : Keeps (fun _ => True) R (writeFrame f) := writeFrame_keeps fun _ _ => ⟨trivial, rfl⟩
  rw [handleFrame]
  cases htype : frame.type with
  | settings =>
    dsimp only
    rw [handleSettingsFrame]
    split
    · rename_i hack
      rw [if_neg (by simp [hack])]
      have hcheck : Keeps (fun _ => True) R (check (frame.data ≠ [])
          (PyException.connectionError .frameSizeError (some "SETTINGS ACK must be empty"))) := .check
      exact (hcheck c trivial).2
    · rename_i hack
      rw [if_pos ⟨rfl, by simpa using hack⟩, ← applySettings_announced]
      rcases hrun : (applySettings frame.data).run c with ⟨e | a, c₁⟩
      · rw [bind_error hrun]
      · rw [bind_ok hrun]
        exact (write _ c₁ trivial).2
  | ping =>
    have ping : Keeps (fun _ => True) R (handlePingFrame frame) :=
      .ite (fun _ => .pure _) fun _ => .bind .check fun _ => write _
    exact (ping c trivial).2
  | windowUpdate =>
    have update : Keeps (fun _ => True) R (handleWindowUpdateFrame frame) :=
      .bind (fun _ _ => ⟨trivial, rfl⟩) fun _ _ _ => ⟨trivial, rfl⟩
    exact (update c trivial).2
  | _ => rfl

end Conn

namespace System

variable {s s' : System} {setting : Setting}

/-- The loop goes through the entries of the frame. -/
def Applies (s : System) (frame : Frame) : Prop :=
  s.Reads frame ∧ frame.streamId = 0 ∧ frame.type = .settings ∧ frame.has .ack = false

instance (s : System) (frame : Frame) : Decidable (s.Applies frame) :=
  inferInstanceAs (Decidable (_ ∧ _))

theorem Answered.setting_eq {r : Except PyException Unit} (h : Answered s r s') :
    s'.conn.setting setting = s.conn.setting setting := by
  cases h <;> rfl

theorem handled_setting {frame : Frame} {later : Bool} {self : Stream} (hid : self.streamId = frame.streamId) :
    (s.handled frame later self).conn.setting setting = s.conn.setting setting := by
  have hacts := (Stream.handleFrame_acts frame later ⟨s.conn, self⟩ hid).2
  exact Conn.setting_congr (congrArg (fun t => t.2.2.1) hacts.conn) setting

theorem Dispatched.setting_eq {frame : Frame} {later : Bool} {r : Except PyException Unit} (hw : WellFormed s)
    (h : Dispatched s frame later r s') : s'.conn.setting setting =
      if frame.streamId = 0 ∧ frame.type = .settings ∧ frame.has .ack = false then
        announced setting (s.conn.setting setting) frame.data
      else s.conn.setting setting := by
  cases h with
  | conn hid =>
    simp only [hid, true_and]
    exact Conn.handleFrame_announced frame s.conn
  | stream hid hself =>
    rw [if_neg fun h => hid h.1]
    exact handled_setting (hw.streamId hself)
  | accepted hid =>
    rw [if_neg fun h => hid h.1]
    exact handled_setting rfl
  | invalid hid | ignored hid | past hid | future hid => rw [if_neg fun h => hid h.1]

/-- The value of a setting once an action is over. -/
def settingAfter (s : System) (setting : Setting) : Action → Nat
  | .receive frame _ =>
    if s.Applies frame then announced setting (s.conn.setting setting) frame.data
    else s.conn.setting setting
  | _ => s.conn.setting setting

theorem settingAfter_of_not_receive {a : Action} (h : ∀ frame later, a ≠ .receive frame later) :
    s.settingAfter setting a = s.conn.setting setting := by
  cases a with
  | receive frame later => exact absurd rfl (h frame later)
  | _ => rfl

theorem step_setting (hw : WellFormed s) (a : Action) :
    (s.step a).conn.setting setting = s.settingAfter setting a := by
  have hs := step_cases s a
  revert hs
  generalize s.step a = s'
  intro hs
  cases hs with
  | @received frame later r s₁ _ hloop hh ha =>
    have hwr : WellFormed (s.logged (.received frame)) := hw.logged (.inr (.inl trivial))
    rw [ha.setting_eq, settingAfter]
    cases hh with
    | oversized hsize => rw [if_neg fun h => absurd h.1.2.1 (by omega)]
    | interrupted _ hblock =>
      rw [if_neg fun h => by simp [h.1.2.2] at hblock]
      rfl
    | passed hsize hblock hd =>
      rw [hd.setting_eq hwr]
      exact if_congr ⟨fun h => ⟨⟨hloop, hsize, hblock⟩, h⟩, fun h => h.2⟩ rfl rfl
  | created => rfl
  | upgraded => rfl
  | closed _ ha =>
    rw [settingAfter_of_not_receive]
    · rfl
    · rcases ha with rfl | rfl <;> exact nofun
  | @method _ i m self ha hself =>
    have hacts := (Stream.method_acts ha ⟨s.conn, self⟩ (hw.streamId hself)).2
    have hkept : (s.setStream i (m.run ⟨s.conn, self⟩).2).conn.setting setting = s.conn.setting setting :=
      Conn.setting_congr (congrArg (fun t => t.2.2.1) hacts.conn) setting
    rw [hkept, settingAfter_of_not_receive]
    rintro frame later rfl
    simp [Action.method] at ha
  | idle hidle =>
    cases a with
    | receive frame later =>
      rw [settingAfter, if_neg fun h => hidle frame later rfl h.1.1]
    | _ => rfl

/-- The MAX_FRAME_SIZE that an endpoint itself advertises, in its first frame. -/
def advertisedFrameSize (isClient : Bool) : Nat :=
  announced .maxFrameSize Setting.maxFrameSize.default (settingsFrame isClient).data

/-- `_read_frame` goes by that size, and refuses a longer frame before its payload. -/
def LimitsFrames (s : System) : Prop := ∀ frame : Frame, (Conn.readFrame frame).run s.conn =
  if frame.data.length ≤ advertisedFrameSize s.conn.isClient then
    (.ok (), { s.conn with log := s.conn.log ++ [.received frame] })
  else (.error (.connectionError .frameSizeError none), s.conn)

/-- A SETTINGS frame does not change MAX_FRAME_SIZE. -/
def KeepsFrameSize (s : System) : Action → Prop
  | .receive frame _ => s.Applies frame →
      announced .maxFrameSize Setting.maxFrameSize.default frame.data = Setting.maxFrameSize.default
  | _ => True

theorem advertisedFrameSize_eq (isClient : Bool) : advertisedFrameSize isClient = Setting.maxFrameSize.default := by
  cases isClient <;> rfl

theorem limitsFrames_iff : s.LimitsFrames ↔ s.conn.setting .maxFrameSize = Setting.maxFrameSize.default := by
  have hread (frame : Frame) : (Conn.readFrame frame).run s.conn =
      if frame.data.length ≤ s.conn.setting .maxFrameSize then
        (.ok (), { s.conn with log := s.conn.log ++ [.received frame] })
      else (.error (.connectionError .frameSizeError none), s.conn) := by
    rw [Conn.readFrame, run_get_bind, check, when]
    split
    · rw [if_neg (by omega)]
      rfl
    · rw [if_pos (by omega)]
      rfl
  simp only [LimitsFrames, hread, advertisedFrameSize_eq]
  refine ⟨fun h => ?_, fun h => by simp [h]⟩
  -- A frame as long as the larger of the two limits tells them apart.
  have hfits (n : Nat) : n ≤ s.conn.setting .maxFrameSize ↔ n ≤ Setting.maxFrameSize.default := by
    have hn := h ⟨.data, 0, 0, List.replicate n 0⟩
    rw [List.length_replicate] at hn
    by_cases hleft : n ≤ s.conn.setting .maxFrameSize <;>
      by_cases hright : n ≤ Setting.maxFrameSize.default <;> simp [hleft, hright] at hn ⊢
  exact le_antisymm ((hfits _).mp le_rfl) ((hfits _).mpr le_rfl)

theorem keepsFrameSize_iff {a : Action} (hsize : s.conn.setting .maxFrameSize = Setting.maxFrameSize.default) :
    s.KeepsFrameSize a ↔ s.settingAfter .maxFrameSize a = Setting.maxFrameSize.default := by
  cases a with
  | receive frame later =>
    rw [KeepsFrameSize, settingAfter, hsize]
    by_cases happly : s.Applies frame <;> simp [happly]
  | _ => simp [KeepsFrameSize, settingAfter, hsize]

/-- The limit stays this endpoint's own in every state of exactly the runs in which
no SETTINGS frame changes it. -/
theorem limits_frames {isClient : Bool} {params : Params} {actions : List Action} :
    Runs.Along step (fun s a => (s.step a).LimitsFrames) (System.start isClient params) actions ↔
      Runs.Along step KeepsFrameSize (System.start isClient params) actions := by
  refine Runs.along_congr (I := fun s => WellFormed s ∧
    s.conn.setting .maxFrameSize = Setting.maxFrameSize.default) ?_ ?_ ⟨.start isClient params, rfl⟩
  · rintro s a ⟨hw, hsize⟩ ha
    exact ⟨hw.step a, (step_setting hw a).trans ((keepsFrameSize_iff hsize).mp ha)⟩
  · rintro s a ⟨hw, hsize⟩
    rw [limitsFrames_iff, step_setting hw, keepsFrameSize_iff hsize]

/-- The peer announces that it reads frames of 32768 bytes. -/
theorem not_limits_frames : ¬ ((System.start false (.new none .caseless)).step
    (.receive ⟨.settings, 0, 0, [0, 5, 0, 0, 0x80, 0]⟩ false)).LimitsFrames := by
  rw [limitsFrames_iff]
  decide +kernel

end System

end TornadoHttp2
