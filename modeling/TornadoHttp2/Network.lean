import TornadoHttp2.ControlReplies
import TornadoHttp2.Duplex
import TornadoHttp2.Settings

/-! A client and a server of this program at the two ends of one connection. What
an end does on its own, and when the next frame reaches it, is left open. -/

namespace TornadoHttp2

/-- What does not come from the other end. -/
def System.Action.isOwn : System.Action → Bool
  | .receive _ _ => false
  | _ => true

theorem System.Action.isOwn_iff {a : System.Action} : a.isOwn = true ↔ ∀ frame later, a ≠ .receive frame later := by
  cases a <;> simp [isOwn]

namespace System

variable {s : System} {frame : Frame}

/-- A frame that is not read ends the loop. -/
theorem arrival_cases (hw : s.WellFormed) (hloop : s.loop = .running) (frame : Frame) (later : Bool) :
    receivedFrames (s.step (.receive frame later)).conn.log = receivedFrames s.conn.log ++ [frame] ∨
      receivedFrames (s.step (.receive frame later)).conn.log = receivedFrames s.conn.log ∧
        (s.step (.receive frame later)).loop ≠ .running := by
  rw [step_received hw]
  by_cases hruns : (s.step (.receive frame later)).loop = .running
  · exact .inl (by rw [(Reads.of_running hruns).reads])
  · by_cases hsize : frame.data.length ≤ s.conn.setting .maxFrameSize
    · exact .inl (by rw [reads, if_pos ⟨hloop, hsize⟩])
    · exact .inr ⟨by rw [reads, if_neg fun h => hsize h.2, List.append_nil], hruns⟩

/-- A connection as a party, with the frames that it has written and read. -/
def party : Duplex.Party System Action Frame Bool where
  step := step
  isOwn := Action.isOwn
  arrival := .receive
  sent s := framesOf s.conn.log
  taken s := receivedFrames s.conn.log
  listens s := s.loop = .running
  Inv := WellFormed
  inv_step a hw := hw.step a
  sent_step a hw := by
    obtain ⟨es, hes⟩ := log_extends hw a
    rw [← hes, framesOf_append]
    exact List.prefix_append ..
  taken_own hw ha := by
    rw [step_received hw, reads_of_not_receive (Action.isOwn_iff.mp ha), List.append_nil]
  taken_arrival frame later hw hloop := by
    rw [decide_eq_false_iff_not]
    exact arrival_cases hw (of_decide_eq_true hloop) frame later
  listens_step a _ h := decide_eq_true (running_of_step (of_decide_eq_true h))

end System

/-- The client is the end `true`. -/
abbrev Network := Duplex.Net System Frame

namespace Network

abbrev Action := Duplex.Action System.Action Bool

def start (params : Bool → Params) : Network := Duplex.Net.start System.party fun b => System.start b (params b)

def step (n : Network) (a : Action) : Network := Duplex.Net.step System.party n a

def run (n : Network) (actions : List Action) : Network := Duplex.Net.run System.party n actions

section

variable (params : Bool → Params) (actions : List Action) (b : Bool)

theorem sound : Duplex.Sound System.party ((start params).run actions) :=
  Duplex.Sound.run (.start (fun b => System.WellFormed.start b (params b)) fun _ => rfl) actions

/-- Each end is a connection of its own. -/
theorem ends_run : ∃ steps, ((start params).run actions).ends b = (System.start b (params b)).run steps :=
  @Duplex.run_ends _ _ _ _ System.party (start params) actions b

theorem received_in_order : receivedFrames (((start params).run actions).ends b).conn.log <+:
    framesOf (((start params).run actions).ends !b).conn.log := ((sound params actions).carries b).in_order

/-- What an end keeps while it acts and while it reads what is on its way. -/
theorem run_invariant {Q : Bool → System → Prop} (hstart : ∀ b, Q b (System.start b (params b)))
    (hown : ∀ earlier b a, (∀ c, Q c (((start params).run earlier).ends c)) → System.Action.isOwn a = true →
      Q b ((((start params).run earlier).ends b).step a))
    (hdeliver : ∀ earlier b frame rest later, (∀ c, Q c (((start params).run earlier).ends c)) →
      ((start params).run earlier).wire b = frame :: rest → (((start params).run earlier).ends b).loop = .running →
        Q b ((((start params).run earlier).ends b).step (.receive frame later))) :
    Q b (((start params).run actions).ends b) :=
  @Duplex.run_invariant _ _ _ _ System.party Q (start params) hstart hown
    (fun earlier c frame rest later h hwire hl =>
      hdeliver earlier c frame rest later h hwire (of_decide_eq_true hl)) actions b

end

end Network

/-! The SETTINGS of the two ends. -/

/-- No reply asks for another one. -/
theorem Frame.replies_ack {frame f : Frame} (h : f ∈ frame.replies) : f.has .ack = true := by
  have hack (f : Frame) (hflags : f.flags = FrameFlag.ack.value) : f.has .ack = true := by
    rw [Frame.has, hflags]
    decide
  rw [Frame.replies] at h
  split at h
  · split at h
    · exact hack f (by rw [List.mem_singleton.mp h]; rfl)
    · exact hack f (by rw [List.mem_singleton.mp h])
    · cases h
  · cases h

theorem Frame.replies_of_ack {frame : Frame} (h : frame.has .ack = true) : frame.replies = [] :=
  if_neg fun hnot => Bool.false_ne_true (hnot.2.symm.trans h)

/-- Only SETTINGS and PING ask for a reply. -/
theorem flatMap_replies (frames : List Frame) :
    (frames.filter Frame.isControl).flatMap Frame.replies = frames.flatMap Frame.replies := by
  induction frames with
  | nil => rfl
  | cons frame frames ih =>
    by_cases hcontrol : frame.isControl = true
    · rw [List.filter_cons_of_pos hcontrol, List.flatMap_cons, List.flatMap_cons, ih]
    · have hnone : frame.replies = [] := by
        simp only [Frame.isControl, Bool.or_eq_true, decide_eq_true_eq, not_or] at hcontrol
        rw [Frame.replies]
        split
        · split
          · exact absurd ‹_› hcontrol.1
          · exact absurd ‹_› hcontrol.2
          · rfl
        · rfl
      rw [List.filter_cons_of_neg hcontrol, List.flatMap_cons, hnone, ih, List.nil_append]

theorem settingsFrame_replies (isClient : Bool) : (settingsFrame isClient).replies = [settingsAckFrame] := by
  cases isClient <;> rfl

theorem prefix_flatMap {α β : Type} {f : α → List β} {as bs : List α} (h : as <+: bs) :
    as.flatMap f <+: bs.flatMap f := by
  obtain ⟨rest, rfl⟩ := h
  rw [List.flatMap_append]
  exact List.prefix_append ..

/-- An entry about ENABLE_PUSH changes no other setting. -/
theorem announced_settingsFrame {setting : Setting} (h : setting ≠ .enablePush) (isClient : Bool) (current : Nat) :
    announced setting current (settingsFrame isClient).data = current := by
  cases isClient with
  | false => rfl
  | true =>
    have hcode : Setting.enablePush.code ≠ setting.code := by
      cases setting <;> first | exact absurd rfl h | decide
    exact if_neg hcode

namespace Network

variable (params : Bool → Params) (actions : List Action) (b : Bool)

theorem replies_in_order : (receivedFrames (((start params).run actions).ends b).conn.log).flatMap Frame.replies <+:
    [settingsAckFrame] := by
  obtain ⟨steps, hsteps⟩ := ends_run params actions !b
  have hwritten := (System.control_replies (!b) (params !b) steps).1
  rw [← hsteps] at hwritten
  have hread := ((received_in_order params actions b).filter Frame.isControl).trans hwritten
  rw [← flatMap_replies]
  refine (prefix_flatMap hread).trans ?_
  have hnone : ((receivedFrames (((start params).run actions).ends !b).conn.log).flatMap Frame.replies).flatMap
      Frame.replies = [] := by
    refine List.flatMap_eq_nil_iff.mpr fun f hf => ?_
    obtain ⟨frame, -, hreply⟩ := List.mem_flatMap.mp hf
    exact Frame.replies_of_ack (Frame.replies_ack hreply)
  rw [List.flatMap_cons, hnone, settingsFrame_replies]
  exact List.prefix_refl _

/-- An end writes its SETTINGS and acknowledges those of the other. -/
theorem control_written : controlFrames (((start params).run actions).ends b).conn.log <+:
    [settingsFrame b, settingsAckFrame] := by
  obtain ⟨steps, hsteps⟩ := ends_run params actions b
  have hwritten := (System.control_replies b (params b) steps).1
  rw [← hsteps] at hwritten
  exact hwritten.trans ((List.prefix_cons_inj _).mpr (replies_in_order params actions b))

theorem control_received : (receivedFrames (((start params).run actions).ends b).conn.log).filter Frame.isControl <+:
    [settingsFrame !b, settingsAckFrame] :=
  ((received_in_order params actions b).filter _).trans (control_written params actions !b)

/-- The SETTINGS frame on its way to an end. -/
theorem settings_on_wire {frame : Frame} (hmem : frame ∈ ((start params).run actions).wire b)
    (htype : frame.type = .settings) :
    frame = settingsFrame (!b) ∨ frame = settingsAckFrame := by
  obtain ⟨refused, hsent, -⟩ := ((sound params actions).carries b).history
  refine List.mem_pair.mp ((control_written params actions !b).subset
    (List.mem_filter.mpr ⟨?_, by simp [Frame.isControl, htype]⟩))
  change frame ∈ System.party.sent _
  rw [← hsent]
  exact List.mem_append_right _ hmem

/-- The settings that the other end announces are the defaults. -/
theorem setting_eq {setting : Setting} (h : setting ≠ .enablePush) :
    (((start params).run actions).ends b).conn.setting setting = setting.default := by
  refine run_invariant params actions b (Q := fun _ s => s.conn.setting setting = setting.default) (fun _ => rfl)
    (fun earlier c a ih ha => ?_) fun earlier c frame rest later ih hwire _ => ?_
  · rw [System.step_setting ((sound params earlier).inv c),
      System.settingAfter_of_not_receive (System.Action.isOwn_iff.mp ha)]
    exact ih c
  · rw [System.step_setting ((sound params earlier).inv c), System.settingAfter]
    split
    · rename_i happlies
      rcases settings_on_wire params earlier c (hwire ▸ List.mem_cons_self) happlies.2.2.1 with rfl | rfl
      · rw [announced_settingsFrame h]
        exact ih c
      · exact absurd happlies.2.2.2 (by decide)
    · exact ih c

/-- Between two ends of this program, each announces its SETTINGS once and
acknowledges those of the other once, whatever else they do. Neither PINGs, and
what one goes by are the defaults of all settings but ENABLE_PUSH. -/
theorem settings_exchanged (params : Bool → Params) (actions : List Action) (b : Bool) :
    let s := ((start params).run actions).ends b
    controlFrames s.conn.log <+: [settingsFrame b, settingsAckFrame] ∧
      (receivedFrames s.conn.log).filter Frame.isControl <+: [settingsFrame !b, settingsAckFrame] ∧
      ∀ setting, setting ≠ .enablePush → s.conn.setting setting = setting.default :=
  ⟨control_written params actions b, control_received params actions b, fun _ => setting_eq params actions b⟩

end Network

end TornadoHttp2
