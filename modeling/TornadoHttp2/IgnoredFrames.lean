import TornadoHttp2.WellFormed

/-! Frames that ask for nothing: those of a type outside the enumeration, and
PRIORITY. A stream tests whether it is finished before it discards the first
kind, and a frame of a stream that there is not is an error of either kind. -/

namespace TornadoHttp2

open Prog

/-- A frame of an unknown type, or a well-formed PRIORITY frame. -/
def Frame.Ignorable (frame : Frame) : Prop :=
  (∃ value, frame.type = .unknown value) ∨
    frame.type = .priority ∧ frame.data.length = 5 ∧ frame.streamId ≠ 0

theorem Stream.handleFrame_ignorable {frame : Frame} {later : Bool} {c : Ctx} (h : frame.Ignorable) :
    (handleFrame frame later).run c =
      (if frame.type ≠ .priority ∧ c.self.finished = true then .error (.streamError c.self.streamId .streamClosed)
        else .ok (), c) := by
  rw [handleFrame, run_get_bind]
  rcases h with ⟨value, htype⟩ | ⟨htype, hlength, -⟩
  · rw [htype]
    cases hfinished : c.self.finished with
    | false => rfl
    | true => rfl
  · rw [htype, if_neg (by simp)]
    have hkept : ¬ frame.data.length ≠ 5 := not_not.mpr hlength
    rw [handlePriorityFrame, run_get_bind, check, when, if_neg hkept]
    rfl

namespace System

def NoBlockPending (s : System) : Prop := ∀ i self, s.streams i = some self → self.headerFrames = []

/-- The frame is read, and nothing else happens. -/
structure Ignores (s : System) (frame : Frame) (later : Bool) : Prop where
  completes : s.outcome frame later = .ok ()
  conn : (s.step (.receive frame later)).conn = { s.conn with log := s.conn.log ++ [.received frame] }
  streams : (s.step (.receive frame later)).streams = s.streams
  maxRemoteStreamId : (s.step (.receive frame later)).maxRemoteStreamId = s.maxRemoteStreamId
  loop : (s.step (.receive frame later)).loop = s.loop

/-- The frame is not too long, and it is one of stream 0, or of a stream that
there is and that still takes frames of its type. -/
def TakesIgnorable (s : System) (frame : Frame) : Prop :=
  frame.data.length ≤ s.conn.setting .maxFrameSize ∧
    (frame.streamId = 0 ∨ ∃ self, s.streams frame.streamId = some self ∧
      (frame.type = .priority ∨ self.finished = false))

variable {s s' : System} {frame : Frame} {later : Bool} {self : Stream}

theorem NoBlockPending.breaks (h : s.NoBlockPending) : s.breaksHeaderBlock frame = false := by
  rw [breaksHeaderBlock]
  cases hlast : s.lastStream.bind s.streams with
  | none => rfl
  | some last =>
    obtain ⟨i, -, hself⟩ := Option.bind_eq_some_iff.mp hlast
    simp [Stream.needsContinuation, h i last hself]

/-- What becomes of the frame in each way through the dispatch. -/
theorem Handled.ignorable {r : Except PyException Unit} (hframe : frame.Ignorable)
    (hblock : s.breaksHeaderBlock frame = false) (hh : Handled s frame later r s') :
    r = .ok () ∧ s.TakesIgnorable frame ∧ s'.conn = (s.logged (.received frame)).conn ∧ s'.streams = s.streams ∧
        s'.maxRemoteStreamId = s.maxRemoteStreamId ∧ s'.loop = s.loop ∨
      r ≠ .ok () ∧ ¬ s.TakesIgnorable frame := by
  have absent (hid : frame.streamId ≠ 0) (hself : s.streams frame.streamId = none) : ¬ s.TakesIgnorable frame := by
    rintro ⟨-, hzero | ⟨self, hsome, -⟩⟩
    · exact hid hzero
    · exact absurd (hself.symm.trans hsome) nofun
  cases hh with
  | oversized hsize => exact .inr ⟨nofun, fun h => absurd h.1 (not_le.mpr hsize)⟩
  | interrupted _ hbreaks => exact absurd (hbreaks.symm.trans hblock) nofun
  | passed hsize _ hd =>
    cases hd with
    | conn hid =>
      obtain ⟨value, htype⟩ : ∃ value, frame.type = .unknown value :=
        hframe.resolve_right fun h => h.2.2 hid
      have hrun : (Conn.handleFrame frame).run (s.logged (.received frame)).conn =
          (.ok (), (s.logged (.received frame)).conn) := by
        rw [Conn.handleFrame, htype]
        rfl
      rw [hrun]
      exact .inl ⟨rfl, ⟨hsize, .inl hid⟩, rfl, rfl, rfl, rfl⟩
    | @stream self hid hself =>
      have hrun : (s.logged (.received frame)).atStream frame later self = _ := Stream.handleFrame_ignorable hframe
      rw [handled, hrun]
      by_cases hrefused : frame.type ≠ .priority ∧ self.finished = true
      · rw [if_pos hrefused]
        refine .inr ⟨nofun, ?_⟩
        rintro ⟨-, hzero | ⟨other, hother, htakes⟩⟩
        · exact hid hzero
        · obtain rfl : self = other := Option.some.inj (hself.symm.trans hother)
          rcases htakes with hpriority | hopen
          · exact hrefused.1 hpriority
          · exact absurd (hopen.symm.trans hrefused.2) nofun
      · rw [if_neg hrefused]
        refine .inl ⟨rfl, ⟨hsize, .inr ⟨self, hself, ?_⟩⟩, ?_⟩
        · by_cases hpriority : frame.type = .priority
          · exact .inl hpriority
          · exact .inr (by simpa [hpriority] using hrefused)
        · exact ⟨rfl, @setStream_streams
            { s.logged (.received frame) with lastStream := some frame.streamId } _ _ hself,
            rfl, rfl⟩
    | invalid hid hself => exact .inr ⟨nofun, absent hid hself⟩
    | accepted _ _ _ htype =>
      rcases hframe with ⟨_, hunknown⟩ | ⟨hpriority, -⟩
      · exact absurd (htype.symm.trans hunknown) nofun
      · exact absurd (htype.symm.trans hpriority) nofun
    | ignored _ _ htype =>
      rcases hframe with ⟨_, hunknown⟩ | ⟨hpriority, -⟩
      · rcases htype with htype | htype <;> exact absurd (htype.symm.trans hunknown) nofun
      · rcases htype with htype | htype <;> exact absurd (htype.symm.trans hpriority) nofun
    | past hid hself => exact .inr ⟨nofun, absent hid hself⟩
    | future hid hself => exact .inr ⟨nofun, absent hid hself⟩

/-- A frame that asks for nothing is ignored exactly if stream 0, or a stream
that there is and that takes it, gets it. -/
theorem ignorable_ignored (isClient : Bool) (params : Params) (actions : List Action) (frame : Frame) (later : Bool) :
    let s := (start isClient params).run actions
    s.loop = .running → s.NoBlockPending → frame.Ignorable → (s.Ignores frame later ↔ s.TakesIgnorable frame) := by
  intro s hloop hpending hframe
  obtain ⟨s₁, hh, ha⟩ := step_outcome hloop frame later
  rcases hh.ignorable hframe hpending.breaks with ⟨hok, htakes, hconn, hstreams, hmax, hrunning⟩ | ⟨hfails, htakes⟩
  · refine iff_of_true ⟨hok, ?_, ?_, ?_, ?_⟩ htakes
    all_goals
      rw [hok] at ha
      generalize s.step (.receive frame later) = s' at ha
      cases ha
      assumption
  · exact iff_of_false (fun h => hfails h.completes) htakes

theorem noBlockPending_request {flags : UInt8}
    (hframes : (((start false (.new none .caseless)).run [.receive (requestFrame 1 flags) false]).streams 1).map
      Stream.headerFrames = some []) :
    ((start false (.new none .caseless)).run [.receive (requestFrame 1 flags) false]).NoBlockPending := by
  intro i self hself
  by_cases hi : i = 1
  · subst hi
    rw [hself] at hframes
    exact Option.some.inj hframes
  · exact absurd ((@step_receive_of_ne _ (requestFrame 1 flags) _ _ hi).symm.trans hself) nofun

/-- A frame of an unknown type is ignored by an open stream. -/
theorem ignorable_ignored_open :
    let s := (start false (.new none .caseless)).run [.receive (requestFrame 1 0x4) false]
    s.Ignores ⟨.unknown 0xb, 0, 1, [1, 2]⟩ false ↔ s.TakesIgnorable ⟨.unknown 0xb, 0, 1, [1, 2]⟩ :=
  ignorable_ignored false (.new none .caseless) [.receive (requestFrame 1 0x4) false] _ false (by decide +kernel)
    (noBlockPending_request (by decide +kernel)) (.inl ⟨_, rfl⟩)

/-- Once the request has ended, a frame of an unknown type on its stream is
answered with RST_STREAM, and PRIORITY on an idle stream with GOAWAY. -/
theorem not_ignorable_ignored :
    let s := (start false (.new none .caseless)).run [.receive (requestFrame 1 0x5) false]
    s.loop = .running ∧ s.NoBlockPending ∧
      (Frame.Ignorable ⟨.unknown 0xb, 0, 1, []⟩ ∧ ¬ s.Ignores ⟨.unknown 0xb, 0, 1, []⟩ false) ∧
      Frame.Ignorable ⟨.priority, 0, 3, [0, 0, 0, 0, 7]⟩ ∧ ¬ s.Ignores ⟨.priority, 0, 3, [0, 0, 0, 0, 7]⟩ false := by
  intro s
  have hrefused : s.outcome ⟨.unknown 0xb, 0, 1, []⟩ false = .error (.streamError 1 .streamClosed) ∧
      s.outcome ⟨.priority, 0, 3, [0, 0, 0, 0, 7]⟩ false =
        .error (.connectionError .protocolError (some "non-existent stream")) := by decide +kernel
  refine ⟨by decide +kernel, noBlockPending_request (by decide +kernel), ⟨.inl ⟨_, rfl⟩, fun h => ?_⟩,
    .inr ⟨rfl, rfl, by decide⟩, fun h => ?_⟩
  · exact absurd (hrefused.1.symm.trans h.completes) nofun
  · exact absurd (hrefused.2.symm.trans h.completes) nofun

end System

end TornadoHttp2
