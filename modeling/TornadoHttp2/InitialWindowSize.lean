import TornadoHttp2.CreditSafety
import TornadoHttp2.Settings

/-! A SETTINGS frame that changes INITIAL_WINDOW_SIZE leaves the windows of open
streams as they are. As long as no frame does that, every stream's window is
the size the peer allows. -/

namespace TornadoHttp2

open Prog

/-- Every stream's window is what the peer's INITIAL_WINDOW_SIZE and the accepted
increments allow, less what was debited, and pays for the stream's DATA frames. -/
def WindowsFollowSettings (s : System) : Prop :=
  ∀ i self, s.streams i = some self →
    let allowed := s.conn.setting .initialWindowSize + total (Event.credit (some i)) s.conn.log
    self.window.size = allowed - total (Event.debit (some i)) s.conn.log ∧
      total Event.dataBytes (logOf i s.conn.log) ≤ allowed

/-- The INITIAL_WINDOW_SIZE in force once the entries of a SETTINGS payload have
been gone through; a refused entry ends the frame. -/
def announcedWindowSize (current : Nat) : Bytes → Nat
  | b₀ :: b₁ :: b₂ :: b₃ :: b₄ :: b₅ :: data =>
    let code := unpackBytes [b₀, b₁]
    let value := unpackBytes [b₂, b₃, b₄, b₅]
    if (Conn.refusedSetting code value).isSome then current
    else announcedWindowSize (if code = Setting.initialWindowSize.code then value else current) data
  | _ => current

/-- The frame does not change INITIAL_WINDOW_SIZE while there are streams, nor does
it take the window of a stream past its limit. -/
def KeepsWindowSizes (s : System) (a : System.Action) : Prop :=
  AcceptsStreamUpdates s a ∧
    match a with
    | .receive frame _ => s.Reads frame → frame.type = .settings → frame.streamId = 0 →
        frame.has .ack = false → (∀ i, s.streams i = none) ∨
          announcedWindowSize (s.conn.setting .initialWindowSize) frame.data =
            s.conn.setting .initialWindowSize
    | _ => True

theorem announcedWindowSize_eq : ∀ (data : Bytes) (current : Nat),
    announcedWindowSize current data = announced .initialWindowSize current data
  | [], _ => rfl
  | b₀ :: b₁ :: b₂ :: b₃ :: b₄ :: b₅ :: data, current => by
    rw [announcedWindowSize, announced, announcedWindowSize_eq data]
  | [_], _ | [_, _], _ | [_, _, _], _ | [_, _, _, _], _ | [_, _, _, _, _], _ => rfl

theorem connHandleFrame_setting {c : Conn} {frame : Frame} {size : Nat}
    (hsize : c.setting .initialWindowSize = size)
    (h : frame.type = .settings → frame.has .ack = false →
      announcedWindowSize size frame.data = size) :
    ((Conn.handleFrame frame).run c).2.setting .initialWindowSize = size := by
  rw [Conn.handleFrame_announced, hsize]
  split
  · rename_i hsettings
    rw [← announcedWindowSize_eq]
    exact h hsettings.1 hsettings.2
  · rfl

/-- The streams were opened with the INITIAL_WINDOW_SIZE in force. -/
def OpenedWith (size : Nat) (_ : Stream) (log : List Event) : Prop :=
  total Event.initialSize log = size

def InForce (size : Nat) (c : Conn) : Prop := c.setting .initialWindowSize = size

theorem Event.initialSize_of_not_ofLoop {e : Event} (h : ¬ e.ofLoop) : e.initialSize = 0 := by
  cases e with
  | opened => exact absurd trivial h
  | _ => rfl

theorem stable_openedWith {size : Nat} : Stable (OpenedWith size) (InForce size) where
  quiet := by
    rintro c _ ⟨es, _, _, rfl, _⟩ h
    exact h
  noise he h := by simpa [OpenedWith, he.isNeutral.initialSize] using h
  new _ hsize hlog := by
    have hzero : total Event.initialSize _ = 0 :=
      total_eq_zero fun e he => (hlog e he).isNeutral.initialSize
    rw [OpenedWith, total_append, hzero, total_singleton, Event.initialSize, zero_add, hsize]

theorem Acts.openedWith {i size : Nat} {c c' : Ctx} (h : Acts i c c')
    (hc : Own (OpenedWith size) (InForce size) c) : Own (OpenedWith size) (InForce size) c' := by
  obtain ⟨es, hlog, hes⟩ := h.log
  have hzero : total Event.initialSize (logOf c.self.streamId es) = 0 :=
    total_eq_zero fun e he => Event.initialSize_of_not_ofLoop (hes e (mem_logOf.mp he).1).2
  have hsettings : c'.conn.settings = c.conn.settings := congrArg (fun t => t.2.2.1) h.conn
  refine ⟨?_, ?_⟩
  · rw [OpenedWith, h.self, hlog, logOf_append, total_append, hzero, add_zero]
    exact hc.1
  · rw [InForce, Conn.setting, hsettings]
    exact hc.2

/-- The invariant of the runs in which INITIAL_WINDOW_SIZE changes only while
there is no stream. -/
structure SizeInvariant (s : System) : Prop where
  flow : FlowInvariant (fun _ => True) s
  opened : s.All (OpenedWith (s.conn.setting .initialWindowSize))

theorem SizeInvariant.step {s : System} (h : SizeInvariant s) {a : System.Action}
    (ha : KeepsWindowSizes s a) : SizeInvariant (s.step a) := by
  refine ⟨h.flow.step ha.1 fun _ _ _ _ _ _ _ _ => trivial, ?_⟩
  have hstep (hsetting : ∀ frame later, a = .receive frame later → s.Reads frame → frame.streamId = 0 →
      frame.type = .settings → frame.has .ack = false →
        announcedWindowSize (s.conn.setting .initialWindowSize) frame.data =
          s.conn.setting .initialWindowSize) :
      (s.step a).All (OpenedWith ((s.step a).conn.setting .initialWindowSize)) := by
    obtain ⟨hopened, hsize⟩ := System.All.step (a := a) stable_openedWith h.flow.wellFormed h.opened
      (rfl : InForce (s.conn.setting .initialWindowSize) s.conn)
      (fun frame later c hreceive hreads hid _ hc =>
        connHandleFrame_setting hc (hsetting frame later hreceive hreads hid))
      (fun frame later c _ _ _ _ _ hc => (Stream.handleFrame_acts frame later c rfl).2.openedWith hc)
      (fun i m self hm _ hid hc => (Stream.method_acts hm ⟨s.conn, self⟩ hid).2.openedWith hc)
    rwa [show (s.step a).conn.setting .initialWindowSize = _ from hsize]
  cases a with
  | receive frame later =>
    by_cases hnone : frame.streamId = 0 ∧ ∀ i, s.streams i = none
    · intro i self hself
      rw [System.step_receive_streams hnone.1, hnone.2] at hself
      cases hself
    · refine hstep ?_
      rintro _ _ ⟨⟩ hreads hid htype hack
      exact (ha.2 hreads htype hid hack).resolve_left fun h => hnone ⟨hid, h⟩
  | _ => exact hstep nofun

/-- A run in which no SETTINGS frame changes INITIAL_WINDOW_SIZE while there are
streams, and no WINDOW_UPDATE overflows the window of a stream. -/
theorem windows_follow_settings {isClient : Bool} {params : Params} {actions : List System.Action}
    (h : Runs.Along System.step KeepsWindowSizes (System.start isClient params) actions) :
    WindowsFollowSettings ((System.start isClient params).run actions) := by
  have hinv : SizeInvariant ((System.start isClient params).run actions) :=
    Runs.invariant (fun _ _ hs ha => hs.step ha)
      ⟨.start trivial, by simp [System.All, System.start]⟩ h
  generalize (System.start isClient params).run actions = s at hinv
  intro i self hself allowed
  obtain ⟨hsize, hnonneg, -, hpaid, -⟩ := (hinv.flow.streams hself).1
  have hopened : total Event.initialSize (logOf i s.conn.log) = s.conn.setting .initialWindowSize :=
    hinv.opened hself
  have hpiece := (pieces_nonneg (hinv.flow.streams hself).2).1
  rw [hinv.flow.wellFormed.streamId hself, total_credit_logOf, total_debit_logOf, hopened] at hsize
  rw [hinv.flow.wellFormed.streamId hself, total_debit_logOf] at hpaid
  refine ⟨hsize, ?_⟩
  simp only [allowed]
  omega

/-- A server's stream that is open when INITIAL_WINDOW_SIZE goes down to 100. -/
theorem windows_not_follow_settings : ¬ WindowsFollowSettings ((System.start false (.new none .caseless)).run
    [.receive (System.requestFrame 1 0x5) false,
      .receive ⟨.settings, 0, 0, [0, 4, 0, 0, 0, 100]⟩ false]) := by
  intro h
  have hsize := (h 1 _ rfl).1
  revert hsize
  decide +kernel

/-- INITIAL_WINDOW_SIZE changes before the stream is opened. -/
theorem windows_follow_early_settings : WindowsFollowSettings ((System.start false (.new none .caseless)).run
    [.receive ⟨.settings, 0, 0, [0, 4, 0, 0, 0, 100]⟩ false,
      .receive (System.requestFrame 1 0x5) false]) :=
  windows_follow_settings
    ⟨⟨nofun, fun _ _ _ _ => .inl fun _ => rfl⟩, ⟨nofun, nofun⟩, trivial⟩

end TornadoHttp2
