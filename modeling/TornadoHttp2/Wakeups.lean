import TornadoHttp2.Conditions
import TornadoHttp2.SharedInvariants
import TornadoHttp2.Writers

/-! Waiting for credit. A WINDOW_UPDATE frame that would overflow the window
changes its size and raises without a notification, but only a window that had
credit already overflows. -/

namespace TornadoHttp2

open Prog Conditions

namespace Window

abbrev Waits (since : Nat) (w : Window) : Prop := Conditions.Waits notified (fun w => w.blocked = true) since w

abbrev Notifies (w w' : Window) : Prop := Conditions.Notifies notified (fun w => w.blocked = true) w w'

theorem blocked_iff {w : Window} : w.blocked = true ↔ w.size ≤ 0 ∧ w.closed = false := by
  simp [blocked, and_comm]

theorem Updated.notifies {w w' : Window} (h : w.Updated w') : Notifies w w' := by
  cases h with
  | rejected => exact refl w
  | overflowed amount hamount hover =>
    refine .of_not_blocked le_rfl fun hblocked => ?_
    have hsize := (blocked_iff.mp hblocked).1
    omega
  | credited => exact .of_lt (Nat.lt_succ_self _)

end Window

/-- A coroutine at this point is about to be woken if it waits for credit that is there. -/
def YieldPoint.Parks (w own : Window) : YieldPoint → Prop
  | .cond since => own.Waits since
  | .parentCond _ since => w.Waits since
  | _ => True

def Owner.Parks (w own : Window) : Owner → Prop
  | .writer _ point => point.Parks w own
  | _ => True

theorem Owner.Parks.change {w w' own own' : Window} {owner : Owner} (h : owner.Parks w own) (hw : w.Notifies w')
    (hown : own.Notifies own') : owner.Parks w' own' := by
  rcases owner with _ | ⟨job, point⟩ | _
  · trivial
  · cases point with
    | cond since => exact Waits.change h hown
    | parentCond amount since => exact Waits.change h hw
    | _ => trivial
  · trivial

namespace Stream

open Ctx

abbrev Parks (w own : Window) (lock : WriteLock) : Prop := lock.owner.Parks w own

variable {c : Ctx}

theorem consumeParent_parks (amount : Int) : wp (consumeParent amount)
    (fun point c' => point.Parks c'.conn.window c'.self.window ∧ c.conn.window.Notifies c'.conn.window)
    (fun _ c' => c' = c) c := by
  simp only [consumeParent, wp_bind, wp_get]
  rw [wp_ite]
  refine ⟨fun hblocked => ⟨.start hblocked, refl c.conn.window⟩, fun hblocked => ?_⟩
  simp only [wp_bind, wp_check]
  exact ⟨fun _ => trivial, fun _ => ⟨trivial, .of_not_blocked le_rfl hblocked⟩⟩

theorem consume_parks (amount : Int) : wp (consume amount)
    (fun point c' => point.Parks c'.conn.window c'.self.window ∧ c.conn.window.Notifies c'.conn.window)
    (fun _ c' => c' = c) c := by
  simp only [consume, wp_bind, wp_get]
  rw [wp_ite]
  refine ⟨fun hblocked => ⟨.start hblocked, refl c.conn.window⟩, fun hblocked => ?_⟩
  simp only [wp_bind, wp_check]
  exact ⟨fun _ => trivial, fun _ => consumeParent_parks _⟩

/-- A coroutine waits where the test of its window says so. -/
theorem suspend_parks {m : OnStream YieldPoint} {job : Job} (hm : ∀ c, wp m
    (fun point c' => point.Parks c'.conn.window c'.self.window ∧ c.conn.window.Notifies c'.conn.window)
    (fun _ c' => c' = c) c) : Guards.Kept Parks Window.Notifies (m >>= fun point => setOwner (.writer job point)) := by
  refine Keeps.iff_wp.mpr fun c h => ?_
  rw [wp_bind]
  refine wp_mono (hm c) (fun _ _ h => h) ?_
  rintro _ c' rfl
  exact ⟨h, refl c'.conn.window⟩

theorem release_parks : Guards.Kept Parks Window.Notifies release := by
  refine fun c _ => ⟨?_, refl c.conn.window⟩
  change c.self.writeLock.release.owner.Parks _ _
  rw [WriteLock.release]
  cases c.self.writeLock.waiters <;> trivial

theorem writeChunkLoop_parks {chunk : Bytes} {callback : Option Nat} :
    Guards.Kept Parks Window.Notifies (writeChunkLoop chunk callback) :=
  .ite (fun _ => .bind release_parks fun _ => Guards.runCallback_kept) fun _ => suspend_parks fun _ => consume_parks _

theorem resumeChunk_parks {flushed : Bool} {chunk : Bytes} {callback : Option Nat} (point : YieldPoint) :
    Guards.Kept Parks Window.Notifies (resumeChunk flushed chunk callback point) := by
  cases point with
  | lock => exact writeChunkLoop_parks
  | flush => exact .get_bind fun _ _ => .bind .check fun _ => writeChunkLoop_parks
  | cond since => exact .get_bind fun _ _ => .when fun _ => writeChunkLoop_parks
  | parentCond amount since => exact .get_bind fun _ _ => .when fun _ => suspend_parks fun _ => consumeParent_parks _
  | parent amount => exact fun c _ => ⟨trivial, refl c.conn.window⟩
  | consume amount => exact .get_bind fun _ _ => .bind Guards.writeFrame_kept fun _ c _ => ⟨trivial, refl c.conn.window⟩

theorem resume_parks {flushed : Bool} : Guards.Kept Parks Window.Notifies (resume flushed) := by
  have hreset : Guards.Kept Parks Window.Notifies (catching Stream.reset fun _ => pure ()) :=
    .catching (.get_bind fun _ _ => Guards.writeFrame_kept) fun _ => .pure _
  refine .get_bind fun c _ => ?_
  rcases c.self.writeLock.owner with _ | ⟨⟨chunk, callback⟩ | _, point⟩ | _
  · exact .pure _
  · exact .catching (resumeChunk_parks point) fun _ => .bind (fun c _ => ⟨trivial, refl c.conn.window⟩) fun _ => hreset
  · exact .get_bind fun _ _ => .bind (.catching Guards.writeFrame_kept fun _ => hreset) fun _ => release_parks
  · exact .pure _

theorem acquire_parks (job : Job) : Guards.Kept Parks Window.Notifies (acquire job) :=
  .get_bind fun _ _ => .ite (fun _ => .bind (fun c _ => ⟨trivial, refl c.conn.window⟩) fun _ => resume_parks) fun _ =>
    fun c h => ⟨h, refl c.conn.window⟩

end Stream

theorem parks_guards : Guards (fun _ => True) Stream.Parks Window.Notifies where
  base _ _ := trivial
  change {_ _ own _} hw h := Owner.Parks.change h hw (refl own)
  new _ _ _ := trivial
  update frame w own _ h := Owner.Parks.change h (refl w) (Window.applyWindowUpdate_updated frame own).notifies
  updateConn frame w := (Window.applyWindowUpdate_updated frame w).notifies
  acquire := Stream.acquire_parks

namespace System

abbrev WritersPark (s : System) : Prop :=
  s.Each (fun _ => True) fun conn self => Stream.Parks conn.window self.window self.writeLock

theorem WritersPark.step {s : System} (h : s.WritersPark) (a : Action) : (s.step a).WritersPark :=
  parks_guards.step h fun _ _ self _ _ hself => Stream.resume_parks ⟨s.conn, self⟩ hself

theorem WritersPark.run (isClient : Bool) (params : Params) (actions : List Action) :
    ((start isClient params).run actions).WritersPark := by
  have hstart : (start isClient params).WritersPark := ⟨trivial, by simp [start]⟩
  exact actions.foldlRecOn System.step hstart fun _ h a _ => h.step a

/-- A writer that waits for credit, of its stream or of the connection, without
a notification on its way waits at a window that is open and has none. -/
theorem no_wakeup_lost {isClient : Bool} {params : Params} {actions : List Action} {i : Nat} {self : Stream}
    (hself : ((start isClient params).run actions).streams i = some self) {job : Job} {point : YieldPoint}
    (howner : self.writeLock.owner = .writer job point) :
    let window := ((start isClient params).run actions).conn.window
    (∀ since, point = .cond since → ¬ since < self.window.notified →
      self.window.size ≤ 0 ∧ self.window.closed = false) ∧
    (∀ amount since, point = .parentCond amount since → ¬ since < window.notified →
      window.size ≤ 0 ∧ window.closed = false) := by
  have hparks := (WritersPark.run isClient params actions).stream hself
  rw [Stream.Parks, howner] at hparks
  constructor
  · rintro since rfl hpending
    have hwaits : self.window.Waits since := hparks
    exact Window.blocked_iff.mp (hwaits.blocked (Nat.le_antisymm hwaits.le (Nat.not_lt.mp hpending)))
  · rintro amount since rfl hpending
    have hwaits : ((start isClient params).run actions).conn.window.Waits since := hparks
    exact Window.blocked_iff.mp (hwaits.blocked (Nat.le_antisymm hwaits.le (Nat.not_lt.mp hpending)))

/-- A response to a stream without credit, and an update that is rejected. -/
def parkedActions : List Action :=
  [.receive ⟨.settings, 0, 0, [0, 4, 0, 0, 0, 0]⟩ false, .receive (requestFrame 1 0x5) false,
    .writeHeaders 1 (.response 200) .empty [1, 2, 3] none, .receive ⟨.windowUpdate, 0, 1, [0, 0, 0, 0]⟩ false,
    .resume 1 true]

theorem no_wakeup_lost_parked : ∃ self, ((start false (.new none .caseless)).run parkedActions).streams 1 = some self ∧
    self.writeLock.owner = .writer (.chunk [1, 2, 3] none) (.cond 0) ∧ self.window.notified = 0 ∧
    self.window.size ≤ 0 ∧ self.window.closed = false := by
  obtain ⟨self, hself⟩ : ∃ self, ((start false (.new none .caseless)).run parkedActions).streams 1 = some self :=
    Option.isSome_iff_exists.mp (by decide +kernel)
  have hparked : (((start false (.new none .caseless)).run parkedActions).streams 1).map
      (fun self => (self.writeLock.owner, self.window.notified)) =
        some (.writer (.chunk [1, 2, 3] none) (.cond 0), 0) := by decide +kernel
  rw [hself, Option.map_some, Option.some.injEq, Prod.mk.injEq] at hparked
  obtain ⟨howner, hnotified⟩ := hparked
  refine ⟨self, hself, howner, hnotified, ?_⟩
  exact (no_wakeup_lost hself howner).1 0 rfl (by rw [hnotified]; exact Nat.lt_irrefl 0)

end System

end TornadoHttp2
