import TornadoHttp2.SharedInvariants
import TornadoHttp2.Writers

/-! Who holds the write lock. `_write_end_stream` releases it whatever happens,
`_write_chunk` only where it gets to the end of its chunk: an exception before
that leaves the lock to nobody, and whatever comes to it later waits for ever. -/

namespace TornadoHttp2

open Prog

/-- When no coroutine holds the lock, it is free and none waits for it. -/
def WriteLock.Unwedged (lock : WriteLock) : Prop :=
  (∀ job point, lock.owner ≠ .writer job point) → lock.owner = .free ∧ lock.waiters = []

/-- The owner of the lock is about to find that what it has written was never
flushed, or to write a frame that the connection does not take. -/
def Owner.fails (streamId : Nat) (closed flushed : Bool) : Owner → Bool
  | .writer (.chunk _ _) .flush => closed && !flushed
  | .writer (.chunk chunk _) (.consume amount) =>
    closed || decide (2 ^ 31 ≤ streamId) || decide (2 ^ 31 ≤ (chunk.take amount.toNat).length)
  | _ => false

/-- The resumed coroutine raises in the midst of its chunk. -/
def System.breaksWrite (s : System) : System.Action → Bool
  | .resume streamId flushed =>
    (s.streams streamId).any fun self => self.writeLock.owner.fails self.streamId s.conn.closed flushed
  | _ => false

/-- Nobody has left the lock behind, and the windows are open. -/
structure Kept (w own : Window) (lock : WriteLock) : Prop where
  parent : w.closed = false
  own : own.closed = false
  owner : lock.owner ≠ .lost
  free : lock.owner = .free → lock.waiters = []

def StaysOpen (w w' : Window) : Prop := w.closed = false → w'.closed = false

instance : Std.Refl StaysOpen := ⟨fun _ => id⟩

instance : IsTrans Window StaysOpen := ⟨fun _ _ _ h h' => h' ∘ h⟩

theorem Kept.writer {w own : Window} {lock : WriteLock} (h : Kept w own lock) (job : Job) (point : YieldPoint) :
    Kept w own { lock with owner := .writer job point } := ⟨h.parent, h.own, by simp, by simp⟩

theorem Kept.release {w own : Window} {lock : WriteLock} (h : Kept w own lock) : Kept w own lock.release := by
  refine ⟨h.parent, h.own, ?_, ?_⟩ <;> rw [WriteLock.release]
  · cases lock.waiters <;> simp
  · cases lock.waiters <;> simp

theorem Window.Updated.closed {w w' : Window} (h : w.Updated w') : w'.closed = w.closed := by
  cases h <;> rfl

namespace Stream

open Ctx

variable {c : Ctx}

theorem consumeParent_returns (hparent : c.conn.window.closed = false) (amount : Int) :
    ∃ point c', (consumeParent amount).run c = (.ok point, c') ∧ c'.self = c.self ∧ c'.conn.window.closed = false := by
  rw [consumeParent, run_get_bind]
  split
  · exact ⟨_, c, rfl, rfl, hparent⟩
  · rw [run_check_of_neg (by simp [hparent])]
    exact ⟨_, _, rfl, rfl, hparent⟩

theorem consume_returns (hparent : c.conn.window.closed = false) (hown : c.self.window.closed = false) (amount : Int) :
    ∃ point c', (consume amount).run c = (.ok point, c') ∧ c'.self = c.self ∧ c'.conn.window.closed = false := by
  rw [consume, run_get_bind]
  split
  · exact ⟨_, c, rfl, rfl, hparent⟩
  · rw [run_check_of_neg (by simp [hown])]
    exact consumeParent_returns hparent _

theorem writeChunkLoop_returns (h : Kept c.conn.window c.self.window c.self.writeLock) (chunk : Bytes)
    (callback : Option Nat) : ∃ c', (writeChunkLoop chunk callback).run c = (.ok (), c') ∧
      Kept c'.conn.window c'.self.window c'.self.writeLock := by
  rw [writeChunkLoop]
  split
  · cases callback with
    | none => exact ⟨_, rfl, h.release⟩
    | some token => exact ⟨_, rfl, h.release⟩
  · obtain ⟨point, c', hrun, hself, hparent⟩ := consume_returns h.parent h.own chunk.length
    rw [bind_ok hrun]
    have hkept : Kept c'.conn.window c'.self.window c'.self.writeLock := by
      rw [hself]
      exact ⟨hparent, h.own, h.owner, h.free⟩
    exact ⟨_, rfl, hkept.writer _ _⟩

theorem resumeChunk_returns (h : Kept c.conn.window c.self.window c.self.writeLock) {flushed : Bool} {chunk : Bytes}
    {callback : Option Nat} {point : YieldPoint}
    (hfails : (Owner.writer (.chunk chunk callback) point).fails c.self.streamId c.conn.closed flushed = false) :
    ∃ c', (resumeChunk flushed chunk callback point).run c = (.ok (), c') ∧
      Kept c'.conn.window c'.self.window c'.self.writeLock := by
  cases point with
  | lock => exact writeChunkLoop_returns h chunk callback
  | flush =>
    rw [resumeChunk, run_get_bind, run_check_of_neg (by simpa [Owner.fails] using hfails)]
    exact writeChunkLoop_returns h chunk callback
  | cond since =>
    rw [resumeChunk, run_get_bind, when]
    split
    · exact writeChunkLoop_returns h chunk callback
    · exact ⟨c, rfl, h⟩
  | parentCond amount since =>
    rw [resumeChunk, run_get_bind, when]
    split
    · obtain ⟨point, c', hrun, hself, hparent⟩ := consumeParent_returns h.parent amount
      have hkept : Kept c'.conn.window c'.self.window c'.self.writeLock := by
        rw [hself]
        exact ⟨hparent, h.own, h.owner, h.free⟩
      rw [bind_ok hrun]
      exact ⟨_, rfl, hkept.writer _ _⟩
    · exact ⟨c, rfl, h⟩
  | parent amount => exact ⟨_, rfl, h.parent, h.own, by simp, by simp⟩
  | consume amount =>
    simp only [Owner.fails, Bool.or_eq_false_iff, decide_eq_false_iff_not, not_le] at hfails
    rw [resumeChunk, run_get_bind, bind_ok (writeFrame_run hfails.2 hfails.1.2 hfails.1.1)]
    exact ⟨_, rfl, ⟨h.parent, h.own, by simp, by simp⟩⟩

theorem resumeEndStream_keeps : Guards.Kept Kept StaysOpen resumeEndStream := by
  have hreset : Guards.Kept Kept StaysOpen (catching Stream.reset fun _ => pure ()) :=
    .catching (.get_bind fun _ _ => Guards.writeFrame_kept) fun _ => .pure _
  exact .get_bind fun _ _ => .bind (.catching Guards.writeFrame_kept fun _ => hreset) fun _ c h =>
    ⟨h.release, refl c.conn.window⟩

/-- A slice that does not fail leaves the lock to its owner or releases it. -/
theorem resume_keeps {flushed : Bool} (h : Kept c.conn.window c.self.window c.self.writeLock)
    (hfails : c.self.writeLock.owner.fails c.self.streamId c.conn.closed flushed = false) :
    Kept ((resume flushed).run c).2.conn.window ((resume flushed).run c).2.self.window
      ((resume flushed).run c).2.self.writeLock := by
  rw [resume, run_get_bind]
  rcases howner : c.self.writeLock.owner with _ | ⟨⟨chunk, callback⟩ | _, point⟩ | _
  · exact h
  · rw [howner] at hfails
    obtain ⟨c', hrun, hkept⟩ := resumeChunk_returns h hfails
    simp only [catching, hrun]
    exact hkept
  · exact (resumeEndStream_keeps c h).1
  · exact h

theorem acquire_keeps (job : Job) : Guards.Kept Kept StaysOpen (acquire job) := by
  intro c h
  rw [acquire, run_get_bind]
  split
  · have hgranted : Kept c.conn.window c.self.window { c.self.writeLock with owner := .writer job .lock } :=
      h.writer job .lock
    have hfails : (Owner.writer job .lock).fails c.self.streamId c.conn.closed true = false := by
      cases job <;> rfl
    have hkept := @resume_keeps (c.withOwner (.writer job .lock)) true hgranted hfails
    exact ⟨hkept, fun _ => hkept.parent⟩
  · rename_i hbusy
    exact ⟨⟨h.parent, h.own, h.owner, fun hfree => absurd hfree hbusy⟩, refl c.conn.window⟩

end Stream

theorem kept_guards : Guards (fun w => w.closed = false) Kept StaysOpen where
  base hopen := hopen
  change hopen h := ⟨hopen h.parent, h.own, h.owner, h.free⟩
  new _ _ hopen := ⟨hopen, rfl, by simp, fun _ => rfl⟩
  update frame w own lock h :=
    ⟨h.parent, (Window.applyWindowUpdate_updated frame own).closed.trans h.own, h.owner, h.free⟩
  updateConn frame w h := (Window.applyWindowUpdate_updated frame w).closed.trans h
  acquire := Stream.acquire_keeps

theorem Kept.unwedged {w own : Window} {lock : WriteLock} (h : Kept w own lock) : lock.Unwedged := by
  intro hwriter
  cases howner : lock.owner with
  | free => exact ⟨rfl, h.free howner⟩
  | writer job point => exact absurd howner (hwriter job point)
  | lost => exact absurd howner h.owner

namespace System

abbrev LocksKept (s : System) : Prop :=
  s.Each (fun conn => conn.window.closed = false) fun conn self => Kept conn.window self.window self.writeLock

theorem LocksKept.step {s : System} {a : Action} (h : s.LocksKept) (ha : s.breaksWrite a = false) :
    (s.step a).LocksKept := by
  refine kept_guards.step h fun i flushed self hresume hself hown => ?_
  subst hresume
  rw [breaksWrite, hself, Option.any_some] at ha
  have hkept := Stream.resume_keeps (c := ⟨s.conn, self⟩) hown ha
  exact ⟨hkept, fun _ => hkept.parent⟩

/-- As long as no coroutine raises in the midst of its chunk, a lock that no
running coroutine holds is free, and none waits for it. -/
theorem write_locks_released {isClient : Bool} {params : Params} {actions : List Action}
    (hrun : Runs.Along step (fun s a => s.breaksWrite a = false) (start isClient params) actions) {i : Nat}
    {self : Stream} (hself : ((start isClient params).run actions).streams i = some self) :
    self.writeLock.Unwedged := by
  have hstart : (start isClient params).LocksKept := ⟨rfl, by simp [start]⟩
  have hkept : ((start isClient params).run actions).LocksKept := Runs.invariant (fun _ _ h ha => h.step ha) hstart hrun
  exact (hkept.stream hself).unwedged

/-- A request whose body waits for credit, `finish` behind it, and the credit. -/
def creditedActions : List Action :=
  [.receive ⟨.settings, 0, 0, [0, 4, 0, 0, 0, 0]⟩ false, .createStream,
    .writeHeaders 1 (.request (ascii "POST") (ascii "/")) .empty [1, 2, 3] none, .finish 1,
    .receive ⟨.windowUpdate, 0, 1, [0, 0, 0, 9]⟩ false]

/-- The chunk is flushed, and END_STREAM finds the socket closed. -/
def finishActions : List Action :=
  creditedActions ++ [.resume 1 true, .resume 1 true, .resume 1 true, .disconnect, .resume 1 true, .resume 1 true]

theorem write_locks_released_finish : ∃ self,
    ((start true (.new none .caseless)).run finishActions).streams 1 = some self ∧ self.writeLock.Unwedged := by
  obtain ⟨self, hself⟩ : ∃ self, ((start true (.new none .caseless)).run finishActions).streams 1 = some self :=
    Option.isSome_iff_exists.mp (by decide +kernel)
  exact ⟨self, hself, write_locks_released (by decide +kernel) hself⟩

/-- The socket is closed before the writer goes on, and its frame fails:
END_STREAM waits for a lock that nobody is going to release. -/
theorem not_write_locks_released :
    (((start true (.new none .caseless)).run (creditedActions ++
      [.disconnect, .resume 1 true, .resume 1 true, .resume 1 true])).streams 1).map (·.writeLock) =
        some ⟨.lost, [.endStream]⟩ ∧
    ¬ (⟨.lost, [.endStream]⟩ : WriteLock).Unwedged := by
  refine ⟨by decide +kernel, fun h => ?_⟩
  have hfree : Owner.lost = .free := (h (by simp)).1
  cases hfree

end System

end TornadoHttp2
