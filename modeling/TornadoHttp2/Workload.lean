import TornadoHttp2.BlockWriting
import TornadoHttp2.CreditSafety
import TornadoHttp2.WriteQueue

/-! How much is left to do about the frames on their way to an end, about the futures
that it has not resolved and about the bytes that its writers have not written. Each
frame is worth more than all that an end does in reply to it. -/

namespace TornadoHttp2

open Prog

/-- What the handler of a frame may write, queue or leave unresolved. -/
def Frame.spawned (toClient : Bool) (frame : Frame) : ℕ :=
  match frame.type with
  | .data => 5
  | .headers | .continuation => if toClient then 0 else 11
  | .settings | .ping => if frame.has .ack then 0 else 2
  | _ => 0

/-- A frame may be refused besides with RST_STREAM, which is never refused itself. -/
def Frame.work (toClient : Bool) (frame : Frame) : ℕ :=
  if frame.type = .rstStream then 1 else frame.spawned toClient + 2

/-- A byte is worth more than a DATA frame, and so is the end of a stream. -/
def Job.work (job : Job) : ℕ := 8 * (job.bytes.length + 1)

def WriteLock.work (lock : WriteLock) : ℕ := (lock.jobs.map Job.work).sum

def Stream.work (s : Stream) : ℕ := s.writeLock.work + 5 * s.pendingCredits.length

def sentWork (toClient : Bool) (log : List Event) : ℕ := ((framesOf log).map (Frame.work toClient)).sum

def Ctx.work (toClient : Bool) (c : Ctx) : ℕ := sentWork toClient c.conn.log + c.self.work

/-- How many slices a coroutine may run until it writes or waits: one that waits has none
left unless it has been notified. -/
def YieldPoint.rank (parent own : ℕ) : YieldPoint → ℕ
  | .lock | .flush => 3
  | .cond since => if since < own then 3 else 0
  | .parentCond _ since => if since < parent then 3 else 0
  | .parent _ => 2
  | .consume _ => 1

def Owner.rank (parent own : ℕ) : Owner → ℕ
  | .writer (.chunk _ _) point => point.rank parent own
  | _ => 0

def Ctx.rank (c : Ctx) : ℕ := c.self.writeLock.owner.rank c.conn.window.notified c.self.window.notified

/-- A coroutine at this point waits, and has not been notified. -/
def YieldPoint.Sleeps (w own : Window) : YieldPoint → Prop
  | .cond since => own.notified ≤ since
  | .parentCond _ since => w.notified ≤ since
  | _ => False

/-- Nobody holds the lock that could run. -/
def Owner.Sleeps (w own : Window) : Owner → Prop
  | .writer (.chunk _ _) point => point.Sleeps w own
  | .writer .endStream _ => False
  | _ => True

section

variable {toClient : Bool} {log : List Event} {c : Ctx} {e : Event} {lock : WriteLock} {job : Job} {point : YieldPoint}

theorem sentWork_snoc : sentWork toClient (log ++ [e]) =
    sentWork toClient log + e.frame.elim 0 (Frame.work toClient) := by
  rw [sentWork, framesOf_append, List.map_append, List.sum_append, ← sentWork]
  refine congrArg (sentWork toClient log + ·) ?_
  cases e with
  | wrote frame => exact List.sum_singleton
  | _ => rfl

theorem Ctx.work_logged : (c.logged e).work toClient = c.work toClient + e.frame.elim 0 (Frame.work toClient) := by
  change sentWork toClient (c.conn.log ++ [e]) + c.self.work = sentWork toClient c.conn.log + c.self.work + _
  rw [sentWork_snoc]
  omega

theorem Ctx.work_withLock : (c.withLock lock).work toClient + c.self.writeLock.work = c.work toClient + lock.work := by
  change sentWork toClient c.conn.log + (lock.work + 5 * c.self.pendingCredits.length) + _ =
    sentWork toClient c.conn.log + (c.self.writeLock.work + 5 * c.self.pendingCredits.length) + _
  omega

theorem WriteLock.work_writer (howner : lock.owner = .writer job point) :
    lock.work = job.work + (lock.waiters.map Job.work).sum := by
  rw [work, jobs_writer howner, List.map_cons, List.sum_cons]

theorem WriteLock.release_work (howner : lock.owner = .writer job point) :
    lock.release.work + job.work = lock.work := by
  have hrest : lock.release.work = (lock.waiters.map Job.work).sum := by
    rw [work, release]
    cases lock.waiters <;> rfl
  rw [work_writer howner, hrest, add_comm]

theorem WriteLock.work_enqueued (lock : WriteLock) (job : Job) :
    WriteLock.work { lock with waiters := lock.waiters ++ [job] } = lock.work + job.work := by
  obtain ⟨owner, waiters⟩ := lock
  cases owner <;> simp [WriteLock.work, WriteLock.jobs, add_assoc]

theorem WriteLock.work_granted (hfree : lock.owner = .free) (job : Job) (point : YieldPoint) :
    WriteLock.work { lock with owner := .writer job point } = lock.work + job.work := by
  rw [WriteLock.work_writer rfl, add_comm]
  simp only [WriteLock.work, WriteLock.jobs, hfree]

theorem Job.work_pos (job : Job) : 8 ≤ job.work := by
  rw [work]
  omega

end

/-- What is left to do of a stream gets less, or comes closer. -/
structure Ctx.Lowers (toClient : Bool) (c c' : Ctx) : Prop where
  parent : c'.conn.window.notified = c.conn.window.notified
  lowers : c'.work toClient < c.work toClient ∨ c'.work toClient = c.work toClient ∧ c'.rank < c.rank

/-- Nothing but the sizes of windows has changed, and nothing was written. -/
structure Ctx.Waits (c c' : Ctx) : Prop where
  lock : c'.self.writeLock = c.self.writeLock
  pending : c'.self.pendingCredits = c.self.pendingCredits
  log : framesOf c'.conn.log = framesOf c.conn.log
  parent : c'.conn.window.notified = c.conn.window.notified

namespace Stream

open Ctx

variable {c : Ctx} {toClient : Bool}

/-- `consume` stops where it has to wait, or with what it has taken. -/
theorem consumeParent_waits (amount : Int) : wp (consumeParent amount)
    (fun point c' => c.Waits c' ∧ point.rank c'.conn.window.notified c'.self.window.notified ≤ 2)
    (fun _ c' => c' = c) c := by
  simp only [consumeParent, wp_bind, wp_get]
  rw [wp_ite]
  refine ⟨fun _ => ⟨⟨rfl, rfl, rfl, rfl⟩, ?_⟩, fun _ => ?_⟩
  · exact (if_neg (lt_irrefl _)).trans_le (Nat.zero_le 2)
  · simp only [wp_bind, wp_check]
    refine ⟨fun _ => trivial, fun _ => ⟨⟨rfl, rfl, ?_, rfl⟩, le_refl 2⟩⟩
    exact (framesOf_append ..).trans (List.append_nil _)

theorem consume_waits (amount : Int) : wp (consume amount)
    (fun point c' => c.Waits c' ∧ point.rank c'.conn.window.notified c'.self.window.notified ≤ 2)
    (fun _ c' => c' = c) c := by
  simp only [consume, wp_bind, wp_get]
  rw [wp_ite]
  refine ⟨fun _ => ⟨⟨rfl, rfl, rfl, rfl⟩, ?_⟩, fun _ => ?_⟩
  · exact (if_neg (lt_irrefl _)).trans_le (Nat.zero_le 2)
  · simp only [wp_bind, wp_check]
    exact ⟨fun _ => trivial, fun _ => consumeParent_waits _⟩

section

variable {chunk : Bytes} {callback : Option Nat} {point : YieldPoint}
    (howner : c.self.writeLock.owner = .writer (.chunk chunk callback) point)

include howner

theorem lowers_point {c' : Ctx} (hc : c.Waits c') {point' : YieldPoint}
    (h : point'.rank c'.conn.window.notified c'.self.window.notified <
      point.rank c.conn.window.notified c.self.window.notified) :
    c.Lowers toClient (c'.withOwner (.writer (.chunk chunk callback) point')) := by
  refine ⟨hc.parent, .inr ⟨?_, ?_⟩⟩
  · have hlock : ({ c'.self.writeLock with owner := .writer (.chunk chunk callback) point' } : WriteLock).work =
        c.self.writeLock.work := by
      rw [WriteLock.work_writer howner, WriteLock.work_writer rfl, hc.lock]
    have hwork := @work_withLock toClient c' { c'.self.writeLock with owner := .writer (.chunk chunk callback) point' }
    have hbefore : c'.work toClient = c.work toClient := by
      rw [Ctx.work, Ctx.work, sentWork, sentWork, Stream.work, Stream.work, hc.log, hc.lock, hc.pending]
    have hsame : c'.self.writeLock.work = c.self.writeLock.work := by rw [hc.lock]
    rw [Ctx.withOwner]
    omega
  · rw [Ctx.rank, Ctx.rank, howner]
    exact h

theorem suspend_lowers {m : OnStream YieldPoint} (hpoint : point.rank c.conn.window.notified c.self.window.notified = 3)
    (hm : wp m (fun point c' => c.Waits c' ∧ point.rank c'.conn.window.notified c'.self.window.notified ≤ 2)
      (fun _ c' => c' = c) c) :
    wp (m >>= fun point => setOwner (.writer (.chunk chunk callback) point))
      (fun _ => c.Lowers toClient) (fun _ c' => c' = c) c := by
  rw [wp_bind]
  refine wp_mono hm (fun point' c' h => ?_) fun _ _ h => h
  rw [wp_setOwner]
  exact lowers_point howner h.1 (by omega)

theorem writeChunkLoop_lowers (hpoint : point.rank c.conn.window.notified c.self.window.notified = 3) :
    wp (writeChunkLoop chunk callback) (fun _ => c.Lowers toClient) (fun _ c' => c' = c) c := by
  rw [writeChunkLoop, wp_ite]
  refine ⟨fun _ => ?_, fun _ => suspend_lowers howner hpoint (consume_waits _)⟩
  have hreleased : c.Lowers toClient c.released := by
    have hwork := @work_withLock toClient c c.self.writeLock.release
    have hjob := (Job.chunk chunk callback).work_pos
    have hlock := WriteLock.release_work howner
    refine ⟨rfl, .inl ?_⟩
    rw [Ctx.released]
    omega
  cases callback with
  | none => exact hreleased
  | some token =>
    refine ⟨hreleased.parent, ?_⟩
    have hwork : (c.released.logged (.callback c.self.streamId token)).work toClient = c.released.work toClient :=
      work_logged
    have hlt := hreleased.lowers
    rw [← hwork] at hlt
    exact hlt

/-- The bytes of a frame are worth more than the frame. -/
theorem writes_lowers {amount : Int} (hpoint : point = .consume amount)
    (hfits : PieceFits c.self.writeLock.owner c.self.window.size) :
    c.Lowers toClient ((c.logged (.wrote (c.pieceFrame (chunk.take amount.toNat)))).withOwner
      (.writer (.chunk (chunk.drop amount.toNat) callback) .flush)) := by
  subst hpoint
  rw [howner] at hfits
  obtain ⟨hpos, hle⟩ := hfits
  let lock : WriteLock := ⟨.writer (.chunk (chunk.drop amount.toNat) callback) .flush, c.self.writeLock.waiters⟩
  have hwork := @work_withLock toClient (c.logged (.wrote (c.pieceFrame (chunk.take amount.toNat)))) lock
  have hlogged : (c.logged (.wrote (c.pieceFrame (chunk.take amount.toNat)))).work toClient =
    c.work toClient + 7 := work_logged
  have hjobs : lock.work + 8 * amount.toNat = c.self.writeLock.work := by
    have hafter : lock.work = (Job.chunk (chunk.drop amount.toNat) callback).work +
        (c.self.writeLock.waiters.map Job.work).sum :=
      WriteLock.work_writer rfl
    rw [WriteLock.work_writer howner, hafter, Job.work, Job.work]
    simp only [Job.bytes, List.length_drop]
    omega
  have hsame : (c.logged (.wrote (c.pieceFrame (chunk.take amount.toNat)))).self.writeLock.work =
    c.self.writeLock.work := rfl
  refine ⟨rfl, .inl ?_⟩
  change ((c.logged (.wrote (c.pieceFrame (chunk.take amount.toNat)))).withLock lock).work toClient < _
  omega

/-- A slice of `_write_chunk` that raises has changed nothing. -/
theorem resumeChunk_lowers (hfits : PieceFits c.self.writeLock.owner c.self.window.size)
    (hpoint : ¬ point.Sleeps c.conn.window c.self.window) {flushed : Bool} :
    wp (resumeChunk flushed chunk callback point) (fun _ => c.Lowers toClient) (fun _ c' => c' = c) c := by
  cases point with
  | lock => exact writeChunkLoop_lowers howner rfl
  | cond since =>
    have hlt : since < c.self.window.notified := not_le.mp hpoint
    rw [resumeChunk, wp_bind, wp_get, wp_when]
    exact ⟨fun _ => writeChunkLoop_lowers howner (if_pos hlt), fun h => absurd hlt h⟩
  | parentCond amount since =>
    have hlt : since < c.conn.window.notified := not_le.mp hpoint
    rw [resumeChunk, wp_bind, wp_get, wp_when]
    exact ⟨fun _ => suspend_lowers howner (if_pos hlt) (consumeParent_waits _), fun h => absurd hlt h⟩
  | parent amount =>
    have hdebited : c.Waits ((c.debited amount).logged
        (.consumed (some c.self.streamId) c.self.streamId chunk.length amount)) :=
      ⟨rfl, rfl, (framesOf_append ..).trans (List.append_nil _), rfl⟩
    exact lowers_point howner hdebited (by decide : 1 < 2)
  | consume amount =>
    simp only [resumeChunk, wp_bind, wp_get, writeFrame_wp]
    split
    · trivial
    · split
      · trivial
      · exact writes_lowers howner rfl hfits
  | flush =>
    rw [resumeChunk, wp_bind, wp_get, wp_bind, wp_check]
    exact ⟨fun _ => rfl, fun _ => writeChunkLoop_lowers howner rfl⟩

end

theorem lowers_done {c' : Ctx} {job : Job}
    (hparent : c'.conn.window.notified = c.conn.window.notified)
    (hwork : c'.work toClient + job.work ≤ c.work toClient + 7) : c.Lowers toClient c' := by
  have hjob := job.work_pos
  exact ⟨hparent, .inl (by omega)⟩

theorem work_released {job : Job} {point : YieldPoint} (howner : c.self.writeLock.owner = .writer job point) :
    c.released.work toClient + job.work = c.work toClient := by
  have hwork := @work_withLock toClient c c.self.writeLock.release
  have hlock := WriteLock.release_work howner
  rw [Ctx.released]
  omega

theorem work_lost {job : Job} {point : YieldPoint} (howner : c.self.writeLock.owner = .writer job point) :
    (c.withOwner .lost).work toClient + job.work = c.work toClient := by
  have hwork := @work_withLock toClient c { c.self.writeLock with owner := .lost }
  have hlock : WriteLock.work { c.self.writeLock with owner := .lost } + job.work = c.self.writeLock.work := by
    rw [WriteLock.work_writer howner, add_comm]
    rfl
  rw [Ctx.withOwner]
  omega

theorem work_resets {c' : Ctx} (hr : c.Resets c') : c'.work toClient ≤ c.work toClient + 1 ∧
    c'.self = c.self ∧ c'.conn.window = c.conn.window := by
  rcases hr with rfl | rfl
  · exact ⟨Nat.le_add_right _ _, rfl, rfl⟩
  · exact ⟨work_logged.le, rfl, rfl⟩

theorem resumeEndStream_lowers {point : YieldPoint} (howner : c.self.writeLock.owner = .writer .endStream point)
    {E : PyException → Ctx → Prop} : wp resumeEndStream (fun _ => c.Lowers toClient) E c := by
  have hreleased {c' : Ctx} (hself : c'.self = c.self) (hwindow : c'.conn.window = c.conn.window)
      (hwork : c'.work toClient ≤ c.work toClient + 7) : c.Lowers toClient c'.released := by
    have hdone := @work_released c' toClient .endStream point (by rw [hself, howner])
    exact lowers_done (by rw [← hwindow]; rfl) (by omega : _ + Job.endStream.work ≤ _)
  have hfail : wp (catching reset fun _ => pure ()) (fun _ c' => c.Lowers toClient c'.released) E c := by
    refine tryReset_wp fun c' hr => ?_
    obtain ⟨hwork, hself, hwindow⟩ := @work_resets _ toClient _ hr
    exact hreleased hself hwindow (by omega)
  rw [wp_catching] at hfail
  simp only [resumeEndStream, wp_bind, wp_get, wp_catching, writeFrame_wp]
  split
  · exact hfail
  · split
    · exact hfail
    · have hwork : (c.logged (.wrote c.endStreamFrame)).work toClient = c.work toClient + 7 := work_logged
      exact @hreleased (c.logged (.wrote c.endStreamFrame)) rfl rfl hwork.le

/-- A slice of a writer that sleeps does nothing. -/
theorem resume_idle (h : c.self.writeLock.owner.Sleeps c.conn.window c.self.window) {flushed : Bool} :
    ((resume flushed).run c).2 = c := by
  refine (wp_state (P := fun c' : Ctx => c' = c)).mp ?_
  rw [resume, wp_bind, wp_get]
  rcases howner : c.self.writeLock.owner with _ | ⟨⟨chunk, callback⟩ | _, point⟩ | _
  · rfl
  · rw [howner] at h
    rw [wp_catching]
    cases point with
    | cond since =>
      rw [resumeChunk, wp_bind, wp_get, wp_when]
      exact ⟨fun hlt => absurd hlt (not_lt.mpr h), fun _ => rfl⟩
    | parentCond amount since =>
      rw [resumeChunk, wp_bind, wp_get, wp_when]
      exact ⟨fun hlt => absurd hlt (not_lt.mpr h), fun _ => rfl⟩
    | _ => exact absurd h id
  · rw [howner] at h
    exact absurd h id
  · rfl

/-- Whoever holds the lock has less to do after a slice, unless it sleeps. -/
theorem resume_lowers (hfits : PieceFits c.self.writeLock.owner c.self.window.size)
    (h : ¬ c.self.writeLock.owner.Sleeps c.conn.window c.self.window) {flushed : Bool} :
    c.Lowers toClient ((resume flushed).run c).2 := by
  refine wp_state.mp ?_
  rw [resume, wp_bind, wp_get]
  rcases howner : c.self.writeLock.owner with _ | ⟨⟨chunk, callback⟩ | _, point⟩ | _
  · exact absurd (howner ▸ trivial) h
  · rw [howner] at h
    rw [wp_catching]
    refine wp_mono (resumeChunk_lowers howner hfits h) (fun _ _ h => h) ?_
    rintro _ _ rfl
    rw [wp_bind, wp_setOwner]
    refine tryReset_wp fun c' hr => ?_
    obtain ⟨hwork, -, hwindow⟩ := @work_resets _ toClient _ hr
    have hlost := @work_lost _ toClient _ _ howner
    exact lowers_done (by rw [hwindow]; rfl) (by omega : _ + (Job.chunk chunk callback).work ≤ _)
  · exact resumeEndStream_lowers howner
  · exact absurd (howner ▸ trivial) h

end Stream

end TornadoHttp2
