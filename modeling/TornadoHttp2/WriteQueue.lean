import TornadoHttp2.State

/-! The queue of a write lock: its owner's job, then those of its waiters. -/

namespace TornadoHttp2

namespace Event

def isData : Event → Bool
  | wrote frame => frame.type = .data
  | _ => false

/-- A frame that ends the stream. -/
def isEnd : Event → Bool
  | wrote frame => (frame.type = .data || frame.type = .headers) && frame.has .endStream
  | _ => false

end Event

def Job.bytes : Job → Bytes
  | .chunk data _ => data
  | .endStream => []

/-- The jobs that need the lock, the owner's first. -/
def WriteLock.jobs (lock : WriteLock) : List Job :=
  match lock.owner with
  | .writer job _ => job :: lock.waiters
  | _ => lock.waiters

def WriteLock.pending (lock : WriteLock) : Bytes := lock.jobs.flatMap Job.bytes

/-- Only the last job may end the stream, and only once it is `closed`. -/
def EndsQueue (closed : Prop) (jobs : List Job) : Prop :=
  ∃ chunks, .endStream ∉ chunks ∧ (jobs = chunks ∨ closed ∧ jobs = chunks ++ [.endStream])

theorem WriteLock.jobs_writer {lock : WriteLock} {job : Job} {point : YieldPoint}
    (howner : lock.owner = .writer job point) : lock.jobs = job :: lock.waiters := by
  simp only [jobs, howner]

section

variable {closed : Prop}

theorem EndsQueue.tail {job : Job} {jobs : List Job} (h : EndsQueue closed (job :: jobs)) :
    EndsQueue closed jobs ∧ (job = .endStream → jobs = [] ∧ closed) := by
  obtain ⟨chunks, hchunks, rfl | ⟨hclosed, hjobs⟩⟩ := h
  · refine ⟨⟨jobs, fun h => hchunks (List.mem_cons_of_mem _ h), .inl rfl⟩, ?_⟩
    rintro rfl
    simp at hchunks
  · cases chunks with
    | nil =>
      obtain ⟨rfl, rfl⟩ := List.cons.inj hjobs
      exact ⟨⟨[], by simp, .inl rfl⟩, fun _ => ⟨rfl, hclosed⟩⟩
    | cons chunk chunks =>
      obtain ⟨rfl, rfl⟩ := List.cons.inj hjobs
      refine ⟨⟨chunks, fun h => hchunks (List.mem_cons_of_mem _ h), .inr ⟨hclosed, rfl⟩⟩, ?_⟩
      rintro rfl
      simp at hchunks

theorem EndsQueue.cons {chunk : Bytes} {callback : Option Nat} {jobs : List Job}
    (h : EndsQueue closed jobs) : EndsQueue closed (.chunk chunk callback :: jobs) := by
  obtain ⟨chunks, hchunks, h⟩ := h
  exact ⟨.chunk chunk callback :: chunks, by simpa using hchunks,
    h.imp (congrArg _) fun ⟨hclosed, hjobs⟩ => ⟨hclosed, congrArg _ hjobs⟩⟩

theorem EndsQueue.of_not {jobs : List Job} (h : EndsQueue closed jobs) (hopen : ¬ closed) :
    .endStream ∉ jobs := by
  obtain ⟨chunks, hchunks, rfl | ⟨hclosed, _⟩⟩ := h
  · exact hchunks
  · exact absurd hclosed hopen

end

/-- The lock once `job` has come to it. -/
def WriteLock.acquire (lock : WriteLock) (job : Job) : WriteLock :=
  if lock.owner = .free then { lock with owner := .writer job .lock }
  else { lock with waiters := lock.waiters ++ [job] }

theorem WriteLock.jobs_acquire {lock : WriteLock} {job : Job}
    (hfree : lock.owner = .free → lock.waiters = []) : (lock.acquire job).jobs = lock.jobs ++ [job] := by
  rw [acquire]
  split
  · rename_i howner
    simp [jobs, howner, hfree howner]
  · simp only [jobs]
    cases lock.owner <;> simp_all

theorem WriteLock.acquire_owner (lock : WriteLock) (job : Job) : (lock.acquire job).owner ≠ .free ∧
    ((lock.acquire job).owner = .lost ↔ lock.owner = .lost) := by
  rw [acquire]
  split <;> simp_all

theorem WriteLock.jobs_release {lock : WriteLock} {job : Job} {point : YieldPoint}
    (howner : lock.owner = .writer job point) : lock.jobs = job :: lock.release.jobs ∧
      lock.release.owner ≠ .lost ∧ (lock.release.owner = .free → lock.release.waiters = []) := by
  simp only [jobs, release, howner]
  rcases lock.waiters with _ | ⟨_, _⟩ <;> simp

end TornadoHttp2
