import Mathlib.Data.List.Basic

/-! Runs of a transition function: the states that a list of actions leads
through, conditions on the steps of a run, and the invariant rule. -/

namespace Runs

variable {σ α : Type} {step : σ → α → σ} {ok : σ → α → Prop} {I : σ → Prop}

/-- Every action of the run satisfies `ok` in the state in which it is taken. -/
def Along (step : σ → α → σ) (ok : σ → α → Prop) : σ → List α → Prop
  | _, [] => True
  | s, a :: as => ok s a ∧ Along step ok (step s a) as

instance Along.decidable [∀ s a, Decidable (ok s a)] :
    (s : σ) → (as : List α) → Decidable (Along step ok s as)
  | _, [] => isTrue trivial
  | s, a :: as => @instDecidableAnd _ _ _ (Along.decidable (step s a) as)

theorem along_append {as bs : List α} {s : σ} : Along step ok s (as ++ bs) ↔
    Along step ok s as ∧ Along step ok (as.foldl step s) bs := by
  induction as generalizing s with
  | nil => simp [Along]
  | cons a as ih => simp only [List.cons_append, Along, ih, List.foldl_cons, and_assoc]

/-- A condition may use what every permitted step preserves. -/
theorem Along.mono {ok' : σ → α → Prop} (hI : ∀ s a, I s → ok s a → I (step s a))
    (hok : ∀ s a, I s → ok s a → ok' s a) {as : List α} {s : σ} (hs : I s) (h : Along step ok s as) :
    Along step ok' s as := by
  induction as generalizing s with
  | nil => trivial
  | cons a as ih => exact ⟨hok s a hs h.1, ih (hI s a hs h.1) h.2⟩

/-- What every permitted step preserves holds at the end of a permitted run. -/
theorem invariant (hstep : ∀ s a, I s → ok s a → I (step s a)) {as : List α} {s : σ} (h : I s)
    (hrun : Along step ok s as) : I (as.foldl step s) := by
  induction as generalizing s with
  | nil => exact h
  | cons a as ih => exact ih (hstep s a h hrun.1) hrun.2

/-- Two conditions that agree as long as they hold. -/
theorem along_congr {ok' : σ → α → Prop} (hI : ∀ s a, I s → ok' s a → I (step s a))
    (hok : ∀ s a, I s → (ok s a ↔ ok' s a)) {as : List α} {s : σ} (h : I s) :
    Along step ok s as ↔ Along step ok' s as := by
  induction as generalizing s with
  | nil => rfl
  | cons a as ih =>
    rw [Along, Along, hok s a h]
    exact and_congr_right fun ha => ih (hI s a h ha)

theorem along_forall {p : α → Prop} {as : List α} {s : σ} :
    Along step (fun _ a => p a) s as ↔ ∀ a ∈ as, p a := by
  induction as generalizing s with
  | nil => simp [Along]
  | cons a as ih => rw [Along, ih, List.forall_mem_cons]

/-- A property that a step gains or loses exactly with `ok` holds at the end of
exactly the permitted runs. -/
theorem along_iff {P : σ → Prop} (hI : ∀ s a, I s → I (step s a))
    (hstep : ∀ s a, I s → (P (step s a) ↔ P s ∧ ok s a)) {as : List α} {s : σ} (h : I s) :
    P (as.foldl step s) ↔ P s ∧ Along step ok s as := by
  induction as generalizing s with
  | nil => simp [Along]
  | cons a as ih => rw [List.foldl_cons, ih (hI s a h), hstep s a h, Along, and_assoc]

end Runs
