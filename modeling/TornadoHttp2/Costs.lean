import TornadoHttp2.Prog

/-! How much a program may add to a measure of its state. -/

namespace Prog

variable {σ ε α β : Type}

/-- From a state of `I`, however the program ends, it adds no more than `k` to `f`. -/
def Adds (I : σ → Prop) (f : σ → Nat) (k : Nat) (m : Prog σ ε α) : Prop :=
  ∀ s, I s → I (m.run s).2 ∧ f (m.run s).2 ≤ f s + k

namespace Adds

variable {I : σ → Prop} {f : σ → Nat} {k k' : Nat} {m : Prog σ ε α}

theorem mono (h : Adds I f k m) (hk : k ≤ k') : Adds I f k' m := fun s hs =>
  ⟨(h s hs).1, Nat.le_trans (h s hs).2 (Nat.add_le_add_left hk _)⟩

/-- What leaves the measure alone adds nothing. -/
theorem of_keeps {R : σ → σ → Prop} (h : Keeps I R m) (hR : ∀ s s', R s s' → f s' = f s) : Adds I f 0 m := fun s hs =>
  ⟨(h s hs).1, Nat.le_of_eq (hR s _ (h s hs).2)⟩

theorem bind {g : α → Prog σ ε β} (hm : Adds I f k m) (hg : ∀ a, Adds I f k' (g a)) : Adds I f (k + k') (m >>= g) := by
  intro s hs
  obtain ⟨hi, hle⟩ := hm s hs
  rcases hrun : m.run s with ⟨e | a, s'⟩ <;> rw [hrun] at hi hle
  · rw [bind_error hrun]
    exact ⟨hi, Nat.le_trans hle (by omega)⟩
  · rw [bind_ok hrun]
    obtain ⟨hi', hle'⟩ := hg a s' hi
    replace hle : f s' ≤ f s + k := hle
    exact ⟨hi', Nat.le_trans hle' (by omega)⟩

theorem get_bind {g : σ → Prog σ ε α} (h : ∀ s, I s → Adds I f k (g s)) : Adds I f k (Prog.get >>= g) :=
    fun s hs => h s hs s hs

theorem raise (e : ε) : Adds I f k (Prog.raise e : Prog σ ε α) := fun _ hs => ⟨hs, Nat.le_add_right _ _⟩

theorem pure (a : α) : Adds I f k (Pure.pure a : Prog σ ε α) := fun _ hs => ⟨hs, Nat.le_add_right _ _⟩

theorem ite {c : Prop} [Decidable c] {m' : Prog σ ε α} (h : c → Adds I f k m) (h' : ¬ c → Adds I f k m') :
    Adds I f k (if c then m else m') := by
  split
  · exact h ‹_›
  · exact h' ‹_›

theorem when {c : Prop} [Decidable c] {m : Prog σ ε Unit} (h : c → Adds I f k m) : Adds I f k (Prog.when c m) :=
  ite h fun _ => pure ()

theorem check_bind {c : Prop} [Decidable c] {e : ε} {g : Unit → Prog σ ε α} (h : Adds I f k (g ())) :
    Adds I f k (Prog.check c e >>= g) := by
  have hcheck : Adds I f 0 (Prog.check c e : Prog σ ε Unit) := when fun _ => raise e
  exact (Nat.zero_add k) ▸ hcheck.bind fun _ => h

theorem ofExcept_bind {r : Except ε α} {g : α → Prog σ ε β} (h : ∀ a, r = .ok a → Adds I f k (g a)) :
    Adds I f k (Prog.ofExcept r >>= g) := by
  cases r with
  | ok a => exact h a rfl
  | error e => exact fun _ hs => ⟨hs, Nat.le_add_right _ _⟩

/-- The first part adds nothing. -/
theorem after {g : α → Prog σ ε β} (hm : Adds I f 0 m) (hg : ∀ a, Adds I f k (g a)) : Adds I f k (m >>= g) :=
  (Nat.zero_add k) ▸ hm.bind hg

end Adds

end Prog
