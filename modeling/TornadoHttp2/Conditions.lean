import Mathlib.Data.Nat.Basic

/-! Condition variables. A waiter notes how often all waiters have been notified
when its test fails, and goes on once that has happened again; nobody waits in
vain as long as every change that could make the test succeed notifies. -/

namespace Conditions

variable {σ : Type} {notified : σ → Nat} {blocked : σ → Prop}

/-- Who has waited since the count was `since` is about to be woken, or its test
would fail again. -/
structure Waits (notified : σ → Nat) (blocked : σ → Prop) (since : Nat) (s : σ) : Prop where
  le : since ≤ notified s
  blocked : since = notified s → blocked s

/-- A change of the state that wakes the waiters if it ends the wait. -/
structure Notifies (notified : σ → Nat) (blocked : σ → Prop) (s s' : σ) : Prop where
  le : notified s ≤ notified s'
  blocked : notified s = notified s' → blocked s → blocked s'

instance : Std.Refl (Notifies notified blocked) := ⟨fun _ => ⟨Nat.le_refl _, fun _ => id⟩⟩

instance : IsTrans σ (Notifies notified blocked) where
  trans s s' s'' h h' := by
    refine ⟨Nat.le_trans h.le h'.le, fun heq hs => ?_⟩
    have hsame : notified s = notified s' := Nat.le_antisymm h.le (heq ▸ h'.le)
    exact h'.blocked (hsame ▸ heq) (h.blocked hsame hs)

theorem Waits.start {s : σ} (h : blocked s) : Waits notified blocked (notified s) s := ⟨Nat.le_refl _, fun _ => h⟩

theorem Waits.change {since : Nat} {s s' : σ} (h : Waits notified blocked since s)
    (hs : Notifies notified blocked s s') :
    Waits notified blocked since s' := by
  refine ⟨Nat.le_trans h.le hs.le, fun heq => ?_⟩
  have hsame : notified s = notified s' := Nat.le_antisymm hs.le (heq ▸ h.le)
  exact hs.blocked hsame (h.blocked (heq.trans hsame.symm))

/-- A change that notifies may do anything else besides. -/
theorem Notifies.of_lt {s s' : σ} (h : notified s < notified s') : Notifies notified blocked s s' :=
  ⟨Nat.le_of_lt h, fun heq => absurd heq (Nat.ne_of_lt h)⟩

theorem Notifies.of_not_blocked {s s' : σ} (hle : notified s ≤ notified s') (h : ¬ blocked s) :
    Notifies notified blocked s s' := ⟨hle, fun _ hs => absurd hs h⟩

end Conditions
