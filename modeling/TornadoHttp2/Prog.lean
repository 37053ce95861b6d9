import Mathlib.Logic.Basic
import Mathlib.Order.Defs.Unbundled

/-! Programs with exceptions over a mutable state. What was written before an
exception stays written, as in a language whose exceptions do not roll back.
`wp` is the weakest precondition with one postcondition for a normal return
and one for an exception; `Keeps` is the frame rule for a preorder on states. -/

structure Prog (σ ε α : Type) where
  run : σ → Except ε α × σ

namespace Prog

variable {σ ε α β : Type}

instance : Monad (Prog σ ε) where
  pure a := ⟨fun s => (.ok a, s)⟩
  bind m f := ⟨fun s =>
    match m.run s with
    | (.ok a, s') => (f a).run s'
    | (.error e, s') => (.error e, s')⟩

def get : Prog σ ε σ := ⟨fun s => (.ok s, s)⟩

def modify (f : σ → σ) : Prog σ ε Unit := ⟨fun s => (.ok (), f s)⟩

def raise (e : ε) : Prog σ ε α := ⟨fun s => (.error e, s)⟩

def when (c : Prop) [Decidable c] (m : Prog σ ε Unit) : Prog σ ε Unit := if c then m else pure ()

/-- Raise `e` if the test succeeds. -/
def check (c : Prop) [Decidable c] (e : ε) : Prog σ ε Unit := when c (raise e)

def ofExcept : Except ε α → Prog σ ε α
  | .ok a => pure a
  | .error e => raise e

/-- `try: m; except: handler(e)`. -/
def catching (m : Prog σ ε α) (handler : ε → Prog σ ε α) : Prog σ ε α := ⟨fun s =>
  match m.run s with
  | (.ok a, s') => (.ok a, s')
  | (.error e, s') => (handler e).run s'⟩

/-- Run a program on a part of the state. -/
def zoom {τ : Type} (part : σ → τ) (put : σ → τ → σ) (m : Prog τ ε α) : Prog σ ε α :=
  ⟨fun s => ((m.run (part s)).1, put s (m.run (part s)).2)⟩

@[simp] theorem run_pure (a : α) (s : σ) : (pure a : Prog σ ε α).run s = (.ok a, s) := rfl

@[simp] theorem run_get (s : σ) : (get : Prog σ ε σ).run s = (.ok s, s) := rfl

@[simp] theorem run_modify (f : σ → σ) (s : σ) :
    (modify f : Prog σ ε Unit).run s = (.ok (), f s) := rfl

@[simp] theorem run_raise (e : ε) (s : σ) : (raise e : Prog σ ε α).run s = (.error e, s) := rfl

@[simp] theorem run_zoom {τ : Type} (part : σ → τ) (put : σ → τ → σ) (m : Prog τ ε α) (s : σ) :
    (zoom part put m).run s = ((m.run (part s)).1, put s (m.run (part s)).2) := rfl

theorem run_bind (m : Prog σ ε α) (f : α → Prog σ ε β) (s : σ) :
    (m >>= f).run s = match m.run s with
      | (.ok a, s') => (f a).run s'
      | (.error e, s') => (.error e, s') := rfl

theorem bind_ok {m : Prog σ ε α} {s s' : σ} {a : α} (h : m.run s = (.ok a, s'))
    (f : α → Prog σ ε β) : (m >>= f).run s = (f a).run s' := by
  rw [run_bind, h]

theorem bind_error {m : Prog σ ε α} {s s' : σ} {e : ε} (h : m.run s = (.error e, s'))
    (f : α → Prog σ ε β) : (m >>= f).run s = (.error e, s') := by
  rw [run_bind, h]

/-- What does not raise adds nothing to the errors before it. -/
theorem bind_raises {m : Prog σ ε α} {f : α → Prog σ ε β} {s : σ} (hf : ∀ a s e, ((f a).run s).1 ≠ .error e) {e : ε} :
    ((m >>= f).run s).1 = .error e ↔ (m.run s).1 = .error e := by
  rw [run_bind]
  rcases m.run s with ⟨e' | a, s'⟩
  · simp
  · simp [hf a s' e]

theorem bind_assoc {γ : Type} (m : Prog σ ε α) (f : α → Prog σ ε β) (g : β → Prog σ ε γ) :
    (m >>= f) >>= g = m >>= fun a => f a >>= g := by
  refine congrArg Prog.mk (funext fun s => ?_)
  simp only [run_bind]
  rcases m.run s with ⟨_ | _, _⟩ <;> rfl

@[simp] theorem run_pure_bind (a : α) (f : α → Prog σ ε β) (s : σ) :
    (pure a >>= f).run s = (f a).run s := rfl

@[simp] theorem run_get_bind (f : σ → Prog σ ε β) (s : σ) : (get >>= f).run s = (f s).run s := rfl

@[simp] theorem run_modify_bind (g : σ → σ) (f : Unit → Prog σ ε β) (s : σ) :
    (modify g >>= f).run s = (f ()).run (g s) := rfl

theorem run_check_of_pos {c : Prop} [Decidable c] {e : ε} (h : c) (f : Unit → Prog σ ε α) (s : σ) :
    (check c e >>= f).run s = (.error e, s) := by
  rw [check, when, if_pos h]
  rfl

theorem run_check_of_neg {c : Prop} [Decidable c] {e : ε} (h : ¬ c) (f : Unit → Prog σ ε α) (s : σ) :
    (check c e >>= f).run s = (f ()).run s := by
  rw [check, when, if_neg h]
  rfl

/-! Weakest preconditions. -/

def wp (m : Prog σ ε α) (Q : α → σ → Prop) (E : ε → σ → Prop) (s : σ) : Prop :=
  match (m.run s).1 with
  | .ok a => Q a (m.run s).2
  | .error e => E e (m.run s).2

variable {Q : α → σ → Prop} {E : ε → σ → Prop} {s : σ}

theorem wp_congr {m m' : Prog σ ε α} {s' : σ} (h : m.run s = m'.run s') : wp m Q E s ↔ wp m' Q E s' := by
  rw [wp, wp, h]

theorem wp_of_ok {m : Prog σ ε α} {a : α} {s' : σ} (h : m.run s = (.ok a, s')) :
    wp m Q E s ↔ Q a s' := by rw [wp, h]

theorem wp_of_error {m : Prog σ ε α} {e : ε} {s' : σ} (h : m.run s = (.error e, s')) :
    wp m Q E s ↔ E e s' := by rw [wp, h]

@[simp] theorem wp_pure {a : α} : wp (pure a : Prog σ ε α) Q E s ↔ Q a s := Iff.rfl

@[simp] theorem wp_raise {e : ε} : wp (raise e : Prog σ ε α) Q E s ↔ E e s := Iff.rfl

@[simp] theorem wp_get {Q : σ → σ → Prop} : wp (get : Prog σ ε σ) Q E s ↔ Q s s := Iff.rfl

@[simp] theorem wp_modify {f : σ → σ} {Q : Unit → σ → Prop} :
    wp (modify f : Prog σ ε Unit) Q E s ↔ Q () (f s) := Iff.rfl

@[simp] theorem wp_bind {m : Prog σ ε α} {f : α → Prog σ ε β} {Q : β → σ → Prop} :
    wp (m >>= f) Q E s ↔ wp m (fun a => wp (f a) Q E) E s := by
  rcases h : m.run s with ⟨_ | _, s'⟩
  · rw [wp_of_error (bind_error h f), wp_of_error h]
  · rw [wp_of_ok h, wp, wp, bind_ok h f]

theorem wp_ite {c : Prop} [Decidable c] {m m' : Prog σ ε α} :
    wp (if c then m else m') Q E s ↔ (c → wp m Q E s) ∧ (¬ c → wp m' Q E s) := by
  split <;> simp [*]

@[simp] theorem wp_when {c : Prop} [Decidable c] {m : Prog σ ε Unit} {Q : Unit → σ → Prop} :
    wp (when c m) Q E s ↔ (c → wp m Q E s) ∧ (¬ c → Q () s) := wp_ite

@[simp] theorem wp_check {c : Prop} [Decidable c] {e : ε} {Q : Unit → σ → Prop} :
    wp (check c e : Prog σ ε Unit) Q E s ↔ (c → E e s) ∧ (¬ c → Q () s) := wp_when

theorem wp_check_of_pos {c : Prop} [Decidable c] {e : ε} {f : Unit → Prog σ ε α} (h : c) :
    wp (check c e >>= f) Q E s ↔ E e s := by
  rw [wp_bind, wp_check]
  exact ⟨fun hwp => hwp.1 h, fun he => ⟨fun _ => he, fun hn => absurd h hn⟩⟩

theorem wp_check_of_neg {c : Prop} [Decidable c] {e : ε} {f : Unit → Prog σ ε α} (h : ¬ c) :
    wp (check c e >>= f) Q E s ↔ wp (f ()) Q E s := by
  rw [wp_bind, wp_check]
  exact ⟨fun hwp => hwp.2 h, fun hf => ⟨fun hc => absurd hc h, fun _ => hf⟩⟩

theorem wp_when_of_pos {c : Prop} [Decidable c] {m : Prog σ ε Unit} {Q : Unit → σ → Prop} (h : c) :
    wp (when c m) Q E s ↔ wp m Q E s := by rw [when, if_pos h]

theorem wp_when_of_neg {c : Prop} [Decidable c] {m : Prog σ ε Unit} {Q : Unit → σ → Prop} (h : ¬ c) :
    wp (when c m) Q E s ↔ Q () s := by
  rw [when, if_neg h]
  exact wp_pure

theorem wp_ofExcept {r : Except ε α} : wp (ofExcept r) Q E s ↔ match r with
    | .ok a => Q a s
    | .error e => E e s := by
  cases r <;> exact Iff.rfl

@[simp] theorem wp_catching {m : Prog σ ε α} {handler : ε → Prog σ ε α} :
    wp (catching m handler) Q E s ↔ wp m Q (fun e => wp (handler e) Q E) s := by
  rcases h : m.run s with ⟨e | a, s'⟩
  · rw [wp_of_error h, wp, wp]
    simp only [catching, h]
  · rw [wp_of_ok h]
    exact wp_of_ok (by simp only [catching, h])

@[simp] theorem wp_zoom {τ : Type} {part : σ → τ} {put : σ → τ → σ} {m : Prog τ ε α} :
    wp (zoom part put m) Q E s ↔
      wp m (fun a t => Q a (put s t)) (fun e t => E e (put s t)) (part s) := Iff.rfl

/-- A specification serves every caller that needs less. -/
theorem wp_mono {m : Prog σ ε α} {Q' : α → σ → Prop} {E' : ε → σ → Prop} (h : wp m Q E s)
    (hQ : ∀ a s', Q a s' → Q' a s') (hE : ∀ e s', E e s' → E' e s') : wp m Q' E' s := by
  rcases hm : m.run s with ⟨e | a, s'⟩
  · exact (wp_of_error hm).mpr (hE e s' ((wp_of_error hm).mp h))
  · exact (wp_of_ok hm).mpr (hQ a s' ((wp_of_ok hm).mp h))

theorem wp_and {m : Prog σ ε α} {Q' : α → σ → Prop} {E' : ε → σ → Prop} (h : wp m Q E s)
    (h' : wp m Q' E' s) : wp m (fun a t => Q a t ∧ Q' a t) (fun e t => E e t ∧ E' e t) s := by
  rcases hm : m.run s with ⟨e | a, s'⟩
  · exact (wp_of_error hm).mpr ⟨(wp_of_error hm).mp h, (wp_of_error hm).mp h'⟩
  · exact (wp_of_ok hm).mpr ⟨(wp_of_ok hm).mp h, (wp_of_ok hm).mp h'⟩

/-- What holds however the program ends holds of the state it leaves. -/
theorem wp_state {P : σ → Prop} {m : Prog σ ε α} {s : σ} :
    wp m (fun _ => P) (fun _ => P) s ↔ P (m.run s).2 := by
  rcases h : m.run s with ⟨e | a, s'⟩
  · exact wp_of_error h
  · exact wp_of_ok h

/-- A property of how the program ends, its result included. -/
theorem wp_result {P : Except ε α → σ → Prop} {m : Prog σ ε α} {s : σ} :
    wp m (fun a => P (.ok a)) (fun e => P (.error e)) s ↔ P (m.run s).1 (m.run s).2 := by
  rcases h : m.run s with ⟨e | a, s'⟩
  · exact wp_of_error h
  · exact wp_of_ok h

/-! Frame rules: from a state of `I`, however the program ends, it ends in a
state of `I` that `R` relates to the first one. -/

def Keeps (I : σ → Prop) (R : σ → σ → Prop) (m : Prog σ ε α) : Prop :=
  ∀ s, I s → I (m.run s).2 ∧ R s (m.run s).2

/-- The relation of rules that are about the invariant alone. -/
def Anything (_ _ : σ) : Prop := True

instance : Std.Refl (Anything (σ := σ)) := ⟨fun _ => trivial⟩

instance : IsTrans σ Anything := ⟨fun _ _ _ _ _ => trivial⟩

namespace Keeps

variable {I : σ → Prop} {R : σ → σ → Prop} {m : Prog σ ε α}

theorem iff_wp : Keeps I R m ↔
    ∀ s, I s → wp m (fun _ s' => I s' ∧ R s s') (fun _ s' => I s' ∧ R s s') s :=
  forall_congr' fun s => imp_congr_right fun _ =>
    (wp_state (P := fun s' => I s' ∧ R s s')).symm

theorem mono {R' : σ → σ → Prop} (h : Keeps I R m) (hR : ∀ s s', R s s' → R' s s') :
    Keeps I R' m := fun s hs => ⟨(h s hs).1, hR _ _ (h s hs).2⟩

theorem wp (h : Keeps I R m) {Q : α → σ → Prop} {E : ε → σ → Prop} {s : σ} (hs : I s)
    (hQ : ∀ a s', I s' → R s s' → Q a s') (hE : ∀ e s', I s' → R s s' → E e s') : Prog.wp m Q E s :=
  wp_mono (iff_wp.mp h s hs) (fun a s' h => hQ a s' h.1 h.2) fun e s' h => hE e s' h.1 h.2

theorem bind [IsTrans σ R] {f : α → Prog σ ε β} (hm : Keeps I R m) (hf : ∀ a, Keeps I R (f a)) :
    Keeps I R (m >>= f) := by
  intro s hs
  obtain ⟨hi, hr⟩ := hm s hs
  rcases hrun : m.run s with ⟨e | a, s'⟩ <;> rw [hrun] at hi hr
  · rw [bind_error hrun]
    exact ⟨hi, hr⟩
  · rw [bind_ok hrun]
    exact ⟨(hf a s' hi).1, IsTrans.trans _ _ _ hr (hf a s' hi).2⟩

/-- What is read satisfies the invariant. -/
theorem get_bind {f : σ → Prog σ ε α} (h : ∀ s, I s → Keeps I R (f s)) :
    Keeps I R (Prog.get >>= f) := fun s hs => h s hs s hs

theorem pure [Std.Refl R] (a : α) : Keeps I R (Pure.pure a : Prog σ ε α) := fun s hs => ⟨hs, refl s⟩

theorem raise [Std.Refl R] (e : ε) : Keeps I R (Prog.raise e : Prog σ ε α) := fun s hs => ⟨hs, refl s⟩

theorem modify {f : σ → σ} (h : ∀ s, I s → I (f s) ∧ R s (f s)) :
    Keeps I R (Prog.modify f : Prog σ ε Unit) := h

theorem ofExcept [Std.Refl R] (r : Except ε α) : Keeps I R (Prog.ofExcept r : Prog σ ε α) := by
  cases r with
  | ok a => exact pure a
  | error e => exact raise e

theorem ite {c : Prop} [Decidable c] {m' : Prog σ ε α} (h : c → Keeps I R m)
    (h' : ¬ c → Keeps I R m') : Keeps I R (if c then m else m') := by
  split
  · exact h ‹_›
  · exact h' ‹_›

theorem when [Std.Refl R] {c : Prop} [Decidable c] {m : Prog σ ε Unit} (h : c → Keeps I R m) :
    Keeps I R (Prog.when c m) := ite h fun _ => pure ()

theorem check [Std.Refl R] {c : Prop} [Decidable c] {e : ε} :
    Keeps I R (Prog.check c e : Prog σ ε Unit) := when fun _ => raise e

theorem catching [IsTrans σ R] {handler : ε → Prog σ ε α} (hm : Keeps I R m)
    (hh : ∀ e, Keeps I R (handler e)) : Keeps I R (Prog.catching m handler) := by
  intro s hs
  obtain ⟨hi, hr⟩ := hm s hs
  rcases hrun : m.run s with ⟨e | a, s'⟩ <;> rw [hrun] at hi hr <;> simp only [Prog.catching, hrun]
  · exact ⟨(hh e s' hi).1, IsTrans.trans _ _ _ hr (hh e s' hi).2⟩
  · exact ⟨hi, hr⟩

end Keeps

/-! Programs that neither read nor write a part of the state, which `put` replaces. -/

def Ignores {τ : Type} (put : τ → σ → σ) (m : Prog σ ε α) : Prop :=
  ∀ t s, m.run (put t s) = ((m.run s).1, put t (m.run s).2)

namespace Ignores

variable {τ : Type} {put : τ → σ → σ} {m : Prog σ ε α}

theorem pure (a : α) : Ignores put (Pure.pure a : Prog σ ε α) := fun _ _ => rfl

theorem raise (e : ε) : Ignores put (Prog.raise e : Prog σ ε α) := fun _ _ => rfl

theorem bind {f : α → Prog σ ε β} (hm : Ignores put m) (hf : ∀ a, Ignores put (f a)) :
    Ignores put (m >>= f) := by
  intro t s
  have hput := hm t s
  rcases hrun : m.run s with ⟨e | a, s'⟩ <;> rw [hrun] at hput
  · rw [bind_error hrun, bind_error hput]
  · rw [bind_ok hrun, bind_ok hput]
    exact hf a t s'

theorem get_bind {f : σ → Prog σ ε α} (hf : ∀ t s, f (put t s) = f s) (h : ∀ s, Ignores put (f s)) :
    Ignores put (Prog.get >>= f) := fun t s => by
  rw [run_get_bind, run_get_bind, hf]
  exact h s t s

theorem ofExcept (r : Except ε α) : Ignores put (Prog.ofExcept r : Prog σ ε α) := by
  cases r with
  | ok a => exact pure a
  | error e => exact raise e

theorem ite {c : Prop} [Decidable c] {m' : Prog σ ε α} (h : Ignores put m) (h' : Ignores put m') :
    Ignores put (if c then m else m') := by
  split
  · exact h
  · exact h'

theorem when {c : Prop} [Decidable c] {m : Prog σ ε Unit} (h : Ignores put m) : Ignores put (Prog.when c m) :=
  ite h (pure ())

theorem check {c : Prop} [Decidable c] {e : ε} : Ignores put (Prog.check c e : Prog σ ε Unit) := when (raise e)

theorem catching {handler : ε → Prog σ ε α} (hm : Ignores put m) (hh : ∀ e, Ignores put (handler e)) :
    Ignores put (Prog.catching m handler) := by
  intro t s
  have hput := hm t s
  rcases hrun : m.run s with ⟨e | a, s'⟩ <;> rw [hrun] at hput <;> simp only [Prog.catching, hrun, hput]
  exact hh e t s'

end Ignores

/-! What a program can raise. -/

def Raises (P : ε → Prop) (m : Prog σ ε α) : Prop := ∀ s, wp m (fun _ _ => True) (fun e _ => P e) s

namespace Raises

variable {P : ε → Prop} {m : Prog σ ε α}

theorem error (h : Raises P m) {s : σ} {e : ε} (he : (m.run s).1 = .error e) : P e :=
  (wp_of_error (Prod.ext he rfl)).mp (h s)

theorem mono {P' : ε → Prop} (h : Raises P m) (hP : ∀ e, P e → P' e) : Raises P' m := fun s =>
  wp_mono (h s) (fun _ _ _ => trivial) fun e _ => hP e

theorem pure (a : α) : Raises P (Pure.pure a : Prog σ ε α) := fun _ => trivial

theorem get : Raises P (Prog.get : Prog σ ε σ) := fun _ => trivial

theorem modify {f : σ → σ} : Raises P (Prog.modify f : Prog σ ε Unit) := fun _ => trivial

theorem raise {e : ε} (h : P e) : Raises P (Prog.raise e : Prog σ ε α) := fun _ => h

theorem bind {f : α → Prog σ ε β} (hm : Raises P m) (hf : ∀ a, Raises P (f a)) :
    Raises P (m >>= f) := fun s =>
  wp_bind.mpr (wp_mono (hm s) (fun a s' _ => hf a s') fun _ _ h => h)

theorem get_bind {f : σ → Prog σ ε β} (hf : ∀ s, Raises P (f s)) : Raises P (Prog.get >>= f) := bind get hf

theorem ofExcept_bind {r : Except ε α} {f : α → Except ε β}
    (hr : Raises P (Prog.ofExcept r : Prog σ ε α))
    (hf : ∀ a, Raises P (Prog.ofExcept (f a) : Prog σ ε β)) :
    Raises P (Prog.ofExcept (r >>= f) : Prog σ ε β) := by
  cases r with
  | ok a => exact hf a
  | error e => exact fun s => hr s

theorem ite {c : Prop} [Decidable c] {m' : Prog σ ε α} (h : Raises P m) (h' : Raises P m') :
    Raises P (if c then m else m') := by split <;> assumption

theorem when {c : Prop} [Decidable c] {m : Prog σ ε Unit} (h : Raises P m) : Raises P (Prog.when c m) :=
  ite h (pure ())

theorem check {c : Prop} [Decidable c] {e : ε} (h : P e) : Raises P (Prog.check c e : Prog σ ε Unit) :=
  when (raise h)

theorem catching {P' : ε → Prop} {handler : ε → Prog σ ε α} (hm : Raises P' m)
    (hh : ∀ e, P' e → Raises P (handler e)) : Raises P (Prog.catching m handler) := fun s =>
  wp_catching.mpr (wp_mono (hm s) (fun _ _ _ => trivial) fun e s' h => hh e h s')

theorem zoom {τ : Type} {part : σ → τ} {put : σ → τ → σ} {m : Prog τ ε α} (h : Raises P m) :
    Raises P (Prog.zoom part put m) := fun s => wp_zoom.mpr (h (part s))

end Raises

/-! What holds whenever a program returns. -/

def Returns (Q : α → σ → Prop) (m : Prog σ ε α) : Prop := ∀ s, wp m Q (fun _ _ => True) s

namespace Returns

variable {Q : α → σ → Prop} {m : Prog σ ε α}

theorem of_ok (h : Returns Q m) {s s' : σ} {a : α} (hrun : m.run s = (.ok a, s')) : Q a s' :=
  (wp_of_ok hrun).mp (h s)

theorem pure {a : α} (h : ∀ s, Q a s) : Returns Q (Pure.pure a : Prog σ ε α) := h

/-- Only the last part of a program matters. -/
theorem bind {Q : β → σ → Prop} {f : α → Prog σ ε β} (hf : ∀ a, Returns Q (f a)) : Returns Q (m >>= f) := fun _ =>
  wp_bind.mpr (wp_mono ((wp_state (P := fun _ => True)).mpr trivial) (fun a s' _ => hf a s') fun _ _ _ => trivial)

theorem ite {c : Prop} [Decidable c] {m' : Prog σ ε α} (h : Returns Q m) (h' : Returns Q m') :
    Returns Q (if c then m else m') := by
  split
  · exact h
  · exact h'

end Returns

end Prog
