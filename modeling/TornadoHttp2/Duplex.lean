import Mathlib.Data.Bool.Basic
import Mathlib.Data.List.Basic
import Mathlib.Data.List.Induction
import Mathlib.Logic.Function.Basic

/-! Two parties that exchange messages over a link that loses nothing and keeps the
order in each direction. What one party has taken is a part of what the other has
sent, and either party takes the steps that it could take alone. -/

namespace Duplex

/-- A party, with the history that it keeps of the messages it has sent and taken.
One that no longer listens never does again; the last message may make it stop
before it counts as taken. -/
structure Party (σ α μ ι : Type) where
  step : σ → α → σ
  isOwn : α → Bool
  arrival : μ → ι → α
  sent : σ → List μ
  taken : σ → List μ
  listens : σ → Bool
  Inv : σ → Prop
  inv_step {s : σ} (a : α) : Inv s → Inv (step s a)
  sent_step {s : σ} (a : α) : Inv s → sent s <+: sent (step s a)
  taken_own {s : σ} {a : α} : Inv s → isOwn a = true → taken (step s a) = taken s
  taken_arrival {s : σ} (m : μ) (i : ι) : Inv s → listens s = true →
    taken (step s (arrival m i)) = taken s ++ [m] ∨
      taken (step s (arrival m i)) = taken s ∧ listens (step s (arrival m i)) = false
  listens_step {s : σ} (a : α) : Inv s → listens (step s a) = true → listens s = true

/-- The parties, and the messages on their way to each of them. -/
structure Net (σ μ : Type) where
  ends : Bool → σ
  wire : Bool → List μ

/-- A party does something of its own, or the next message reaches a party. -/
inductive Action (α ι : Type)
  | act (party : Bool) (a : α)
  | deliver (party : Bool) (i : ι)
  deriving DecidableEq, Repr

variable {σ α μ ι : Type} (p : Party σ α μ ι)

namespace Net

/-- One party takes a step, and what it sends is on its way. -/
def perform (n : Net σ μ) (b : Bool) (a : α) : Net σ μ where
  ends := Function.update n.ends b (p.step (n.ends b) a)
  wire := Function.update n.wire (!b) (n.wire (!b) ++ (p.sent (p.step (n.ends b) a)).drop (p.sent (n.ends b)).length)

def pop (n : Net σ μ) (b : Bool) : Net σ μ := { n with wire := Function.update n.wire b (n.wire b).tail }

def step (n : Net σ μ) : Action α ι → Net σ μ
  | .act b a => if p.isOwn a then n.perform p b a else n
  | .deliver b i =>
    match n.wire b with
    | [] => n
    | m :: _ => if p.listens (n.ends b) then (n.pop b).perform p b (p.arrival m i) else n

def run (n : Net σ μ) (actions : List (Action α ι)) : Net σ μ := actions.foldl (step p) n

/-- What the parties have sent before anything else is on its way. -/
def start (s : Bool → σ) : Net σ μ := ⟨s, fun b => p.sent (s (!b))⟩

end Net

/-- What a party has taken, what it refused when it stopped listening, and what is
on its way to it is what the other has sent. -/
structure Carries (n : Net σ μ) (b : Bool) : Prop where
  history : ∃ refused, p.taken (n.ends b) ++ refused ++ n.wire b = p.sent (n.ends !b) ∧
    (p.listens (n.ends b) = true → refused = [])

structure Sound (n : Net σ μ) : Prop where
  inv (b : Bool) : p.Inv (n.ends b)
  carries (b : Bool) : Carries p n b

variable {p} {n : Net σ μ} {b : Bool}

@[simp] theorem perform_ends {a : α} : (n.perform p b a).ends b = p.step (n.ends b) a := Function.update_self ..

@[simp] theorem perform_ends_not {a : α} : (n.perform p b a).ends (!b) = n.ends (!b) :=
    Function.update_of_ne (by simp) ..

@[simp] theorem perform_wire {a : α} : (n.perform p b a).wire b = n.wire b := Function.update_of_ne (by simp) ..

@[simp] theorem perform_wire_not {a : α} : (n.perform p b a).wire (!b) =
    n.wire (!b) ++ (p.sent (p.step (n.ends b) a)).drop (p.sent (n.ends b)).length := Function.update_self ..

@[simp] theorem pop_ends : (n.pop b).ends = n.ends := rfl

@[simp] theorem pop_wire : (n.pop b).wire b = (n.wire b).tail := Function.update_self ..

@[simp] theorem pop_wire_not : (n.pop b).wire (!b) = n.wire (!b) := Function.update_of_ne (by simp) ..

theorem Carries.in_order (h : Carries p n b) : p.taken (n.ends b) <+: p.sent (n.ends !b) := by
  obtain ⟨refused, heq, -⟩ := h.history
  rw [← heq, List.append_assoc]
  exact List.prefix_append ..

/-- While a party listens, only what is on its way is missing. -/
theorem Carries.all (h : Carries p n b) (hl : p.listens (n.ends b) = true) :
    p.taken (n.ends b) ++ n.wire b = p.sent (n.ends !b) := by
  obtain ⟨refused, heq, hnone⟩ := h.history
  rwa [hnone hl, List.append_nil] at heq

/-- What a party sends follows on what is already on its way. -/
theorem Carries.perform_not (hinv : p.Inv (n.ends b)) (h : Carries p n (!b)) (a : α) :
    Carries p (n.perform p b a) (!b) := by
  obtain ⟨refused, heq, hnone⟩ := h.history
  obtain ⟨more, hmore⟩ := p.sent_step a hinv
  rw [Bool.not_not] at heq
  refine ⟨refused, ?_, by rwa [perform_ends_not]⟩
  rw [perform_ends_not, perform_wire_not, Bool.not_not, perform_ends, ← List.append_assoc, heq, ← hmore, List.drop_left]

theorem Sound.of_both {n' : Net σ μ} (b : Bool) (hinv : p.Inv (n'.ends b)) (hinv' : p.Inv (n'.ends !b))
    (h : Carries p n' b) (h' : Carries p n' (!b)) : Sound p n' := by
  refine ⟨fun c => ?_, fun c => ?_⟩ <;> rcases Bool.eq_or_eq_not c b with rfl | rfl <;> assumption

theorem Sound.act (h : Sound p n) (b : Bool) {a : α} (ha : p.isOwn a = true) : Sound p (n.perform p b a) := by
  refine .of_both b ?_ ?_ ⟨?_⟩ (.perform_not (h.inv b) (h.carries (!b)) a)
  · rw [perform_ends]
    exact p.inv_step a (h.inv b)
  · rw [perform_ends_not]
    exact h.inv (!b)
  · obtain ⟨refused, heq, hnone⟩ := (h.carries b).history
    rw [perform_ends, perform_ends_not, perform_wire, p.taken_own (h.inv b) ha]
    exact ⟨refused, heq, fun hl => hnone (p.listens_step a (h.inv b) hl)⟩

theorem Sound.deliver (h : Sound p n) (b : Bool) {m : μ} {rest : List μ} (hwire : n.wire b = m :: rest)
    (hl : p.listens (n.ends b) = true) (i : ι) : Sound p ((n.pop b).perform p b (p.arrival m i)) := by
  have hsplit := (h.carries b).all hl
  have hinv := h.inv b
  have hpop : Carries p (n.pop b) (!b) := by
    obtain ⟨refused, heq, hnone⟩ := (h.carries (!b)).history
    refine ⟨refused, ?_, hnone⟩
    rwa [pop_wire_not]
  refine .of_both b ?_ ?_ ⟨?_⟩ (@Carries.perform_not _ _ _ _ p (n.pop b) b hinv hpop _)
  · rw [perform_ends]
    exact p.inv_step _ hinv
  · rw [perform_ends_not]
    exact h.inv (!b)
  · rw [perform_ends, perform_ends_not, perform_wire, pop_wire, pop_ends, hwire, List.tail_cons]
    rw [hwire] at hsplit
    rcases p.taken_arrival m i hinv hl with htaken | ⟨htaken, hstops⟩
    · exact ⟨[], by rw [htaken, List.append_nil, List.append_assoc]; exact hsplit, fun _ => rfl⟩
    · exact ⟨[m], by rw [htaken, List.append_assoc]; exact hsplit, fun hl => by rw [hstops] at hl; cases hl⟩

theorem Sound.step (h : Sound p n) (a : Action α ι) : Sound p (n.step p a) := by
  cases a with
  | act b a =>
    rw [Net.step]
    split
    · exact h.act b ‹_›
    · exact h
  | deliver b i =>
    rw [Net.step]
    cases hwire : n.wire b with
    | nil => exact h
    | cons m rest =>
      dsimp only
      split
      · exact h.deliver b hwire ‹_› i
      · exact h

/-- Nothing is lost, made up or reordered, whatever the parties do. -/
theorem Sound.run (h : Sound p n) (actions : List (Action α ι)) : Sound p (n.run p actions) :=
  actions.foldlRecOn (Net.step p) h fun _ h a _ => h.step a

theorem Sound.start {s : Bool → σ} (hinv : ∀ b, p.Inv (s b)) (hnone : ∀ b, p.taken (s b) = []) :
    Sound p (Net.start p s) where
  inv := hinv
  carries b := ⟨[], by rw [Net.start, hnone]; simp, fun _ => rfl⟩

/-- What can happen to one of the ends. -/
inductive Moved (p : Party σ α μ ι) (n : Net σ μ) (b : Bool) : σ → Prop
  | still : Moved p n b (n.ends b)
  | acted {a : α} (ha : p.isOwn a = true) : Moved p n b (p.step (n.ends b) a)
  | delivered {m : μ} {rest : List μ} (i : ι) (hwire : n.wire b = m :: rest) (hl : p.listens (n.ends b) = true) :
    Moved p n b (p.step (n.ends b) (p.arrival m i))

/-- Only one of the ends takes a step. -/
theorem step_moved (n : Net σ μ) (a : Action α ι) :
    ∃ b, Moved p n b ((n.step p a).ends b) ∧ (n.step p a).ends (!b) = n.ends (!b) := by
  cases a with
  | act b a =>
    rw [Net.step]
    split
    · exact ⟨b, by rw [perform_ends]; exact .acted ‹_›, perform_ends_not⟩
    · exact ⟨b, .still, rfl⟩
  | deliver b i =>
    rw [Net.step]
    cases hwire : n.wire b with
    | nil => exact ⟨b, .still, rfl⟩
    | cons m rest =>
      dsimp only
      split
      · exact ⟨b, by rw [perform_ends, pop_ends]; exact .delivered i hwire ‹_›, perform_ends_not⟩
      · exact ⟨b, .still, rfl⟩

theorem moved_step (n : Net σ μ) (a : Action α ι) (b : Bool) : Moved p n b ((n.step p a).ends b) := by
  obtain ⟨c, hmoved, hother⟩ := @step_moved _ _ _ _ p n a
  rcases Bool.eq_or_eq_not b c with rfl | rfl
  · exact hmoved
  · rw [hother]
    exact .still

/-- What can happen to an end alone can happen in the net. -/
theorem Moved.run {s : σ} (h : Moved p n b s) :
    ∃ more : List (Action α ι), (n.run p more).ends b = s ∧ (n.run p more).ends (!b) = n.ends (!b) := by
  cases h with
  | still => exact ⟨[], rfl, rfl⟩
  | @acted a ha =>
    have hrun : n.run p [.act b a] = n.perform p b a := if_pos ha
    exact ⟨[.act b a], by rw [hrun, perform_ends], by rw [hrun, perform_ends_not]⟩
  | @delivered m rest i hwire hl =>
    have hrun : n.run p [.deliver b i] = (n.pop b).perform p b (p.arrival m i) := by
      rw [Net.run, List.foldl_cons, List.foldl_nil, Net.step, hwire]
      exact if_pos hl
    exact ⟨[.deliver b i], by rw [hrun, perform_ends, pop_ends], by rw [hrun, perform_ends_not, pop_ends]⟩

theorem run_append (n : Net σ μ) (actions more : List (Action α ι)) :
    n.run p (actions ++ more) = (n.run p actions).run p more := List.foldl_append ..

/-- What each end keeps in every state that the net can be in. -/
theorem run_invariant {Q : Bool → σ → Prop} {n : Net σ μ} (hstart : ∀ b, Q b (n.ends b))
    (hown : ∀ earlier b a, (∀ c, Q c ((n.run p earlier).ends c)) → p.isOwn a = true →
      Q b (p.step ((n.run p earlier).ends b) a))
    (hdeliver : ∀ earlier b m rest i, (∀ c, Q c ((n.run p earlier).ends c)) → (n.run p earlier).wire b = m :: rest →
      p.listens ((n.run p earlier).ends b) = true → Q b (p.step ((n.run p earlier).ends b) (p.arrival m i)))
    (actions : List (Action α ι)) (b : Bool) : Q b ((n.run p actions).ends b) := by
  induction actions using List.reverseRecOn generalizing b with
  | nil => exact hstart b
  | append_singleton actions a ih =>
    have hrun : n.run p (actions ++ [a]) = (n.run p actions).step p a := List.foldl_concat ..
    have hmoved := @moved_step _ _ _ _ p (n.run p actions) a b
    rw [hrun]
    generalize ((n.run p actions).step p a).ends b = s at hmoved
    cases hmoved with
    | still => exact ih b
    | acted ha => exact hown actions b _ ih ha
    | delivered i hwire hl => exact hdeliver actions b _ _ i ih hwire hl

/-- A party of the net is in a state that it could have come to alone. -/
theorem run_ends (n : Net σ μ) (actions : List (Action α ι)) (b : Bool) :
    ∃ steps : List α, (n.run p actions).ends b = steps.foldl p.step (n.ends b) := by
  let Q (c : Bool) (s : σ) : Prop := ∃ steps : List α, s = steps.foldl p.step (n.ends c)
  have hsnoc {s : σ} {c : Bool} (a : α) (h : Q c s) : Q c (p.step s a) := by
    obtain ⟨steps, rfl⟩ := h
    exact ⟨steps ++ [a], (List.foldl_concat ..).symm⟩
  exact @run_invariant _ _ _ _ p Q n (fun _ => ⟨[], rfl⟩) (fun _ c a h _ => hsnoc a (h c))
    (fun _ c m _ i h _ _ => hsnoc (p.arrival m i) (h c)) actions b

end Duplex
