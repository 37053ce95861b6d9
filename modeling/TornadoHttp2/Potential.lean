import Mathlib.Algebra.BigOperators.Finprod
import Mathlib.Data.Prod.Lex
import TornadoHttp2.Duplex

/-! Why two parties come to rest. A party may send messages in reply to others, as long
as each step leaves less to do than there was before it. -/

section

variable {ι : Type}

/-- A sum of which one summand changes. -/
theorem finsum_update {f : ι → ℕ} {I : Finset ι} (hI : ∀ j ∉ I, f j = 0) (i : ι) [DecidableEq ι] (x : ℕ) :
    ∑ᶠ j, Function.update f i x j + f i = ∑ᶠ j, f j + x := by
  have hf : ∑ᶠ j, f j = ∑ j ∈ insert i I, f j := by
    refine finsum_eq_sum_of_support_subset f fun j hj => ?_
    by_contra hout
    simp only [Finset.coe_insert, Set.mem_insert_iff, Finset.mem_coe, not_or] at hout
    exact hj (hI j hout.2)
  have hg : ∑ᶠ j, Function.update f i x j = ∑ j ∈ insert i I, Function.update f i x j := by
    refine finsum_eq_sum_of_support_subset _ fun j hj => ?_
    by_contra hout
    simp only [Finset.coe_insert, Set.mem_insert_iff, Finset.mem_coe, not_or] at hout
    exact hj ((Function.update_of_ne hout.1 x f).trans (hI j hout.2))
  have hrest : ∑ j ∈ (insert i I).erase i, Function.update f i x j = ∑ j ∈ (insert i I).erase i, f j :=
    Finset.sum_congr rfl fun j hj => Function.update_of_ne (Finset.ne_of_mem_erase hj) x f
  rw [hf, hg, ← Finset.add_sum_erase _ _ (Finset.mem_insert_self i I), ← Finset.add_sum_erase _ f
    (Finset.mem_insert_self i I), hrest, Function.update_self]
  omega

end

namespace Duplex

variable {σ α μ ι : Type}

/-- What there is to do about a message on its way to a party, and what a party has to
do by itself; `rank` counts the steps that only bring it closer to that. -/
structure Potential (σ μ : Type) where
  weight : Bool → μ → ℕ
  level : σ → ℕ
  rank : σ → ℕ

namespace Potential

variable (v : Potential σ μ) (p : Party σ α μ ι)

def weigh (b : Bool) (ms : List μ) : ℕ := (ms.map (v.weight b)).sum

/-- What a party has to do, and what it has made the other do. -/
def total (b : Bool) (s : σ) : ℕ := v.level s + v.weigh (!b) (p.sent s)

def work (n : Net σ μ) : ℕ := ∑ b : Bool, (v.level (n.ends b) + v.weigh b (n.wire b))

def measure (n : Net σ μ) : ℕ ×ₗ ℕ := toLex (v.work n, ∑ b : Bool, v.rank (n.ends b))

/-- A step of a party that leaves less to do. -/
def Lowers (b : Bool) (s s' : σ) : Prop :=
  v.total p b s' < v.total p b s ∨ v.total p b s' = v.total p b s ∧ v.rank s' < v.rank s

variable {v p} {n : Net σ μ} {b : Bool} {a : α} {m : μ} {rest : List μ}

@[simp] theorem weigh_append {ms ms' : List μ} : v.weigh b (ms ++ ms') = v.weigh b ms + v.weigh b ms' := by simp [weigh]

@[simp] theorem weigh_cons : v.weigh b (m :: rest) = v.weight b m + v.weigh b rest := by simp [weigh]

theorem sum_ends (f : Bool → ℕ) (b : Bool) : ∑ c : Bool, f c = f b + f (!b) := by
  cases b <;> simp [add_comm]

/-- What a step sends is on its way to the other party. -/
theorem work_perform (hinv : p.Inv (n.ends b)) :
    v.work (n.perform p b a) + v.total p b (n.ends b) = v.work n + v.total p b (p.step (n.ends b) a) := by
  obtain ⟨more, hmore⟩ := p.sent_step a hinv
  rw [work, work, sum_ends _ b, sum_ends _ b, perform_ends,
    perform_ends_not, perform_wire, perform_wire_not, total, total, ← hmore,
    List.drop_left, weigh_append, weigh_append]
  omega

theorem rank_perform : ∑ c : Bool, v.rank ((n.perform p b a).ends c) + v.rank (n.ends b) =
    ∑ c : Bool, v.rank (n.ends c) + v.rank (p.step (n.ends b) a) := by
  rw [sum_ends _ b, sum_ends _ b, perform_ends, perform_ends_not]
  omega

theorem work_pop (hwire : n.wire b = m :: rest) : v.work (n.pop b) + v.weight b m = v.work n := by
  rw [work, work, sum_ends _ b, sum_ends _ b, pop_ends, pop_wire, pop_wire_not, hwire, List.tail_cons, weigh_cons]
  omega

/-- A step that lowers what a party has to do lowers what there is to do. -/
theorem act_lt (hinv : p.Inv (n.ends b)) (h : v.Lowers p b (n.ends b) (p.step (n.ends b) a)) :
    v.measure (n.perform p b a) < v.measure n := by
  have hwork := @work_perform _ _ _ _ v p n b a hinv
  have hrank := @rank_perform _ _ _ _ v p n b a
  rw [measure, measure, Prod.Lex.toLex_lt_toLex]
  rcases h with hlt | ⟨heq, hlt⟩
  · exact .inl (by omega)
  · exact .inr ⟨by omega, by omega⟩

/-- A message may be answered with less than it was worth. -/
theorem deliver_lt {i : ι} (hinv : p.Inv (n.ends b)) (hwire : n.wire b = m :: rest)
    (h : v.total p b (p.step (n.ends b) (p.arrival m i)) < v.total p b (n.ends b) + v.weight b m) :
    v.measure ((n.pop b).perform p b (p.arrival m i)) < v.measure n := by
  have hwork := @work_perform _ _ _ _ v p (n.pop b) b (p.arrival m i) hinv
  have hpop := @work_pop _ _ v n b m rest hwire
  rw [pop_ends] at hwork
  rw [measure, measure, Prod.Lex.toLex_lt_toLex]
  exact .inl (by omega)

/-- Each step is one that `Q` allows where it is taken. -/
def Follows (p : Party σ α μ ι) (Q : Net σ μ → Action α ι → Prop) : Net σ μ → List (Action α ι) → Prop
  | _, [] => True
  | n, a :: more => Q n a ∧ Follows p Q (n.step p a) more

/-- As long as there is a step that leaves less to do, the parties come to rest. -/
theorem reaches_rest (v : Potential σ μ) (p : Party σ α μ ι) {P Rest : Net σ μ → Prop} {Q : Net σ μ → Action α ι → Prop}
    (hstep : ∀ n, P n → ¬ Rest n → ∃ a, Q n a ∧ P (n.step p a) ∧
      (Rest (n.step p a) ∨ v.measure (n.step p a) < v.measure n))
    (n : Net σ μ) (hn : P n) : ∃ more, Follows p Q n more ∧ Rest (n.run p more) := by
  induction h : v.measure n using WellFoundedLT.induction generalizing n with
  | ind k ih =>
    by_cases hrest : Rest n
    · exact ⟨[], trivial, hrest⟩
    · obtain ⟨a, ha, hnext, hdone | hlt⟩ := hstep n hn hrest
      · exact ⟨[a], ⟨ha, trivial⟩, hdone⟩
      · obtain ⟨more, hmore, hdone⟩ := ih _ (h ▸ hlt) (n.step p a) hnext rfl
        exact ⟨a :: more, ⟨ha, hmore⟩, hdone⟩

end Potential

end Duplex
