import Mathlib.Data.List.Basic

/-! Streams of symbols that are cut into items. A reader takes the next item off
a stream once all of it is there; how to read it may depend on the items before.
How the stream arrives makes no difference to what is read. -/

namespace Framing

/-- An item, once it is there, is not empty and stays the same whatever follows. -/
structure Reader (σ α φ : Type) where
  take : σ → List α → Option (φ × List α)
  next : σ → φ → σ
  shorter {s : σ} {input rest : List α} {item : φ} :
    take s input = some (item, rest) → rest.length < input.length
  stable {s : σ} {input rest : List α} {item : φ} (more : List α) :
    take s input = some (item, rest) → take s (input ++ more) = some (item, rest ++ more)

namespace Reader

variable {σ α φ : Type} (r : Reader σ α φ)

/-- At most so many items of a stream. -/
def itemsUpTo : Nat → σ → List α → List φ
  | 0, _, _ => []
  | n + 1, s, input =>
    match r.take s input with
    | none => []
    | some (item, rest) => item :: itemsUpTo n (r.next s item) rest

/-- The items that are there; each takes at least one symbol. -/
def items (s : σ) (input : List α) : List φ := r.itemsUpTo input.length s input

/-- `items` are taken off `input` one after another, which leaves `rest`. -/
inductive Takes : σ → List α → List φ → List α → Prop
  | nil {s : σ} {input : List α} : Takes s input [] input
  | cons {s : σ} {input mid rest : List α} {item : φ} {items : List φ} (h : r.take s input = some (item, mid))
      (hrest : Takes (r.next s item) mid items rest) : Takes s input (item :: items) rest

variable {r} {s : σ} {input rest : List α} {item : φ} {items : List φ}

theorem itemsUpTo_eq : ∀ {m n : Nat} {s : σ} {input : List α}, input.length ≤ m → input.length ≤ n →
    r.itemsUpTo m s input = r.itemsUpTo n s input := by
  have absent {s : σ} {input : List α} (h : input.length ≤ 0) : r.take s input = none := by
    by_contra hne
    obtain ⟨⟨item, rest⟩, htake⟩ := Option.ne_none_iff_exists'.mp hne
    have := r.shorter htake
    omega
  intro m
  induction m with
  | zero =>
    intro n s input hm hn
    cases n with
    | zero => rfl
    | succ n => rw [itemsUpTo, itemsUpTo, absent hm]
  | succ m ih =>
    intro n s input hm hn
    cases n with
    | zero => rw [itemsUpTo, itemsUpTo, absent hn]
    | succ n =>
      rw [itemsUpTo, itemsUpTo]
      cases htake : r.take s input with
      | none => rfl
      | some read =>
        obtain ⟨item, rest⟩ := read
        have hshort := r.shorter htake
        simp only [List.cons.injEq, true_and]
        exact ih (by omega) (by omega)

theorem items_of_none (h : r.take s input = none) : r.items s input = [] := by
  rw [Reader.items]
  cases input.length with
  | zero => rfl
  | succ n => rw [itemsUpTo, h]

theorem items_of_some (h : r.take s input = some (item, rest)) :
    r.items s input = item :: r.items (r.next s item) rest := by
  have hshort := r.shorter h
  obtain ⟨n, hn⟩ : ∃ n, input.length = n + 1 := ⟨input.length - 1, by omega⟩
  rw [Reader.items, hn, itemsUpTo, h]
  simp only [List.cons.injEq, true_and]
  exact itemsUpTo_eq (by omega) (Nat.le_refl _)

namespace Takes

/-- What has been taken is what there was first, and the rest is still there. -/
theorem items_eq (h : r.Takes s input items rest) :
    r.items s input = items ++ r.items (items.foldl r.next s) rest := by
  induction h with
  | nil => rfl
  | cons htake _ ih => rw [items_of_some htake, ih, List.cons_append, List.foldl_cons]

/-- More of the stream arrives. -/
theorem arrive (h : r.Takes s input items rest) (more : List α) : r.Takes s (input ++ more) items (rest ++ more) := by
  induction h with
  | nil => exact .nil
  | cons htake _ ih => exact .cons (r.stable more htake) ih

/-- One more item is taken. -/
theorem snoc {rest' : List α} (h : r.Takes s input items rest)
    (htake : r.take (items.foldl r.next s) rest = some (item, rest')) : r.Takes s input (items ++ [item]) rest' := by
  induction h with
  | nil => exact .cons htake .nil
  | cons hfirst _ ih => exact .cons hfirst (ih htake)

theorem length_le (h : r.Takes s input items rest) : rest.length ≤ input.length := by
  induction h with
  | nil => exact Nat.le_refl _
  | cons htake _ ih => exact Nat.le_trans ih (Nat.le_of_lt (r.shorter htake))

theorem prefix_items (h : r.Takes s input items rest) : items <+: r.items s input :=
  h.items_eq ▸ List.prefix_append ..

/-- Everything that is there has been taken. -/
theorem all_taken (h : r.Takes s input items rest) (hnone : r.take (items.foldl r.next s) rest = none) :
    r.items s input = items := by rw [h.items_eq, items_of_none hnone, List.append_nil]

end Takes

end Reader

end Framing
