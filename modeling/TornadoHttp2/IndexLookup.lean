import TornadoHttp2.HpackRoundTrip

/-! The encoder's lookups beside the index space that both coders share. Each
search compares whole entries of the table with what it is given: a static entry
has no value where the pair has an empty one, and a dynamic entry is a pair
where the key is a name. -/

namespace TornadoHttp2

open Prog

/-- Some entry is `(k, v)`; an entry without a listed value has the empty string. -/
def ListsPair (table : DynamicTable) (k v : Bytes) : Prop :=
  (∃ value : Option Bytes, some (k, value) ∈ staticTable ∧ value.getD [] = v) ∨ (k, v) ∈ table.entries

def ListsKey (table : DynamicTable) (k : Bytes) : Prop :=
  (∃ value, some (k, value) ∈ staticTable) ∨ ∃ v, (k, v) ∈ table.entries

/-- A decoder with this table reads the name `k` at index `idx`, with a value of `p`. -/
def Resolves (table : DynamicTable) (idx : Nat) (k : Bytes) (p : Option Bytes → Prop) : Prop :=
  ∀ s : Decoding, s.table = table → ∃ value, (HpackDecoder.readFromIndex idx).run s = (.ok (k, value), s) ∧ p value

namespace HpackEncoder

/-- Both lookups find what there is, and what they find is there. -/
structure LookupsAgree (enc : HpackEncoder) (k v : Bytes) : Prop where
  pair : (enc.findPairIndex k v).isSome = true ↔ ListsPair enc.table k v
  key : (enc.findKeyIndex k).isSome = true ↔ ListsKey enc.table k
  pairResolves {idx : Nat} : enc.findPairIndex k v = some idx →
    Resolves enc.table idx k fun value => value.getD [] = v
  keyResolves {idx : Nat} : enc.findKeyIndex k = some idx → Resolves enc.table idx k fun _ => True

variable {enc : HpackEncoder} {k v : Bytes}

theorem staticPairs_isSome : (staticPairs k v).isSome = true ↔ some (k, some v) ∈ staticTable := by
  rw [staticPairs, List.findIdx?_isSome, List.any_eq_true]
  constructor
  · intro ⟨entry, hmem, he⟩
    rwa [← of_decide_eq_true he]
  · exact fun h => ⟨_, h, decide_eq_true rfl⟩

theorem staticKeys_isSome : (staticKeys k).isSome = true ↔ ∃ value, some (k, value) ∈ staticTable := by
  rw [staticKeys, List.findIdx?_isSome, List.any_eq_true]
  constructor
  · intro ⟨entry, hmem, he⟩
    obtain ⟨⟨name, value⟩, rfl, hname⟩ := (Option.any_eq_true _ _).mp he
    exact ⟨value, of_decide_eq_true hname ▸ hmem⟩
  · exact fun ⟨value, h⟩ => ⟨_, h, by simp⟩

theorem findPairIndex_isSome : (enc.findPairIndex k v).isSome = true ↔
    some (k, some v) ∈ staticTable ∨ (k, v) ∈ enc.table.entries := by
  rw [findPairIndex, Option.isSome_or, Bool.or_eq_true, staticPairs_isSome, Option.isSome_map,
    List.findIdx?_isSome, List.any_eq_true]
  simp

theorem findPairIndex_resolves {idx : Nat} (h : enc.findPairIndex k v = some idx) :
    Resolves enc.table idx k fun value => value.getD [] = v :=
  fun _ hs => ⟨some v, HpackDecoder.readFromIndex_pair (hs ▸ List.prefix_refl _) h, rfl⟩

theorem findKeyIndex_resolves {idx : Nat} (h : enc.findKeyIndex k = some idx) :
    Resolves enc.table idx k fun _ => True := by
  intro s _
  rw [findKeyIndex_eq] at h
  obtain ⟨hlt, value, hentry⟩ := staticKeys_entry h
  exact ⟨value, HpackDecoder.readFromIndex_static hlt hentry, trivial⟩

/-- No static entry lists the empty string itself. -/
theorem staticTable_values : some (k, some []) ∉ staticTable := by
  have hall : ∀ entry ∈ staticTable, entry.all (fun e => e.2 != some []) = true := by decide +kernel
  intro h
  simpa using hall _ h

theorem listsPair_iff : ListsPair enc.table k v ↔
    (enc.findPairIndex k v).isSome = true ∨ (v = [] ∧ some (k, none) ∈ staticTable) := by
  rw [findPairIndex_isSome, ListsPair]
  constructor
  · intro h
    obtain ⟨_ | value, hmem, rfl⟩ | hmem := h
    · exact .inr ⟨rfl, hmem⟩
    · exact .inl (.inl hmem)
    · exact .inl (.inr hmem)
  · intro h
    obtain (hmem | hmem) | ⟨rfl, hmem⟩ := h
    · exact .inl ⟨_, hmem, rfl⟩
    · exact .inr hmem
    · exact .inl ⟨none, hmem, rfl⟩

/-- The lookups agree with the tables but for two kinds of entries: a pair with
an empty value that the static table lists without one, and a name that only the
dynamic table has. -/
theorem lookups_agree (enc : HpackEncoder) (k v : Bytes) : enc.LookupsAgree k v ↔
    (v = [] → some (k, none) ∈ staticTable → (k, []) ∈ enc.table.entries) ∧
    ((∃ v', (k, v') ∈ enc.table.entries) → ∃ value, some (k, value) ∈ staticTable) := by
  have hpair : ((enc.findPairIndex k v).isSome = true ↔ ListsPair enc.table k v) ↔
      (v = [] → some (k, none) ∈ staticTable → (k, []) ∈ enc.table.entries) := by
    rw [listsPair_iff]
    constructor
    · intro h hv hmem
      subst hv
      exact (findPairIndex_isSome.mp (h.mpr (.inr ⟨rfl, hmem⟩))).resolve_left staticTable_values
    · intro h
      refine ⟨.inl, fun hlists => hlists.elim id fun ⟨hv, hmem⟩ => ?_⟩
      subst hv
      exact findPairIndex_isSome.mpr (.inr (h rfl hmem))
  have hkey : ((enc.findKeyIndex k).isSome = true ↔ ListsKey enc.table k) ↔
      ((∃ v', (k, v') ∈ enc.table.entries) → ∃ value, some (k, value) ∈ staticTable) := by
    rw [findKeyIndex_eq, staticKeys_isSome, ListsKey]
    exact ⟨fun h hentry => h.mpr (.inr hentry), fun h => ⟨.inl, fun hlists => hlists.elim id h⟩⟩
  rw [← hpair, ← hkey]
  exact ⟨fun h => ⟨h.pair, h.key⟩, fun h => ⟨h.1, h.2, findPairIndex_resolves, findKeyIndex_resolves⟩⟩

/-- A name that was inserted with one value is not found for another, and an
empty value not for a name that the static table lists without any. -/
theorem not_lookups_agree :
    ¬ (((encode [(ascii "x-trace", ascii "a", .yes)]).run (.new 4096 true)).2).LookupsAgree
      (ascii "x-trace") (ascii "b") ∧
    ¬ (new 4096 true).LookupsAgree (ascii "accept") [] := by
  constructor
  · intro h
    have hfound : ((encode [(ascii "x-trace", ascii "a", .yes)]).run (.new 4096 true)).2.findKeyIndex
        (ascii "x-trace") = none := by decide +kernel
    have hlists : (ascii "x-trace", ascii "a") ∈
        ((encode [(ascii "x-trace", ascii "a", .yes)]).run (.new 4096 true)).2.table.entries := by decide +kernel
    have hsome := h.key.mpr (.inr ⟨ascii "a", hlists⟩)
    rw [hfound] at hsome
    cases hsome
  · intro h
    have hlists : some (ascii "accept", none) ∈ staticTable := by decide +kernel
    have hfound : (new 4096 true).findPairIndex (ascii "accept") [] = none := by decide +kernel
    have hsome := h.pair.mpr (.inl ⟨none, hlists, rfl⟩)
    rw [hfound] at hsome
    cases hsome

end HpackEncoder

end TornadoHttp2
