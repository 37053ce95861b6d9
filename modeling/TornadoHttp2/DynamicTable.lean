import TornadoHttp2.Hpack

/-! The size that a dynamic table keeps beside its entries. As long as it is
the real size, eviction stops before the table is empty of entries to pop. -/

namespace TornadoHttp2

namespace DynamicTable

def totalSize (entries : List (Bytes × Bytes)) : Nat :=
  (entries.map fun e => entrySize e.1 e.2).sum

structure Sized (t : DynamicTable) : Prop where
  size : t.size = totalSize t.entries
  le : t.size ≤ t.limit

theorem totalSize_cons (e : Bytes × Bytes) (entries : List (Bytes × Bytes)) :
    totalSize (e :: entries) = entrySize e.1 e.2 + totalSize entries := by simp [totalSize]

theorem totalSize_reverse (entries : List (Bytes × Bytes)) :
    totalSize entries.reverse = totalSize entries := by simp [totalSize, List.sum_reverse]

/-- Eviction pops entries until the rest fits: any newer part that fits stays. -/
theorem gcFrom_kept (limit : Nat) (oldestFirst : List (Bytes × Bytes)) :
    ∃ kept : List (Bytes × Bytes), gcFrom limit oldestFirst (totalSize oldestFirst) =
      (Except.ok (), kept, (totalSize kept : Int)) ∧ totalSize kept ≤ limit ∧ kept <:+ oldestFirst ∧
        ∀ newer, newer <:+ oldestFirst → totalSize newer ≤ limit → newer <:+ kept := by
  induction oldestFirst with
  | nil => exact ⟨[], by simp [gcFrom, totalSize], by simp [totalSize], List.suffix_refl _, fun _ h _ => h⟩
  | cons e rest ih =>
    by_cases hgt : totalSize (e :: rest) > limit
    · have hsub : ((totalSize (e :: rest) : Nat) : Int) - entrySize e.1 e.2 = totalSize rest := by
        rw [totalSize_cons]
        omega
      obtain ⟨kept, hk, hle, hsuffix, hkeeps⟩ := ih
      refine ⟨kept, by rw [gcFrom, if_pos (by omega), hsub, hk], hle, hsuffix.trans (List.suffix_cons _ _),
        fun newer hnewer hfits => ?_⟩
      obtain rfl | hrest := List.suffix_cons_iff.mp hnewer
      · omega
      · exact hkeeps newer hrest hfits
    · exact ⟨e :: rest, by rw [gcFrom, if_neg (by omega)], by omega, List.suffix_refl _, fun _ h _ => h⟩

/-- The table after eviction: what is left is the longest part of its newest entries that fits. -/
theorem gc_kept {t : DynamicTable} (h : t.size = totalSize t.entries) :
    ∃ t', gc.run t = (.ok (), t') ∧ t'.Sized ∧ t'.limit = t.limit ∧ t'.entries <+: t.entries ∧
      ∀ newest, newest <+: t.entries → totalSize newest ≤ t.limit → newest <+: t'.entries := by
  obtain ⟨kept, hk, hle, hsuffix, hkeeps⟩ := gcFrom_kept t.limit t.entries.reverse
  rw [totalSize_reverse, ← h] at hk
  refine ⟨⟨kept.reverse, totalSize kept, t.limit⟩, by simp only [gc, hk],
    ⟨by rw [totalSize_reverse], Int.ofNat_le.mpr hle⟩, rfl, ?_, fun newest hnewest hfits => ?_⟩
  · exact List.reverse_suffix.mp (by rwa [List.reverse_reverse])
  have hreverse := hkeeps newest.reverse (List.reverse_suffix.mpr hnewest) (by rwa [totalSize_reverse])
  exact List.reverse_suffix.mp (by rwa [List.reverse_reverse])

theorem gc_ok {t : DynamicTable} (h : t.size = totalSize t.entries) :
    ∃ t', gc.run t = (.ok (), t') ∧ t'.Sized ∧ t'.limit = t.limit := by
  obtain ⟨t', hrun, hsized, hlimit, -⟩ := gc_kept h
  exact ⟨t', hrun, hsized, hlimit⟩

theorem Sized.cons {t : DynamicTable} (h : t.Sized) (name value : Bytes) :
    t.size + entrySize name value = totalSize ((name, value) :: t.entries) := by
  rw [totalSize_cons, h.size]
  push_cast
  ring

theorem add_ok {t : DynamicTable} (h : t.Sized) (name value : Bytes) :
    ∃ t', (add name value).run t = (.ok (), t') ∧ t'.Sized ∧ t'.limit = t.limit :=
  gc_ok (t := ⟨(name, value) :: t.entries, t.size + entrySize name value, t.limit⟩) (h.cons name value)

theorem Sized.fits {t : DynamicTable} (h : t.Sized) : totalSize t.entries ≤ t.limit :=
  Int.ofNat_le.mp (h.size ▸ h.le)

/-- `t` holds the newest entries of `u`, and it is the first to evict. -/
structure Precedes (t u : DynamicTable) : Prop where
  sized : t.Sized
  sized' : u.Sized
  limit : t.limit ≤ u.limit
  entries : t.entries <+: u.entries

theorem Precedes.add {t t' u : DynamicTable} {name value : Bytes} (h : t.Precedes u)
    (ht : (add name value).run t = (.ok (), t')) :
    ∃ u', (DynamicTable.add name value).run u = (.ok (), u') ∧ t'.Precedes u' := by
  obtain ⟨t₁, hrun, hsized, hlimit, hentries, -⟩ :=
    gc_kept (t := ⟨(name, value) :: t.entries, t.size + entrySize name value, t.limit⟩) (h.sized.cons name value)
  obtain rfl : t₁ = t' := congrArg Prod.snd (hrun.symm.trans ht)
  obtain ⟨u', hrun', hsized', hlimit', -, hkeeps⟩ :=
    gc_kept (t := ⟨(name, value) :: u.entries, u.size + entrySize name value, u.limit⟩) (h.sized'.cons name value)
  refine ⟨u', hrun', hsized, hsized', (hlimit.trans_le h.limit).trans_eq hlimit'.symm, ?_⟩
  refine hkeeps _ (hentries.trans (List.prefix_cons_inj _ |>.mpr h.entries)) ?_
  exact hsized.fits.trans (hlimit.trans_le h.limit)

/-- A limit that `t` fits evicts nothing of it. -/
theorem Precedes.setLimit {t u : DynamicTable} {limit : Nat} (h : t.Precedes u) (hlimit : t.limit ≤ limit) :
    ∃ u', gc.run { u with limit } = (.ok (), u') ∧ t.Precedes u' ∧ u'.limit = limit := by
  obtain ⟨u', hrun, hsized, hlimit', -, hkeeps⟩ := gc_kept (t := { u with limit }) h.sized'.size
  exact ⟨u', hrun, ⟨h.sized, hsized, hlimit.trans_eq hlimit'.symm, hkeeps _ h.entries (h.sized.fits.trans hlimit)⟩,
    hlimit'⟩

theorem new_sized (limit : Nat) : (new limit).Sized := ⟨rfl, by simp [new]⟩

end DynamicTable

end TornadoHttp2
