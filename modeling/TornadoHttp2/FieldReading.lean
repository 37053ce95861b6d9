import TornadoHttp2.HuffmanLiterals

/-! A reader that succeeds would read the same wherever the bits it has taken
are ahead. This is proved of every reader, up to one field of a block. -/

namespace TornadoHttp2

open BitString Prog

namespace BitDecoder

/-- `f` takes `taken` from `d` and returns `a`, and so it does wherever these
bits are ahead at the same offset. -/
structure Takes {α : Type} (f : BitDecoder → Except PyException (α × BitDecoder)) (d : BitDecoder)
    (bits taken : List Bool) (a : α) : Prop where
  isPrefix : taken <+: bits
  elsewhere {e : BitDecoder} {rest : List Bool} : e.bitOffset = d.bitOffset → e.Ahead (taken ++ rest) →
    f e = .ok (a, e.advance taken.length)

variable {d d' : BitDecoder} {bits : List Bool}

theorem readBit_takes {b : Bool} (hd : d.Ahead bits) (h : d.readBit = .ok (b, d')) :
    ∃ taken, Takes readBit d bits taken b := by
  cases bits with
  | nil =>
    have hlength := congrArg List.length hd.drop
    have hlt := hd.lt
    simp only [List.length_drop, toBits_length, position, List.length_nil] at hlength
    rw [readBit, List.getElem?_eq_none (by omega)] at h
    cases h
  | cons b' bits =>
    rw [readBit_ahead hd] at h
    cases h
    exact ⟨[b], ⟨bits, rfl⟩, fun _ he => readBit_ahead he⟩

theorem readChar_takes {c : UInt8} (hd : d.Ahead bits) (h : d.readChar = .ok (c, d')) :
    ∃ taken, Takes readChar d bits taken c := by
  unfold readChar at h
  split at h
  · cases h
  · rename_i hoffset
    rw [not_not] at hoffset
    split at h <;> cases h
    rename_i hc
    have hbits := hd.drop
    rw [position, hoffset, Nat.add_zero, toBits_drop, List.drop_eq_getElem_cons (List.getElem?_eq_some_iff.mp hc).1,
      (List.getElem?_eq_some_iff.mp hc).2, toBits_cons] at hbits
    exact ⟨byteBits c, ⟨_, hbits⟩, fun he hahead => readChar_ahead hahead (he.trans hoffset)⟩

theorem readContinuation_takes {bs : Bytes} {acc m i k : Nat} (h : readContinuation bs acc m = .ok (i, k)) :
    ∃ used, used <+: bs ∧ used.length = k ∧ ∀ rest, readContinuation (used ++ rest) acc m = .ok (i, k) := by
  induction bs generalizing acc m k with
  | nil => cases h
  | cons b bs ih =>
    rw [readContinuation] at h
    split at h
    · rename_i hlast
      cases h
      exact ⟨[b], ⟨bs, rfl⟩, rfl, fun rest => by simp [readContinuation, hlast]⟩
    · rename_i hmore
      cases hrest : readContinuation bs (acc + (b.toNat &&& 0x7f) <<< m) (m + 7) with
      | error e => simp [hrest, Except.map] at h
      | ok r =>
        obtain ⟨j, n⟩ := r
        rw [hrest] at h
        cases h
        obtain ⟨used, ⟨tail, rfl⟩, rfl, hused⟩ := ih hrest
        refine ⟨b :: used, ⟨tail, rfl⟩, rfl, fun rest => ?_⟩
        rw [List.cons_append, readContinuation, if_neg hmore, hused rest]
        rfl

theorem readHpackInt_takes {i : Nat} (hd : d.Ahead bits) (h : d.readHpackInt = .ok (i, d')) :
    ∃ taken, Takes readHpackInt d bits taken i := by
  have hlt := hd.lt
  have hne : bits ≠ [] := by
    rintro rfl
    have hlength := congrArg List.length hd.drop
    simp only [List.length_drop, toBits_length, position, List.length_nil] at hlength
    rw [readHpackInt, List.getElem?_eq_none (by omega)] at h
    cases h
  obtain ⟨byte, hbyte, hbits⟩ := hd.byte hne
  obtain ⟨n, hn⟩ : ∃ n, 8 - d.bitOffset = n := ⟨_, rfl⟩
  have hpos := Nat.two_pow_pos n
  -- the byte under another decoder may differ above the bits that are ahead
  have same {e : BitDecoder} {rest : List Bool} (he : e.bitOffset = d.bitOffset)
      (hahead : e.Ahead (natBits n byte.toNat ++ rest)) : ∃ byte', e.data[e.byteOffset]? = some byte' ∧
        byte'.toNat % 2 ^ n = byte.toNat % 2 ^ n ∧ rest = toBits (e.data.drop (e.byteOffset + 1)) := by
    obtain ⟨byte', hbyte', hrest⟩ := hahead.byte (by
      intro hnil
      have hlength := congrArg List.length hnil
      simp only [List.length_append, natBits_length, List.length_nil] at hlength
      omega)
    rw [he, hn] at hrest
    obtain ⟨hpre, hrest⟩ := List.append_inj hrest (by simp)
    refine ⟨byte', hbyte', natBits_inj (Nat.mod_lt _ hpos) (Nat.mod_lt _ hpos) ?_, hrest⟩
    rw [natBits_mod, natBits_mod, hpre]
  rw [hn] at hbits
  simp only [readHpackInt, hbyte, hn, Nat.and_two_pow_sub_one_eq_mod] at h
  split at h
  · rename_i hsmall
    cases h
    refine ⟨natBits n byte.toNat, ⟨_, hbits.symm⟩, fun {e rest} he hahead => ?_⟩
    obtain ⟨byte', hbyte', hmod, -⟩ := same he hahead
    simp only [readHpackInt, hbyte', he, hn, Nat.and_two_pow_sub_one_eq_mod, hmod, if_pos hsmall]
    simp only [natBits_length, advance, position]
    congr 3 <;> omega
  · rename_i hlarge
    cases hcont : readContinuation (d.data.drop (d.byteOffset + 1)) (byte.toNat % 2 ^ n) 0 with
    | error e => simp [hcont, Except.map] at h
    | ok r =>
      obtain ⟨j, k⟩ := r
      rw [hcont] at h
      cases h
      obtain ⟨used, ⟨tail, htail⟩, rfl, hused⟩ := readContinuation_takes hcont
      rw [← htail, toBits_append, ← List.append_assoc] at hbits
      refine ⟨natBits n byte.toNat ++ toBits used, ⟨_, hbits.symm⟩, fun {e rest} he hahead => ?_⟩
      rw [List.append_assoc] at hahead
      obtain ⟨byte', hbyte', hmod, hrest⟩ := same he hahead
      obtain ⟨rest', hrest', -⟩ := eq_append_of_toBits hrest.symm
      simp only [readHpackInt, hbyte', he, hn, Nat.and_two_pow_sub_one_eq_mod, hmod, if_neg hlarge,
        hrest', hused rest']
      simp only [Except.map, List.length_append, natBits_length, toBits_length, advance, position]
      congr 3 <;> omega

theorem advance_bitOffset {e : BitDecoder} (h : e.bitOffset = d.bitOffset) (k : Nat) :
    (e.advance k).bitOffset = (d.advance k).bitOffset := by
  simp only [advance, position]
  omega

/-- Two decoders at the same offset come to a limit alike. -/
theorem advance_limit {e : BitDecoder} {limit limit' : Nat} (h : e.bitOffset = d.bitOffset)
    (hlimit : limit + e.byteOffset = limit' + d.byteOffset) (k : Nat) :
    limit + (e.advance k).byteOffset = limit' + (d.advance k).byteOffset := by
  simp only [advance, position]
  omega

theorem walk_takes {limit fuel : Nat} {t t' : HuffmanTree} {c : Option UInt8} (hd : d.Ahead bits)
    (h : walk limit fuel t d = (.ok (c, d'), t')) : ∃ taken, taken <+: bits ∧
      ∀ {limit' : Nat} {e : BitDecoder} {rest : List Bool}, e.bitOffset = d.bitOffset → e.Ahead (taken ++ rest) →
        limit + e.byteOffset = limit' + d.byteOffset →
        walk limit' fuel t e = (.ok (c, e.advance taken.length), t') := by
  induction fuel generalizing t d bits t' with
  | zero =>
    cases h
    exact ⟨[], List.nil_prefix, fun _ hahead _ => by rw [walk, List.length_nil, hahead.advance_zero]⟩
  | succ fuel ih =>
    rw [walk] at h
    split at h
    · rename_i hbefore
      split at h
      · cases h
      · rename_i b d₁ hread
        obtain ⟨taken, ⟨bits, rfl⟩, htakes⟩ := readBit_takes hd hread
        obtain rfl : d.advance taken.length = d₁ := by
          rw [htakes rfl hd] at hread
          cases hread
          rfl
        split at h
        · rename_i hleaf
          cases h
          refine ⟨taken, ⟨bits, rfl⟩, fun {limit' e rest} he hahead hlimit => ?_⟩
          rw [walk, if_pos (by omega), htakes he hahead]
          dsimp only
          rw [hleaf]
        · rename_i hchild
          rcases hwalk : walk limit fuel (t.child b) (d.advance taken.length) with ⟨r, child⟩
          rw [hwalk] at h
          cases h
          obtain ⟨taken', ⟨bits, rfl⟩, htakes'⟩ := ih hd.advance hwalk
          refine ⟨taken ++ taken', ⟨bits, List.append_assoc ..⟩, fun {limit' e rest} he hahead hlimit => ?_⟩
          rw [List.append_assoc] at hahead
          have hrest := htakes' (advance_bitOffset he _) hahead.advance (advance_limit he hlimit _)
          rw [walk, if_pos (by omega), htakes he hahead, List.length_append, ← advance_advance]
          dsimp only
          cases hleaf : t.child b with
          | leaf c => exact (hchild c hleaf).elim
          | _ =>
            rw [hleaf] at hrest
            dsimp only
            rw [hrest]
    · cases h
      refine ⟨[], List.nil_prefix, fun {limit' e rest} he hahead hlimit => ?_⟩
      rw [walk, if_neg (by omega), List.length_nil, hahead.advance_zero]

end BitDecoder

namespace HpackDecoder

variable {α β : Type}

/-- The same of a program, whose reading may end at a limit. -/
def Reads (m : Nat → Prog Decoding PyException α) : Prop :=
  ∀ ⦃limit s bits a s'⦄, s.bits.Ahead bits → (m limit).run s = (.ok a, s') → ∃ taken, taken <+: bits ∧
    ∀ ⦃limit' d rest⦄, d.bitOffset = s.bits.bitOffset → d.Ahead (taken ++ rest) →
      limit + d.byteOffset = limit' + s.bits.byteOffset →
      (m limit').run { s with bits := d } = (.ok a, { s' with bits := d.advance taken.length })

theorem readFromIndex_ignores {idx : Nat} :
    Ignores (fun d (s : Decoding) => { s with bits := d }) (readFromIndex idx) := by
  refine .get_bind (fun _ _ => rfl) fun s => .ite ?_ ?_
  · split
    · exact .pure _
    · exact .raise _
  · split
    · exact .pure _
    · exact .raise _

namespace Reads

theorem of_ignores {m : Prog Decoding PyException α}
    (h : Ignores (fun d (s : Decoding) => { s with bits := d }) m) : Reads fun _ => m := by
  intro limit s bits a s' hs hrun
  refine ⟨[], List.nil_prefix, fun limit' d rest _ hahead _ => ?_⟩
  rw [h d s, hrun, List.length_nil, hahead.advance_zero]

theorem pure (a : α) : Reads fun _ => pure a := of_ignores (.pure a)

theorem bind {m : Nat → Prog Decoding PyException α} {f : α → Nat → Prog Decoding PyException β}
    (hm : Reads m) (hf : ∀ a, Reads (f a)) : Reads fun limit => m limit >>= fun a => f a limit := by
  intro limit s bits b s' hs hrun
  rcases hfirst : (m limit).run s with ⟨e | a, s₁⟩
  · rw [bind_error hfirst] at hrun
    cases hrun
  rw [bind_ok hfirst] at hrun
  obtain ⟨taken, ⟨bits, rfl⟩, htakes⟩ := hm hs hfirst
  have hbits : s₁.bits = s.bits.advance taken.length :=
    congrArg (fun r => r.2.bits) (hfirst.symm.trans (htakes rfl hs rfl))
  obtain ⟨taken', ⟨bits, rfl⟩, htakes'⟩ := hf a (hbits ▸ hs.advance) hrun
  rw [hbits] at htakes'
  refine ⟨taken ++ taken', ⟨bits, List.append_assoc ..⟩, fun limit' d rest hd hahead hlimit => ?_⟩
  rw [List.append_assoc] at hahead
  rw [bind_ok (htakes hd hahead hlimit), List.length_append, ← BitDecoder.advance_advance]
  exact htakes' (BitDecoder.advance_bitOffset hd _) hahead.advance (BitDecoder.advance_limit hd hlimit _)

theorem ite {c : Prop} [Decidable c] {m m' : Nat → Prog Decoding PyException α} (hm : Reads m) (hm' : Reads m') :
    Reads fun limit => if c then m limit else m' limit := by
  split
  · exact hm
  · exact hm'

/-- Whether the limit is still ahead is the same everywhere. -/
theorem before {m m' : Nat → Prog Decoding PyException α} (hm : Reads m) (hm' : Reads m') :
    Reads fun limit => get >>= fun s => if s.bits.byteOffset < limit then m limit else m' limit := by
  intro limit s bits a s' hs hrun
  rw [run_get_bind] at hrun
  split at hrun <;> rename_i hbefore
  · obtain ⟨taken, hpre, htakes⟩ := hm hs hrun
    refine ⟨taken, hpre, fun limit' d rest hd hahead hlimit => ?_⟩
    rw [run_get_bind, if_pos (by dsimp only; omega)]
    exact htakes hd hahead hlimit
  · obtain ⟨taken, hpre, htakes⟩ := hm' hs hrun
    refine ⟨taken, hpre, fun limit' d rest hd hahead hlimit => ?_⟩
    rw [run_get_bind, if_neg (by dsimp only; omega)]
    exact htakes hd hahead hlimit

/-- A limit that is set where the reader stands. -/
theorem within {m : Nat → Prog Decoding PyException α} (hm : Reads m) (length : Nat) :
    Reads fun _ => get >>= fun s => m (s.bits.byteOffset + length) := by
  intro limit s bits a s' hs hrun
  obtain ⟨taken, hpre, htakes⟩ := hm hs hrun
  refine ⟨taken, hpre, fun limit' d rest hd hahead _ => htakes hd hahead ?_⟩
  dsimp only
  omega

theorem read {f : BitDecoder → Except PyException (α × BitDecoder)}
    (h : ∀ {d bits a d'}, d.Ahead bits → f d = .ok (a, d') → ∃ taken, BitDecoder.Takes f d bits taken a) :
    Reads fun _ => read f := by
  intro limit s bits a s' hs hrun
  rw [HpackDecoder.read] at hrun
  dsimp only at hrun
  split at hrun
  · rename_i b d hread
    cases hrun
    obtain ⟨taken, hpre, htakes⟩ := h hs hread
    refine ⟨taken, hpre, fun limit' d rest hd hahead _ => ?_⟩
    simp only [HpackDecoder.read, htakes hd hahead]
  · cases hrun

theorem readBit : Reads fun _ => readBit := read BitDecoder.readBit_takes

theorem readHpackInt : Reads fun _ => readHpackInt := read BitDecoder.readHpackInt_takes

theorem readHuffmanChar : Reads readHuffmanChar := by
  intro limit s bits a s' hs hrun
  rw [HpackDecoder.readHuffmanChar] at hrun
  dsimp only [BitDecoder.readHuffmanChar, Option.getD_some] at hrun
  split at hrun <;> cases hrun
  rename_i hwalk
  obtain ⟨taken, hpre, htakes⟩ := BitDecoder.walk_takes hs hwalk
  refine ⟨taken, hpre, fun limit' d rest hd hahead hlimit => ?_⟩
  have hrest := htakes hd hahead hlimit
  rw [show limit - s.bits.byteOffset = limit' - d.byteOffset by omega] at hrest
  simp only [HpackDecoder.readHuffmanChar, BitDecoder.readHuffmanChar, Option.getD_some, hrest]

theorem readHuffmanChars {fuel : Nat} : Reads fun limit => readHuffmanChars limit fuel := by
  induction fuel with
  | zero => exact pure []
  | succ fuel ih =>
    refine before (bind readHuffmanChar fun c => ?_) (pure [])
    cases c with
    | none => exact pure []
    | some c => exact bind ih fun chars => pure (c :: chars)

theorem readChars {length : Nat} : Reads fun _ => readChars length := by
  induction length with
  | zero => exact pure []
  | succ length ih => exact bind (read BitDecoder.readChar_takes) fun c => bind ih fun chars => pure (c :: chars)

theorem readString : Reads fun _ => readString :=
  bind readBit fun _ => bind readHpackInt fun length =>
    ite (within readHuffmanChars length) readChars

theorem readFromIndex {idx : Nat} : Reads fun _ => readFromIndex idx := of_ignores readFromIndex_ignores

theorem readNameValuePair : Reads fun _ => readNameValuePair := by
  have value (name : Bytes) : Reads fun _ => HpackDecoder.readString >>= fun value => Pure.pure (name, value) :=
    bind readString fun value => pure (name, value)
  exact bind readHpackInt fun nameIndex =>
    ite (bind readString value) (bind readFromIndex fun entry => value entry.1)

theorem onTable {m : Prog DynamicTable PyException Unit} : Reads fun _ => onTable m :=
  of_ignores fun _ _ => rfl

theorem decodeField {allowed : Bool} : Reads fun _ => decodeField allowed := by
  refine bind readBit fun indexed => ite (bind readHpackInt fun idx => bind readFromIndex fun entry => pure _) ?_
  refine bind readBit fun adds => ite (bind readNameValuePair fun pair => bind onTable fun _ => pure _) ?_
  refine bind readBit fun update => ite ?_ (bind readBit fun never => bind readNameValuePair fun pair => pure _)
  exact bind (of_ignores .check) fun _ => bind readHpackInt fun limit => bind onTable fun _ => pure _

end Reads

/-! A field ends with its last byte. -/

def Aligned : Prog Decoding PyException α → Prop := Returns fun _ s => s.bits.bitOffset = 0

namespace Aligned

/-- What is done after the last read leaves the bits alone. -/
theorem then_ignores {m : Prog Decoding PyException α} {f : α → Prog Decoding PyException β} (hm : Aligned m)
    (hf : ∀ a, Ignores (fun d (s : Decoding) => { s with bits := d }) (f a)) : Aligned (m >>= f) := by
  intro s
  refine wp_bind.mpr (wp_mono (hm s) (fun a s' hs' => ?_) fun _ _ _ => trivial)
  have hbits : ((f a).run s').2.bits = s'.bits := congrArg (fun r => r.2.bits) (hf a s'.bits s')
  exact wp_mono (wp_state.mpr hbits) (fun _ _ ht => (congrArg BitDecoder.bitOffset ht).trans hs') fun _ _ _ => trivial

theorem readHpackInt : Aligned readHpackInt := by
  intro s
  rw [HpackDecoder.readHpackInt, wp_read]
  split
  · rename_i hread
    exact readHpackInt_bitOffset hread
  · trivial

theorem readChars {length : Nat} {s : Decoding} (h : s.bits.bitOffset = 0) :
    wp (readChars length) (fun _ s' => s'.bits.bitOffset = 0) (fun _ _ => True) s := by
  induction length generalizing s with
  | zero => exact h
  | succ length ih =>
    rw [HpackDecoder.readChars, wp_bind, wp_read]
    split
    · rename_i hread
      refine wp_bind.mpr (ih ?_)
      unfold BitDecoder.readChar at hread
      split at hread
      · cases hread
      · split at hread <;> cases hread
        exact h
    · trivial

theorem readString : Aligned readString := by
  refine .bind fun _ s => ?_
  refine wp_bind.mpr (wp_mono (readHpackInt s) (fun length s' hs' => ?_) fun _ _ _ => trivial)
  refine wp_ite.mpr ⟨fun _ => ?_, fun _ => readChars hs'⟩
  rw [wp_bind, wp_get]
  have hpos : s'.bits.position = 8 * s'.bits.byteOffset := by rw [BitDecoder.position, hs', Nat.add_zero]
  refine wp_mono (readHuffmanChars_end (by omega) (by omega) (by omega)) (fun _ t ht => ?_) fun _ _ _ => trivial
  have hlt := ht.2.1
  have hend := ht.2.2
  rw [BitDecoder.position] at hend
  omega

theorem readNameValuePair : Aligned readNameValuePair := by
  have value (name : Bytes) : Aligned (HpackDecoder.readString >>= fun value => Pure.pure (name, value)) :=
    then_ignores readString fun value => .pure (name, value)
  exact .bind fun nameIndex => .ite (.bind value) (.bind fun entry => value entry.1)

theorem decodeField {allowed : Bool} : Aligned (decodeField allowed) := by
  have table {m : Prog DynamicTable PyException Unit} : Ignores (fun d (s : Decoding) => { s with bits := d })
      (onTable m) := fun _ _ => rfl
  refine .bind fun indexed => .ite (then_ignores readHpackInt fun idx =>
    .bind readFromIndex_ignores fun _ => .pure _) ?_
  refine .bind fun adds => .ite (then_ignores readNameValuePair fun pair => .bind table fun _ => .pure _) ?_
  refine .bind fun update => .ite ?_ (.bind fun never => then_ignores readNameValuePair fun pair => .pure _)
  exact .bind fun _ => then_ignores readHpackInt fun limit => .bind table fun _ => .pure _

end Aligned

end HpackDecoder

end TornadoHttp2
