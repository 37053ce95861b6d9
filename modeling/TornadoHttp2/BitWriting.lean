import TornadoHttp2.Encoding

/-! What a `BitEncoder` has written, as a string of bits: the bits of its data
less the unused low bits of the last byte, which stay zero. -/

namespace TornadoHttp2

open BitString

namespace BitEncoder

structure Holds (e : BitEncoder) (bits : List Bool) : Prop where
  pos : 0 < e.bitOffset
  le : e.bitOffset ≤ 8
  data : toBits e.data = bits ++ List.replicate (8 - e.bitOffset) false

/-- The bits of an integer after an `n`-bit prefix has been chosen. -/
def hpackIntBits (n i : Nat) : List Bool :=
  if i < 2 ^ n - 1 then natBits n i
  else natBits n (2 ^ n - 1) ++ toBits (continuation (i - (2 ^ n - 1)) (i - (2 ^ n - 1)))

theorem new_holds : new.Holds [] := ⟨by decide, by decide, rfl⟩

theorem Holds.toBits_data {e : BitEncoder} {bits : List Bool} (h : e.Holds bits)
    (ho : e.bitOffset = 8) : toBits e.data = bits := by
  simpa [ho] using h.data

theorem Holds.bitOffset_mod {e : BitEncoder} {bits : List Bool} (h : e.Holds bits) :
    e.bitOffset % 8 = bits.length % 8 := by
  have hlen := congrArg List.length h.data
  have hle := h.le
  simp only [toBits_length, List.length_append, List.length_replicate] at hlen
  omega

theorem Holds.bitOffset_eq {e : BitEncoder} {bits : List Bool} (h : e.Holds bits) (ha : bits.length % 8 = 0) :
    e.bitOffset = 8 := by
  have hmod := h.bitOffset_mod
  have hpos := h.pos
  have hle := h.le
  omega

theorem orLast_toBits {data : Bytes} {bits : List Bool} {n v : Nat} (hn : 0 < n) (hn8 : n ≤ 8)
    (hv : v < 2 ^ n) (h : toBits data = bits ++ List.replicate n false) :
    toBits (orLast data v) = bits ++ natBits n v := by
  obtain rfl | ⟨front, last, rfl⟩ := data.eq_nil_or_concat
  · have := congrArg List.length h
    simp at this
    omega
  · rw [List.concat_eq_append, toBits_append] at h
    have hlen := congrArg List.length h
    simp only [List.length_append, toBits_length, List.length_replicate, List.length_cons,
      List.length_nil] at hlen
    obtain ⟨p, hp, hlast⟩ | ⟨p, hp, hz⟩ := List.append_eq_append_iff.mp h
    · have hb : byteBits last = p ++ List.replicate n false := by simpa using hlast
      simp [orLast, hp, byteBits_or hn8 hv hb]
    · have hp' : p = [] := by
        have := congrArg List.length hp
        simp only [List.length_append, toBits_length] at this
        exact List.length_eq_zero_iff.mp (by omega)
      subst hp'
      have hb : byteBits last = [] ++ List.replicate n false := by simpa using hz.symm
      simp only [List.append_nil] at hp
      simp [orLast, hp, byteBits_or hn8 hv hb]

theorem Holds.push_zero {e : BitEncoder} {bits : List Bool} (h : e.Holds bits)
    (ho : 8 - e.bitOffset = 0) : toBits (e.data ++ [0]) = bits ++ List.replicate 8 false := by
  rw [toBits_append, h.data, ho]
  simp [byteBits, natBits_zero_right]

theorem writeBit_holds {e : BitEncoder} {bits : List Bool} (h : e.Holds bits) (b : Bool) :
    (e.writeBit b).Holds (bits ++ [b]) ∧
      (e.writeBit b).bitOffset = if e.bitOffset = 8 then 1 else e.bitOffset + 1 := by
  have hle := h.le
  by_cases ho : e.bitOffset = 8
  · have hz := orLast_toBits (v := b.toNat <<< 7) (by omega) (by omega)
      (by cases b <;> decide) (h.push_zero (by omega))
    rw [natBits_shift_bit] at hz
    exact ⟨⟨by simp [writeBit], by simp [writeBit, ho], by simp [writeBit, ho, hz]⟩,
      by simp [writeBit, ho]⟩
  · obtain ⟨m, hm⟩ : ∃ m, 8 - e.bitOffset = m + 1 := ⟨7 - e.bitOffset, by omega⟩
    have hm' : 7 - e.bitOffset = m := by omega
    have hv : b.toNat <<< m < 2 ^ (m + 1) := by
      have := Nat.two_pow_pos m
      cases b <;> simp [Nat.shiftLeft_eq, Nat.pow_succ]
    have hz := orLast_toBits (by omega) (by omega) hv (hm ▸ h.data)
    rw [natBits_shift_bit] at hz
    have hgt : ¬ e.bitOffset > 7 := by omega
    have hn : 8 - (e.bitOffset + 1) = m := by omega
    exact ⟨⟨by simp [writeBit], by simp [writeBit, hgt]; omega, by simp [writeBit, hgt, hm', hn, hz]⟩,
      by simp [writeBit, hgt, ho]⟩

theorem writeBits_holds {e : BitEncoder} {bits : List Bool} (h : e.Holds bits) (bs : List Bool) :
    (e.writeBits bs).Holds (bits ++ bs) := by
  induction bs generalizing e bits with
  | nil => simpa [writeBits] using h
  | cons b bs ih => simpa [writeBits] using ih (writeBit_holds h b).1

theorem writeHpackInt_holds {e : BitEncoder} {bits : List Bool} (h : e.Holds bits) (i : Nat) :
    (e.writeHpackInt i).Holds
        (bits ++ hpackIntBits (if e.bitOffset = 8 then 8 else 8 - e.bitOffset) i) ∧
      (e.writeHpackInt i).bitOffset = 8 := by
  have hle := h.le
  have hcond : 8 - e.bitOffset = 0 ↔ e.bitOffset = 8 := by omega
  -- the byte that takes the prefix ends in as many zeros as the prefix has bits
  have hdata : toBits (if 8 - e.bitOffset = 0 then e.data ++ [0] else e.data) =
      bits ++ List.replicate (if e.bitOffset = 8 then 8 else 8 - e.bitOffset) false := by
    by_cases ho : e.bitOffset = 8
    · rw [if_pos (by omega), if_pos ho, h.push_zero (by omega)]
    · rw [if_neg (by omega), if_neg ho, h.data]
  simp only [hcond] at hdata
  simp only [writeHpackInt, hcond]
  generalize (if e.bitOffset = 8 then e.data ++ [0] else e.data) = data at hdata ⊢
  obtain ⟨n, hn, hn0, hn8⟩ : ∃ n, (if e.bitOffset = 8 then 8 else 8 - e.bitOffset) = n ∧
      0 < n ∧ n ≤ 8 := ⟨_, rfl, by split <;> omega, by split <;> omega⟩
  simp only [hn] at hdata ⊢
  have hpos := Nat.two_pow_pos n
  by_cases hi : i < 2 ^ n - 1
  · simp only [hpackIntBits, hi, if_true]
    have ht := orLast_toBits hn0 hn8 (by omega : i < 2 ^ n) hdata
    exact ⟨⟨Nat.succ_pos 7, le_refl _, by simpa using ht⟩, trivial⟩
  · simp only [hpackIntBits, hi, if_false]
    have ht := orLast_toBits hn0 hn8 (by omega : 2 ^ n - 1 < 2 ^ n) hdata
    exact ⟨⟨Nat.succ_pos 7, le_refl _, by simp [ht]⟩, trivial⟩

theorem writeString_holds {e : BitEncoder} {bits : List Bool} (h : e.Holds bits)
    (ho : e.bitOffset = 8) (s : Bytes) :
    ∃ e', e.writeString s = .ok e' ∧ e'.Holds (bits ++ toBits s) ∧ e'.bitOffset = 8 :=
  ⟨⟨e.data ++ s, e.bitOffset⟩, by simp [writeString, ho], ⟨h.pos, h.le, by simp [ho, h.toBits_data ho]⟩, ho⟩

theorem foldl_writeHuffmanChar_holds {e : BitEncoder} {bits : List Bool} (h : e.Holds bits)
    (s : Bytes) : (s.foldl writeHuffmanChar e).Holds (bits ++ s.flatMap huffmanMap) := by
  induction s generalizing e bits with
  | nil => simpa using h
  | cons c s ih => simpa [writeHuffmanChar] using ih (writeBits_holds h (huffmanMap c))

theorem fillOnes_holds {fuel : Nat} {e : BitEncoder} {bits : List Bool} (h : e.Holds bits)
    (hf : 8 - e.bitOffset ≤ fuel) :
    (fillOnes fuel e).Holds (bits ++ List.replicate (8 - e.bitOffset) true) ∧
      (fillOnes fuel e).bitOffset = 8 := by
  have hle := h.le
  induction fuel generalizing e bits with
  | zero =>
    have hz : 8 - e.bitOffset = 0 := by omega
    exact ⟨by simpa [fillOnes, hz] using h, by simp only [fillOnes]; omega⟩
  | succ fuel ih =>
    by_cases ho : e.bitOffset = 8
    · exact ⟨by simpa [fillOnes, ho] using h, by simp [fillOnes, ho]⟩
    · obtain ⟨hb, hbo⟩ := writeBit_holds h true
      rw [if_neg ho] at hbo
      have hh := ih hb (by omega) hb.le
      rw [hbo] at hh
      rw [show 8 - e.bitOffset = (8 - (e.bitOffset + 1)) + 1 by omega, List.replicate_succ]
      simpa [fillOnes, ho] using hh

/-- A Huffman string is the codes of its characters and fewer than eight ones. -/
theorem writeHuffmanString_toBits (s : Bytes) : ∃ k, k < 8 ∧
    toBits (new.writeHuffmanString s).data = s.flatMap huffmanMap ++ List.replicate k true := by
  have hc := foldl_writeHuffmanChar_holds new_holds s
  obtain ⟨hf, ho⟩ := fillOnes_holds hc (by omega : _ ≤ 8)
  have hpos := hc.pos
  exact ⟨8 - (s.foldl writeHuffmanChar new).bitOffset, by omega,
    by simpa [writeHuffmanString] using hf.toBits_data ho⟩

end BitEncoder

end TornadoHttp2
