import TornadoHttp2.BitWriting

/-! What a `BitDecoder` reads, in terms of the bits ahead of its position. A
decoder whose bit offset is below eight is determined by that position, so each
successful read is `advance` by the number of bits it takes. -/

namespace TornadoHttp2

open BitString

namespace BitDecoder

def position (d : BitDecoder) : Nat := 8 * d.byteOffset + d.bitOffset

def advance (d : BitDecoder) (k : Nat) : BitDecoder :=
  ⟨d.data, (d.position + k) / 8, (d.position + k) % 8⟩

structure Ahead (d : BitDecoder) (bits : List Bool) : Prop where
  lt : d.bitOffset < 8
  drop : (toBits d.data).drop d.position = bits

@[simp] theorem advance_data (d : BitDecoder) (k : Nat) : (d.advance k).data = d.data := rfl

@[simp] theorem advance_position (d : BitDecoder) (k : Nat) :
    (d.advance k).position = d.position + k := by
  simp only [position, advance]
  omega

@[simp] theorem advance_advance (d : BitDecoder) (j k : Nat) :
    (d.advance j).advance k = d.advance (j + k) := by
  simp only [advance, position, mk.injEq, true_and]
  omega

theorem new_ahead (data : Bytes) : (new data).Ahead (toBits data) :=
  ⟨Nat.succ_pos 7, rfl⟩

theorem Ahead.advance_zero {d : BitDecoder} {bits : List Bool} (h : d.Ahead bits) :
    d.advance 0 = d := by
  have := h.lt
  obtain ⟨data, i, j⟩ := d
  simp only [advance, position, Nat.add_zero, mk.injEq, true_and] at this ⊢
  omega

theorem Ahead.advance {d : BitDecoder} {xs ys : List Bool} (h : d.Ahead (xs ++ ys)) :
    (d.advance xs.length).Ahead ys := by
  refine ⟨Nat.mod_lt _ (by omega), ?_⟩
  rw [advance_data, advance_position, ← List.drop_drop, h.drop, List.drop_left]

theorem Ahead.tail {d : BitDecoder} {b : Bool} {bits : List Bool} (h : d.Ahead (b :: bits)) :
    (d.advance 1).Ahead bits :=
  (show d.Ahead ([b] ++ bits) from h).advance

/-- The byte under the position, and the bits of it that are still ahead. -/
theorem Ahead.byte {d : BitDecoder} {bits : List Bool} (h : d.Ahead bits) (hne : bits ≠ []) :
    ∃ byte, d.data[d.byteOffset]? = some byte ∧
      bits = natBits (8 - d.bitOffset) byte.toNat ++ toBits (d.data.drop (d.byteOffset + 1)) := by
  have hlt := h.lt
  have hd := h.drop
  rw [position, ← List.drop_drop, toBits_drop] at hd
  cases hb : d.data.drop d.byteOffset with
  | nil => exact absurd (by simpa [hb] using hd.symm) hne
  | cons byte rest =>
    have hrest : d.data.drop (d.byteOffset + 1) = rest := by
      rw [← List.drop_drop, hb, List.drop_one, List.tail_cons]
    refine ⟨byte, by rw [← List.head?_drop, hb, List.head?_cons], ?_⟩
    have hs := byteBits_split byte (show 8 - d.bitOffset ≤ 8 by omega)
    rw [hb, toBits_cons, List.drop_append_of_le_length (by simp; omega), hs,
      List.drop_left' (by simp; omega)] at hd
    rw [← hd, hrest]

theorem Ahead.byteOffset_lt {d : BitDecoder} {bits : List Bool} (h : d.Ahead bits) (hne : bits ≠ []) :
    d.byteOffset < d.data.length := by
  obtain ⟨byte, hbyte, -⟩ := h.byte hne
  exact (List.getElem?_eq_some_iff.mp hbyte).1

theorem Ahead.not_eod {d : BitDecoder} {bits : List Bool} (h : d.Ahead bits) (hne : bits ≠ []) : ¬ d.eod = true := by
  rw [eod, decide_eq_true_eq, not_le]
  exact h.byteOffset_lt hne

theorem readBit_ahead {d : BitDecoder} {b : Bool} {bits : List Bool} (h : d.Ahead (b :: bits)) :
    d.readBit = .ok (b, d.advance 1) := by
  obtain ⟨byte, hbyte, hbits⟩ := h.byte (by simp)
  have hlt := h.lt
  rw [show 8 - d.bitOffset = (7 - d.bitOffset) + 1 by omega, natBits_succ, List.cons_append] at hbits
  have hb := (List.cons.inj hbits).1
  simp only [readBit, hbyte, ← hb, advance, position]
  split
  · congr 3 <;> omega
  · congr 3 <;> omega

theorem readContinuation_eq {fuel k : Nat} (hk : k ≤ fuel) (acc m : Nat) (rest : Bytes) :
    readContinuation (BitEncoder.continuation fuel k ++ rest) acc m =
      .ok (acc + k <<< m, (BitEncoder.continuation fuel k).length) := by
  induction fuel generalizing k acc m with
  | zero =>
    obtain rfl : k = 0 := by omega
    simp [BitEncoder.continuation, readContinuation]
  | succ fuel ih =>
    by_cases hlt : k ≥ 128
    · have hmod : k &&& 127 = k % 128 := Nat.and_two_pow_sub_one_eq_mod k 7
      have hb : (UInt8.ofNat ((k &&& 127) + 128)).toNat = k % 128 + 128 := by
        rw [UInt8.toNat_ofNat', hmod]
        omega
      have hlow : (k % 128 + 128) &&& 127 = k % 128 := by
        rw [show (127 : Nat) = 2 ^ 7 - 1 by rfl, Nat.and_two_pow_sub_one_eq_mod]
        omega
      have hhigh : (k % 128 + 128) &&& 128 ≠ 0 := by
        intro hz
        have ht := congrArg (Nat.testBit · 7) hz
        rw [Nat.testBit_and, Nat.add_comm, Nat.testBit_two_pow_add_eq (x := k % 128) (i := 7)] at ht
        rw [Nat.testBit_lt_two_pow (x := k % 128) (i := 7) (by omega)] at ht
        revert ht
        decide
      have hshift : k >>> 7 = k / 128 := Nat.shiftRight_eq_div_pow k 7
      have hsum : (k % 128) <<< m + (k / 128) <<< (m + 7) = k <<< m := by
        simp only [Nat.shiftLeft_eq, Nat.pow_add]
        have := Nat.div_add_mod k 128
        calc k % 128 * 2 ^ m + k / 128 * (2 ^ m * 2 ^ 7)
            = (128 * (k / 128) + k % 128) * 2 ^ m := by ring
          _ = k * 2 ^ m := by rw [this]
      simp only [BitEncoder.continuation, hlt, if_true, List.cons_append, readContinuation, hb,
        hlow, hhigh, if_false, ih (show k >>> 7 ≤ fuel by rw [hshift]; omega), Except.map,
        List.length_cons]
      rw [Nat.add_assoc, hshift, hsum]
    · have hb : (UInt8.ofNat k).toNat = k := by
        rw [UInt8.toNat_ofNat']
        omega
      have hlow : k &&& 127 = k := by
        rw [show (127 : Nat) = 2 ^ 7 - 1 by rfl, Nat.and_two_pow_sub_one_eq_mod]
        omega
      have hhigh : k &&& 128 = 0 := by
        apply Nat.eq_of_testBit_eq
        intro i
        rw [Nat.testBit_and, show (128 : Nat) = 2 ^ 7 by rfl, Nat.testBit_two_pow]
        by_cases hi : 7 = i
        · subst hi
          simp [Nat.testBit_lt_two_pow (x := k) (i := 7) (by omega)]
        · simp [hi]
      simp [BitEncoder.continuation, hlt, readContinuation, hb, hlow, hhigh]

theorem hpackIntBits_length (n i : Nat) : ∃ c, (BitEncoder.hpackIntBits n i).length = n + 8 * c := by
  unfold BitEncoder.hpackIntBits
  split
  · exact ⟨0, by simp⟩
  · exact ⟨(BitEncoder.continuation (i - (2 ^ n - 1)) (i - (2 ^ n - 1))).length, by simp⟩

theorem readHpackInt_ahead {d : BitDecoder} {i : Nat} {bits : List Bool}
    (h : d.Ahead (BitEncoder.hpackIntBits (8 - d.bitOffset) i ++ bits)) :
    d.readHpackInt = .ok (i, d.advance (BitEncoder.hpackIntBits (8 - d.bitOffset) i).length) := by
  have hlt := h.lt
  have hne : BitEncoder.hpackIntBits (8 - d.bitOffset) i ++ bits ≠ [] := by
    obtain ⟨c, hc⟩ := hpackIntBits_length (8 - d.bitOffset) i
    intro he
    have := congrArg List.length he
    simp only [List.length_append, hc, List.length_nil] at this
    omega
  obtain ⟨byte, hbyte, hbits⟩ := h.byte hne
  obtain ⟨n, hn⟩ : ∃ n, 8 - d.bitOffset = n := ⟨_, rfl⟩
  simp only [hn] at hbits ⊢
  have hpos := Nat.two_pow_pos n
  have hmod := Nat.mod_lt byte.toNat hpos
  simp only [readHpackInt, hbyte, hn, Nat.and_two_pow_sub_one_eq_mod]
  by_cases hi : i < 2 ^ n - 1
  · simp only [BitEncoder.hpackIntBits, hi, if_true] at hbits ⊢
    obtain ⟨hp, -⟩ := List.append_inj hbits (by simp)
    have hv : i = byte.toNat % 2 ^ n :=
      natBits_inj (by omega) hmod (by rw [natBits_mod, hp])
    rw [if_pos (by omega), ← hv]
    simp only [natBits_length, advance, position]
    congr 3 <;> omega
  · simp only [BitEncoder.hpackIntBits, hi, if_false, List.append_assoc] at hbits ⊢
    obtain ⟨hp, hr⟩ := List.append_inj hbits (by simp)
    have hv : 2 ^ n - 1 = byte.toNat % 2 ^ n :=
      natBits_inj (by omega) hmod (by rw [natBits_mod, hp])
    obtain ⟨rest, hrest, -⟩ := eq_append_of_toBits hr.symm
    rw [if_neg (by omega), ← hv, hrest, readContinuation_eq (le_refl _)]
    simp only [Except.map, Nat.shiftLeft_zero, List.length_append, natBits_length, toBits_length,
      advance, position]
    rw [Nat.add_sub_cancel' (by omega)]
    congr 3 <;> omega

theorem readChar_ahead {d : BitDecoder} {c : UInt8} {bits : List Bool}
    (h : d.Ahead (byteBits c ++ bits)) (ho : d.bitOffset = 0) :
    d.readChar = .ok (c, d.advance 8) := by
  obtain ⟨byte, hbyte, hbits⟩ := h.byte (by simp [byteBits, natBits_succ])
  rw [ho] at hbits
  obtain ⟨hc, -⟩ := List.append_inj hbits (by simp)
  rw [byteBits_inj hc, readChar, ho, hbyte]
  simp only [ne_eq, not_true, if_false, advance, position, ho]
  congr 3 <;> omega

end BitDecoder

end TornadoHttp2
