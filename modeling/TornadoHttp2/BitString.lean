import Mathlib.Data.Nat.Bitwise
import Mathlib.Data.List.Basic
import Mathlib.Tactic.Ring

/-! Bytes as strings of bits, most significant bit first. Nothing here depends
on a particular encoder: these are the facts a bit-level reader or writer is
compared with. -/

namespace BitString

/-- The low `n` bits of `v`, most significant first. -/
def natBits (n v : Nat) : List Bool :=
  (List.range n).map fun i => v.testBit (n - 1 - i)

def byteBits (b : UInt8) : List Bool := natBits 8 b.toNat

def toBits (bs : List UInt8) : List Bool := bs.flatMap byteBits

@[simp] theorem natBits_length (n v : Nat) : (natBits n v).length = n := by simp [natBits]

@[simp] theorem byteBits_length (b : UInt8) : (byteBits b).length = 8 := by simp [byteBits]

@[simp] theorem toBits_nil : toBits [] = [] := rfl

@[simp] theorem toBits_cons (b : UInt8) (bs : List UInt8) :
    toBits (b :: bs) = byteBits b ++ toBits bs := rfl

@[simp] theorem toBits_append (bs cs : List UInt8) :
    toBits (bs ++ cs) = toBits bs ++ toBits cs := by simp [toBits]

@[simp] theorem toBits_length (bs : List UInt8) : (toBits bs).length = 8 * bs.length := by
  induction bs with
  | nil => rfl
  | cons b bs ih => simp [ih]; omega

theorem natBits_zero_left (v : Nat) : natBits 0 v = [] := rfl

theorem natBits_zero_right (n : Nat) : natBits n 0 = List.replicate n false := by
  apply List.ext_getElem <;> simp [natBits]

theorem natBits_succ (n v : Nat) : natBits (n + 1) v = v.testBit n :: natBits n v := by
  simp only [natBits, List.range_succ_eq_map, List.map_cons, List.map_map]
  refine List.cons_eq_cons.mpr ⟨by simp, List.map_congr_left fun i _ => ?_⟩
  simp only [Function.comp_apply]
  congr 1
  omega

theorem natBits_add (m n v : Nat) : natBits (m + n) v = natBits m (v >>> n) ++ natBits n v := by
  induction m with
  | zero => simp [natBits_zero_left]
  | succ m ih =>
    rw [show m + 1 + n = (m + n) + 1 by omega, natBits_succ, natBits_succ, ih,
      Nat.testBit_shiftRight, Nat.add_comm n m, List.cons_append]

theorem natBits_mod (n v : Nat) : natBits n (v % 2 ^ n) = natBits n v := by
  refine List.map_congr_left fun i hi => ?_
  have := List.mem_range.mp hi
  simp only [Nat.testBit_mod_two_pow, decide_eq_true (show n - 1 - i < n by omega), Bool.true_and]

theorem natBits_inj {n v w : Nat} (hv : v < 2 ^ n) (hw : w < 2 ^ n)
    (h : natBits n v = natBits n w) : v = w := by
  apply Nat.eq_of_testBit_eq
  intro i
  by_cases hi : i < n
  · have hg := congrArg (fun l => l[n - 1 - i]?) h
    simpa [natBits, show n - 1 - i < n by omega, show n - 1 - (n - 1 - i) = i by omega] using hg
  · have hle : 2 ^ n ≤ 2 ^ i := Nat.pow_le_pow_right (by omega) (by omega)
    rw [Nat.testBit_lt_two_pow (by omega), Nat.testBit_lt_two_pow (by omega)]

theorem byteBits_inj {b c : UInt8} (h : byteBits b = byteBits c) : b = c :=
  UInt8.toNat_inj.mp (natBits_inj b.toNat_lt c.toNat_lt h)

theorem toBits_inj {bs cs : List UInt8} (h : toBits bs = toBits cs) : bs = cs := by
  induction bs generalizing cs with
  | nil =>
    have := congrArg List.length h
    simp only [toBits_nil, List.length_nil, toBits_length] at this
    exact (List.length_eq_zero_iff.mp (by omega)).symm
  | cons b bs ih =>
    cases cs with
    | nil => simpa using congrArg List.length h
    | cons c cs =>
      obtain ⟨hb, hr⟩ := List.append_inj h (by simp)
      rw [byteBits_inj hb, ih hr]

/-- A byte string whose bits start with those of `cs` starts with `cs`. -/
theorem eq_append_of_toBits {bs cs : List UInt8} {rest : List Bool}
    (h : toBits bs = toBits cs ++ rest) : ∃ ds, bs = cs ++ ds ∧ toBits ds = rest := by
  have hlen := congrArg List.length h
  simp only [toBits_length, List.length_append] at hlen
  have ht : toBits (bs.take cs.length) ++ toBits (bs.drop cs.length) = toBits cs ++ rest := by
    rw [← toBits_append, List.take_append_drop, h]
  obtain ⟨hc, hd⟩ := List.append_inj ht (by simp; omega)
  refine ⟨bs.drop cs.length, ?_, hd⟩
  have he := List.take_append_drop cs.length bs
  rw [toBits_inj hc] at he
  exact he.symm

theorem toBits_drop (bs : List UInt8) (i : Nat) :
    (toBits bs).drop (8 * i) = toBits (bs.drop i) := by
  induction i generalizing bs with
  | zero => simp
  | succ i ih =>
    cases bs with
    | nil => simp
    | cons b bs =>
      rw [toBits_cons, List.drop_append, List.drop_eq_nil_of_le (by simp), byteBits_length,
        List.nil_append, show 8 * (i + 1) - 8 = 8 * i by omega, ih, List.drop_succ_cons]

theorem byteBits_split (b : UInt8) {n : Nat} (hn : n ≤ 8) :
    byteBits b = natBits (8 - n) (b.toNat >>> n) ++ natBits n b.toNat := by
  have := natBits_add (8 - n) n b.toNat
  rwa [Nat.sub_add_cancel hn] at this

/-- Or-ing a value below `2 ^ n` into a byte whose low `n` bits are clear
writes these bits and leaves the others. -/
theorem byteBits_or {b : UInt8} {n v : Nat} {p : List Bool} (hn : n ≤ 8) (hv : v < 2 ^ n)
    (hb : byteBits b = p ++ List.replicate n false) :
    byteBits (b ||| UInt8.ofNat v) = p ++ natBits n v := by
  have hlen := congrArg List.length hb
  simp only [byteBits_length, List.length_append, List.length_replicate] at hlen
  have hs := byteBits_split b hn
  rw [hb] at hs
  obtain ⟨hp, hz⟩ := List.append_inj hs (by simp; omega)
  have hv8 : v < 2 ^ 8 := hv.trans_le (Nat.pow_le_pow_right (by omega) hn)
  have hor : (b ||| UInt8.ofNat v).toNat = b.toNat ||| v := by
    rw [UInt8.toNat_or, UInt8.toNat_ofNat', Nat.mod_eq_of_lt hv8]
  rw [byteBits_split _ hn, hor, Nat.shiftRight_or_distrib, Nat.shiftRight_eq_div_pow v n,
    Nat.div_eq_of_lt hv, Nat.or_zero, ← hp]
  congr 1
  refine List.map_congr_left fun i hi => ?_
  have hclear : b.toNat.testBit (n - 1 - i) = false := by
    have hg := congrArg (fun l => l[i]?) hz
    simpa [natBits, List.mem_range.mp hi] using hg.symm
  simp only [Nat.testBit_or, hclear, Bool.false_or]

theorem natBits_shift_bit (n : Nat) (b : Bool) :
    natBits (n + 1) (b.toNat <<< n) = b :: List.replicate n false := by
  rw [natBits_succ]
  refine List.cons_eq_cons.mpr ⟨by cases b <;> simp, ?_⟩
  rw [← natBits_mod, ← natBits_zero_right n]
  congr 1
  rw [Nat.shiftLeft_eq]
  exact Nat.mul_mod_left _ _

end BitString
