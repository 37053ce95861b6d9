import TornadoHttp2.DynamicTable
import TornadoHttp2.Writers

/-! The encoder's table stays within its limit, so the indexes that the encoder
writes and the header block of a response without headers are short. -/

namespace TornadoHttp2

open Prog

structure HpackEncoder.Small (enc : HpackEncoder) : Prop where
  sized : enc.table.Sized
  limit : enc.table.limit ≤ 4096
  plain : enc.encodeHuffman = false

namespace HpackEncoder

theorem entries_le_totalSize (entries : List (Bytes × Bytes)) :
    32 * entries.length ≤ DynamicTable.totalSize entries := by
  induction entries with
  | nil => simp
  | cons e rest ih =>
    have hentry : 32 ≤ DynamicTable.entrySize e.1 e.2 := by simp [DynamicTable.entrySize]
    rw [DynamicTable.totalSize_cons, List.length_cons]
    omega

theorem staticTable_findIdx_lt {p : Option (Bytes × Option Bytes) → Bool} {idx : Nat}
    (h : staticTable.findIdx? p = some idx) : idx < 62 := (List.findIdx?_eq_some_iff_getElem.mp h).1

variable {enc : HpackEncoder}

theorem Small.findPairIndex_lt (h : enc.Small) {k v : Bytes} {idx : Nat}
    (hidx : enc.findPairIndex k v = some idx) : idx < 190 := by
  rw [findPairIndex, Option.or_eq_some_iff] at hidx
  rcases hidx with hstatic | ⟨-, hdynamic⟩
  · have := staticTable_findIdx_lt hstatic
    omega
  · obtain ⟨j, hj, rfl⟩ := Option.map_eq_some_iff.mp hdynamic
    have hlt : j < enc.table.entries.length := (List.findIdx?_eq_some_iff_getElem.mp hj).1
    have hentries := entries_le_totalSize enc.table.entries
    have hsize := h.sized.size
    have hle := h.sized.le
    have hlimit := h.limit
    have hstatic : staticTable.length = 62 := rfl
    omega

theorem add_small {k v : Bytes} : Keeps Small Anything (addToDynamicTable k v) := fun enc h => by
  obtain ⟨t, ht, hsized, hlimit⟩ := DynamicTable.add_ok h.sized k v
  have hrun : ((addToDynamicTable k v).run enc).2 = { enc with table := t } := by
    rw [addToDynamicTable, run_zoom, ht]
  rw [hrun]
  exact ⟨⟨hsized, hlimit.trans_le h.limit, h.plain⟩, trivial⟩

theorem writeString_small {e : BitEncoder} {s : Bytes} : Keeps Small Anything (writeString e s) :=
  .get_bind fun _ _ => .ofExcept _

theorem writeHeader_small {e : BitEncoder} {k v : Bytes} {mode : HeaderIndexMode} :
    Keeps Small Anything (writeHeader e k v mode) := by
  have writeMode : Keeps Small Anything (writeMode e k v mode) := by
    cases mode with
    | yes => exact .bind add_small fun _ => .pure _
    | no | never => exact .pure _
  unfold writeHeader
  refine .get_bind fun enc _ => ?_
  split
  · exact .pure _
  · refine .bind writeMode fun e => .get_bind fun enc _ => ?_
    dsimp only
    split
    · exact .bind (.pure _) fun _ => writeString_small
    · exact .bind writeString_small fun _ => writeString_small

theorem encode_small (headerList : List (Bytes × Bytes × HeaderIndexMode)) :
    Keeps Small Anything (encode headerList) := by
  have loop (e : BitEncoder) : Keeps Small Anything (encodeLoop e headerList) := by
    induction headerList generalizing e with
    | nil => exact .pure _
    | cons header rest ih => exact .bind writeHeader_small fun e => ih e
  exact .bind (loop _) fun _ => .pure _

theorem Small.encodes {enc' : HpackEncoder} (h : enc.Small) (he : Encodes enc enc') : enc'.Small := by
  rcases he with rfl | ⟨headerList, rfl⟩
  · exact h
  · exact (encode_small headerList enc h).1

theorem continuation_length {k fuel i : Nat} (h : i < 2 ^ (7 * (k + 1))) :
    (BitEncoder.continuation fuel i).length ≤ k + 1 := by
  induction fuel generalizing i k with
  | zero => simp [BitEncoder.continuation]
  | succ fuel ih =>
    rw [BitEncoder.continuation]
    split
    · cases k with
      | zero => omega
      | succ k =>
        have hshift : i >>> 7 < 2 ^ (7 * (k + 1)) := by
          rw [Nat.shiftRight_eq_div_pow, Nat.div_lt_iff_lt_mul (Nat.two_pow_pos 7), ← Nat.pow_add]
          exact h
        exact Nat.succ_le_succ (ih hshift)
    · simp

theorem orLast_length {data : Bytes} {v n : Nat} (h : data.length ≤ n) (hn : 0 < n) :
    (BitEncoder.orLast data v).length ≤ n := by
  rw [BitEncoder.orLast, List.length_append, List.length_dropLast, List.length_singleton]
  omega

theorem writeHpackInt_length {e : BitEncoder} {i : Nat} (h : i < 2 ^ 35) :
    (e.writeHpackInt i).data.length ≤ e.data.length + 6 := by
  have hdata : (if 8 - e.bitOffset = 0 then e.data ++ [0] else e.data).length ≤ e.data.length + 1 := by
    split <;> simp
  simp only [BitEncoder.writeHpackInt]
  generalize (if 8 - e.bitOffset = 0 then e.data ++ [0] else e.data) = data at hdata ⊢
  generalize (if 8 - e.bitOffset = 0 then 8 else 8 - e.bitOffset) = n
  split
  · have hlast := orLast_length (v := i) hdata (Nat.succ_pos _)
    dsimp only
    omega
  · rw [List.length_append]
    have hlast := orLast_length (v := 2 ^ n - 1) hdata (Nat.succ_pos _)
    have hcontinuation : (BitEncoder.continuation (i - (2 ^ n - 1)) (i - (2 ^ n - 1))).length ≤ 4 + 1 :=
      continuation_length (by omega)
    omega

theorem writeBit_length {e : BitEncoder} {b : Bool} : (e.writeBit b).data.length ≤ e.data.length + 1 := by
  rw [BitEncoder.writeBit]
  split
  · exact orLast_length (by simp) (Nat.succ_pos _)
  · exact orLast_length (Nat.le_succ _) (Nat.succ_pos _)

theorem writeBits_length {e : BitEncoder} {bits : List Bool} :
    (e.writeBits bits).data.length ≤ e.data.length + bits.length := by
  rw [BitEncoder.writeBits]
  induction bits generalizing e with
  | nil => exact le_refl _
  | cons b bits ih =>
    rw [List.foldl_cons, List.length_cons]
    have := ih (e := e.writeBit b)
    have := writeBit_length (e := e) (b := b)
    omega

theorem writeString_length {e : BitEncoder} {s : Bytes} (hplain : enc.encodeHuffman = false)
    (hs : s.length < 2 ^ 35) : wp (writeString e s)
      (fun e' enc' => e'.data.length ≤ e.data.length + 7 + s.length ∧ enc' = enc) (fun _ _ => True) enc := by
  rw [writeString, wp_bind, wp_get]
  simp only [hplain, Bool.false_eq_true, if_false]
  rw [BitEncoder.writeString]
  split
  · refine ⟨?_, rfl⟩
    have hbit := writeBit_length (e := e) (b := false)
    have hint := writeHpackInt_length (e := e.writeBit false) hs
    rw [List.length_append]
    omega
  · trivial

theorem writeMode_length {e : BitEncoder} {k v : Bytes} {mode : HeaderIndexMode} (h : enc.Small) :
    wp (writeMode e k v mode) (fun e' enc' => e'.data.length ≤ e.data.length + 4 ∧ enc'.Small)
      (fun _ _ => True) enc := by
  cases mode with
  | yes =>
    rw [writeMode, wp_bind]
    refine add_small.wp h (fun _ enc' henc' _ => ⟨?_, henc'⟩) fun _ _ _ _ => trivial
    exact writeBits_length.trans (by simp)
  | no | never => exact ⟨writeBits_length, h⟩

/-- A literal is no longer than the entry that it would make. -/
theorem writeHeader_length {e : BitEncoder} {k v : Bytes} {mode : HeaderIndexMode} (h : enc.Small)
    (hk : k.length < 2 ^ 35) (hv : v.length < 2 ^ 35) : wp (writeHeader e k v mode)
      (fun e' enc' => e'.data.length ≤ e.data.length + DynamicTable.entrySize k v ∧ enc'.Small)
      (fun _ _ => True) enc := by
  rw [writeHeader, wp_bind, wp_get]
  cases hpair : enc.findPairIndex k v with
  | some idx =>
    refine ⟨?_, h⟩
    have hidx := h.findPairIndex_lt hpair
    have hbit := writeBit_length (e := e) (b := true)
    have hint := writeHpackInt_length (e := e.writeBit true) (i := idx) (by omega)
    rw [DynamicTable.entrySize]
    omega
  | none =>
    dsimp only
    rw [wp_bind]
    refine wp_mono (writeMode_length h) (fun e₁ enc₁ h₁ => ?_) fun _ _ _ => trivial
    obtain ⟨hmode, hsmall⟩ := h₁
    have hvalue {e₂ : BitEncoder} (hname : e₂.data.length ≤ e₁.data.length + 13 + k.length) :
        wp (writeString e₂ v) (fun e' enc' => e'.data.length ≤ e.data.length + DynamicTable.entrySize k v ∧
          enc'.Small) (fun _ _ => True) enc₁ := by
      refine wp_mono (writeString_length hsmall.plain hv) (fun e' enc' h' => ⟨?_, h'.2 ▸ hsmall⟩) fun _ _ _ => trivial
      have hstring := h'.1
      rw [DynamicTable.entrySize]
      omega
    rw [wp_bind, wp_get]
    split
    · rename_i idx hidx
      have hlt : idx < 62 := by
        rcases Option.or_eq_some_iff.mp hidx with hstatic | ⟨-, hdynamic⟩
        · exact staticTable_findIdx_lt hstatic
        · obtain ⟨j, hj, -⟩ := Option.map_eq_some_iff.mp hdynamic
          obtain ⟨hlength, hkey, -⟩ := List.findIdx?_eq_some_iff_getElem.mp hj
          cases hkey
      rw [wp_bind, wp_pure]
      have hint := writeHpackInt_length (e := e₁) (i := idx) (by omega)
      exact hvalue (by omega)
    · rw [wp_bind]
      have hint := writeHpackInt_length (e := e₁) (i := 0) (by omega)
      refine wp_mono (writeString_length hsmall.plain hk) (fun e' enc' h' => ?_) fun _ _ _ => trivial
      rw [h'.2]
      exact hvalue (by omega)

/-- A header block takes no more bytes than the table of its headers would. -/
theorem encode_length (h : enc.Small) {headerList : List (Bytes × Bytes × HeaderIndexMode)}
    (hsize : DynamicTable.totalSize (headerList.map fun h => (lower h.1, h.2.1)) < 2 ^ 35) :
    wp (encode headerList) (fun data _ =>
      data.length ≤ DynamicTable.totalSize (headerList.map fun h => (lower h.1, h.2.1))) (fun _ _ => True) enc := by
  have hloop {e : BitEncoder} : wp (encodeLoop e headerList) (fun e' _ => e'.data.length ≤
      e.data.length + DynamicTable.totalSize (headerList.map fun h => (lower h.1, h.2.1))) (fun _ _ => True) enc := by
    induction headerList generalizing e enc with
    | nil => exact Nat.le_add_right _ _
    | cons header rest ih =>
      obtain ⟨k, v, mode⟩ := header
      rw [List.map_cons, DynamicTable.totalSize_cons] at hsize ⊢
      dsimp only at hsize ⊢
      have hentry : DynamicTable.entrySize (lower k) v = (lower k).length + v.length + 32 := rfl
      rw [encodeLoop, wp_bind]
      refine wp_mono (writeHeader_length h (by omega) (by omega)) (fun e₁ enc₁ h₁ => ?_) fun _ _ _ => trivial
      refine wp_mono (ih h₁.2 (by omega)) (fun e' _ h' => ?_) fun _ _ _ => trivial
      have hheader := h₁.1
      omega
  rw [encode, wp_bind]
  refine wp_mono hloop (fun e' _ h' => ?_) fun _ _ _ => trivial
  simpa [BitEncoder.new] using h'

/-- The header block of the 431 response: an index, or a literal with an indexed
name. -/
theorem encode_status_wp (h : enc.Small) : wp (encode [(ascii ":status", ascii "431", .yes)])
    (fun data _ => data.length ≤ 5) (fun _ _ => True) enc := by
  have hblock {e : BitEncoder} {c : HpackEncoder} (he : e.data.length ≤ 5) :
      wp (pure e >>= fun e => pure e.data : Prog HpackEncoder PyException Bytes)
        (fun data _ => data.length ≤ 5) (fun _ _ => True) c := he
  have hindex : ∀ idx < 190, ((BitEncoder.new.writeBit true).writeHpackInt idx).data.length ≤ 5 := by
    decide +kernel
  have hname : staticKeys (lower (ascii ":status")) = some 8 := by decide +kernel
  rw [encode, wp_bind, encodeLoop, wp_bind, writeHeader, wp_bind, wp_get]
  cases hpair : enc.findPairIndex (lower (ascii ":status")) (ascii "431") with
  | some idx => exact hindex idx (h.findPairIndex_lt hpair)
  | none =>
    obtain ⟨t, ht, -, -⟩ := DynamicTable.add_ok h.sized (lower (ascii ":status")) (ascii "431")
    have hadd : (addToDynamicTable (lower (ascii ":status")) (ascii "431")).run enc =
        (.ok (), { enc with table := t }) := by
      rw [addToDynamicTable, run_zoom, ht]
    dsimp only
    rw [writeMode, wp_bind, wp_bind, wp_of_ok hadd, wp_pure, wp_bind, wp_get, findKeyIndex, hname]
    have hliteral : (((((BitEncoder.new.writeBits [false, true]).writeHpackInt 8).writeBit false).writeHpackInt
        (ascii "431").length).writeString (ascii "431")) = .ok ⟨[0x48, 3, 0x34, 0x33, 0x31], 8⟩ := by
      decide +kernel
    simp only [Option.some_or, h.plain, writeString, wp_bind, wp_pure, wp_get, Bool.false_eq_true, if_false,
      hliteral]
    exact le_refl 5

end HpackEncoder

end TornadoHttp2
