import TornadoHttp2.FieldReading

/-! Where decoding ends. Every loop of `decode` ends by itself: more passes than
the bound of its definition would change nothing. A string ends with the last
byte of its payload, whatever the payload is, so every pass of `decode` starts
with a byte, and the last one ends with the last byte of the block. -/

namespace TornadoHttp2

open BitString Prog

namespace BitDecoder

variable {limit fuel fuel' : Nat} {t : HuffmanTree} {d : BitDecoder}

theorem walk_stops (hlt : d.bitOffset < 8) (h : 8 * limit ≤ d.position) (fuel : Nat) :
    walk limit fuel t d = (.ok (none, d), t) := by
  cases fuel with
  | zero => rfl
  | succ fuel => rw [walk, if_neg (by rw [byteOffset_lt_iff hlt]; omega)]

/-- Once the bound covers the bits before the limit, the walk does not depend on it. -/
theorem walk_passes (hlt : d.bitOffset < 8) (h : 8 * limit ≤ d.position + fuel) (h' : 8 * limit ≤ d.position + fuel') :
    walk limit fuel t d = walk limit fuel' t d := by
  induction fuel generalizing fuel' t d with
  | zero => rw [walk_stops hlt h, walk_stops hlt h]
  | succ fuel ih =>
    cases fuel' with
    | zero => rw [walk_stops hlt h', walk_stops hlt h']
    | succ fuel' =>
      rw [walk, walk]
      split
      · cases hread : d.readBit with
        | error e => rfl
        | ok r =>
          obtain ⟨b, d'⟩ := r
          obtain ⟨-, hlt', hmoved⟩ := readBit_moves hlt hread
          have hrest := @ih fuel' (t.child b) d' hlt' (by omega) (by omega)
          dsimp only
          revert hrest
          cases t.child b with
          | leaf c => exact fun _ => rfl
          | _ =>
            intro hrest
            dsimp only
            rw [hrest]
      · rfl

end BitDecoder

namespace HpackDecoder

variable {s s' : Decoding}

theorem readHuffmanChars_stops {destByte : Nat} (hlt : s.bits.bitOffset < 8) (h : 8 * destByte ≤ s.bits.position)
    (fuel : Nat) : (readHuffmanChars destByte fuel).run s = (.ok [], s) := by
  cases fuel with
  | zero => rfl
  | succ fuel =>
    rw [readHuffmanChars, run_get_bind, if_neg (by rw [BitDecoder.byteOffset_lt_iff hlt]; omega), run_pure]

theorem readHuffmanChar_moves {destByte : Nat} {c : UInt8} (hlt : s.bits.bitOffset < 8)
    (hbefore : s.bits.byteOffset < destByte) (h : (readHuffmanChar destByte).run s = (.ok (some c), s')) :
    s'.bits.bitOffset < 8 ∧ s.bits.position < s'.bits.position := by
  have hwalk := @BitDecoder.walk_end destByte (8 * (destByte - s.bits.byteOffset)) s.tree s.bits hlt
    ((BitDecoder.byteOffset_lt_iff hlt).mp hbefore).le (by simp only [BitDecoder.position]; omega)
  rw [readHuffmanChar] at h
  dsimp only [BitDecoder.readHuffmanChar, Option.getD_some] at h
  rcases hrun : BitDecoder.walk destByte (8 * (destByte - s.bits.byteOffset)) s.tree s.bits with ⟨e | ⟨c, d⟩, tree⟩ <;>
    rw [hrun] at h hwalk <;> cases h
  exact ⟨hwalk.2.1, hwalk.2.2.2⟩

theorem readHuffmanChars_passes {destByte fuel fuel' : Nat} (hlt : s.bits.bitOffset < 8)
    (h : 8 * destByte ≤ s.bits.position + fuel) (h' : 8 * destByte ≤ s.bits.position + fuel') :
    (readHuffmanChars destByte fuel).run s = (readHuffmanChars destByte fuel').run s := by
  induction fuel generalizing fuel' s with
  | zero => rw [readHuffmanChars_stops hlt h, readHuffmanChars_stops hlt h]
  | succ fuel ih =>
    cases fuel' with
    | zero => rw [readHuffmanChars_stops hlt h', readHuffmanChars_stops hlt h']
    | succ fuel' =>
      rw [readHuffmanChars, readHuffmanChars, run_get_bind, run_get_bind]
      split
      · rename_i hbefore
        rcases hchar : (readHuffmanChar destByte).run s with ⟨e | _ | c, s₁⟩
        · rw [bind_error hchar, bind_error hchar]
        · rw [bind_ok hchar, bind_ok hchar]
        · rw [bind_ok hchar, bind_ok hchar]
          obtain ⟨hlt', hmoved⟩ := readHuffmanChar_moves hlt hbefore hchar
          have hrest := @ih s₁ fuel' hlt' (by omega) (by omega)
          dsimp only
          rw [run_bind, run_bind, hrest]
      · rfl

/-- A raw string is its bytes. -/
theorem readChars_end {length : Nat} (hoffset : s.bits.bitOffset = 0) :
    wp (readChars length) (fun _ s' => s'.bits = ⟨s.bits.data, s.bits.byteOffset + length, 0⟩) (fun _ _ => True) s := by
  induction length generalizing s with
  | zero =>
    obtain ⟨⟨data, byteOffset, bitOffset⟩, tree, table⟩ := s
    subst hoffset
    rfl
  | succ length ih =>
    rw [readChars, wp_bind, wp_read]
    split
    · rename_i c d hread
      have hd : d = ⟨s.bits.data, s.bits.byteOffset + 1, 0⟩ := by
        rw [BitDecoder.readChar, if_neg (not_not.mpr hoffset)] at hread
        split at hread <;> cases hread
        rw [hoffset]
      subst hd
      refine wp_bind.mpr (wp_mono (ih rfl) (fun chars s' h => ?_) fun _ _ _ => trivial)
      rw [wp_pure, h, Nat.add_assoc, Nat.add_comm 1]
    · trivial

/-- A Huffman string is its payload, whatever characters that stands for. -/
theorem readPayload_end {length : Nat} (hoffset : s.bits.bitOffset = 0) :
    wp (readHuffmanChars (s.bits.byteOffset + length) (8 * length))
      (fun _ s' => s'.bits = ⟨s.bits.data, s.bits.byteOffset + length, 0⟩) (fun _ _ => True) s := by
  have hpos : s.bits.position = 8 * s.bits.byteOffset := by rw [BitDecoder.position, hoffset, Nat.add_zero]
  refine wp_mono (readHuffmanChars_end (by omega) (by omega) (by omega)) (fun _ s' h => ?_) fun _ _ _ => trivial
  obtain ⟨hdata, hlt, hend⟩ := h
  rw [← hdata]
  obtain ⟨⟨data, byteOffset, bitOffset⟩, tree, table⟩ := s'
  simp only [BitDecoder.position] at hend hlt
  simp only [BitDecoder.mk.injEq, true_and]
  omega

theorem readString_end {str : Bytes} (h : readString.run s = (.ok str, s')) :
    ∃ isHuffman length d d', s.bits.readBit = .ok (isHuffman, d) ∧ d.readHpackInt = .ok (length, d') ∧
      s'.bits = ⟨d'.data, d'.byteOffset + length, 0⟩ := by
  have hend : wp readString (fun _ s' => ∃ isHuffman length d d', s.bits.readBit = .ok (isHuffman, d) ∧
      d.readHpackInt = .ok (length, d') ∧ s'.bits = ⟨d'.data, d'.byteOffset + length, 0⟩) (fun _ _ => True) s := by
    rw [readString, wp_bind, readBit, wp_read]
    split
    · rename_i isHuffman d hbit
      rw [wp_bind, readHpackInt, wp_read]
      split
      · rename_i length d' hint
        have hoffset := readHpackInt_bitOffset hint
        refine wp_ite.mpr ⟨fun _ => ?_, fun _ => ?_⟩
        · rw [wp_bind, wp_get]
          exact wp_mono (readPayload_end (s := { s with bits := d' }) hoffset)
            (fun _ t ht => ⟨isHuffman, length, d, d', hbit, hint, ht⟩) fun _ _ _ => trivial
        · exact wp_mono (readChars_end hoffset) (fun _ t ht => ⟨isHuffman, length, d, d', hbit, hint, ht⟩)
            fun _ _ _ => trivial
      · trivial
    · trivial
  rwa [wp_of_ok h] at hend

/-- A field takes at least one byte and ends with a byte of the block. -/
theorem decodeField_advances {allowed : Bool} {header : Option (Bytes × Option Bytes × HeaderIndexMode)}
    (hoffset : s.bits.bitOffset = 0) (h : (decodeField allowed).run s = (.ok header, s')) :
    s'.bits.data = s.bits.data ∧ s'.bits.bitOffset = 0 ∧ s.bits.byteOffset < s'.bits.byteOffset ∧
      s'.bits.byteOffset ≤ s.bits.data.length := by
  have hahead : s.bits.Ahead ((toBits s.bits.data).drop s.bits.position) := ⟨by omega, rfl⟩
  have haligned : s'.bits.bitOffset = 0 := (wp_of_ok h).mp (Aligned.decodeField s)
  obtain ⟨taken, ⟨rest, hbits⟩, htakes⟩ := @Reads.decodeField allowed s.bits.byteOffset _ _ _ _ hahead h
  have hbits' : s'.bits = s.bits.advance taken.length := by
    have hsame := htakes rfl (hbits ▸ hahead) rfl
    rw [h] at hsame
    exact congrArg (fun r => r.2.bits) hsame
  -- a field cannot be read from nothing
  have hne : taken.length ≠ 0 := by
    intro hnil
    rw [List.length_eq_zero_iff] at hnil
    subst hnil
    have hnothing := @htakes 0 ⟨[], 0, 0⟩ [] hoffset.symm ⟨by decide, rfl⟩ (Nat.add_comm _ _)
    cases hnothing
  have hlength := congrArg List.length hbits
  rw [List.length_append, List.length_drop, toBits_length] at hlength
  have hpos := BitDecoder.advance_position s.bits taken.length
  rw [← hbits'] at hpos
  simp only [BitDecoder.position, hoffset, haligned] at hpos hlength
  refine ⟨by rw [hbits']; rfl, haligned, by omega, by omega⟩

theorem decodeLoop_stops {fuel : Nat} {allowed : Bool} (h : s.bits.eod = true) :
    (decodeLoop fuel allowed).run s = (.ok [], s) := by
  cases fuel with
  | zero => rfl
  | succ fuel => rw [decodeLoop, run_get_bind, if_pos h, run_pure]

theorem decodeLoop_passes {fuel fuel' : Nat} {allowed : Bool} (hoffset : s.bits.bitOffset = 0)
    (h : s.bits.data.length ≤ s.bits.byteOffset + fuel) (h' : s.bits.data.length ≤ s.bits.byteOffset + fuel') :
    (decodeLoop fuel allowed).run s = (decodeLoop fuel' allowed).run s := by
  induction fuel generalizing fuel' allowed s with
  | zero =>
    have heod : s.bits.eod = true := decide_eq_true h
    rw [decodeLoop_stops heod, decodeLoop_stops heod]
  | succ fuel ih =>
    by_cases heod : s.bits.eod = true
    · rw [decodeLoop_stops heod, decodeLoop_stops heod]
    have hbefore : s.bits.byteOffset < s.bits.data.length := by
      rw [BitDecoder.eod, decide_eq_true_eq] at heod
      omega
    obtain ⟨fuel', rfl⟩ : ∃ m, fuel' = m + 1 := ⟨fuel' - 1, by omega⟩
    rw [decodeLoop, decodeLoop, run_get_bind, run_get_bind, if_neg heod, if_neg heod]
    rcases hfield : (decodeField allowed).run s with ⟨e | header, s₁⟩
    · rw [bind_error hfield, bind_error hfield]
    obtain ⟨hdata, hoffset', hmoved, hend⟩ := decodeField_advances hoffset hfield
    rw [← hdata] at h h' hend
    have hrest (allowed : Bool) := @ih s₁ fuel' allowed hoffset' (by omega) (by omega)
    rw [bind_ok hfield, bind_ok hfield]
    cases header with
    | none => exact hrest allowed
    | some header =>
      dsimp only
      rw [run_bind, run_bind, hrest false]

theorem decodeLoop_end {fuel : Nat} {allowed : Bool} {headers : List (Bytes × Option Bytes × HeaderIndexMode)}
    (hoffset : s.bits.bitOffset = 0) (hle : s.bits.byteOffset ≤ s.bits.data.length)
    (hfuel : s.bits.data.length ≤ s.bits.byteOffset + fuel)
    (h : (decodeLoop fuel allowed).run s = (.ok headers, s')) :
    s'.bits.bitOffset = 0 ∧ s'.bits.byteOffset = s.bits.data.length := by
  induction fuel generalizing allowed s headers with
  | zero =>
    cases h
    exact ⟨hoffset, by omega⟩
  | succ fuel ih =>
    rw [decodeLoop, run_get_bind] at h
    split at h
    · rename_i heod
      cases h
      rw [BitDecoder.eod, decide_eq_true_eq] at heod
      exact ⟨hoffset, by omega⟩
    rcases hfield : (decodeField allowed).run s with ⟨e | header, s₁⟩
    · rw [bind_error hfield] at h
      cases h
    obtain ⟨hdata, hoffset', hmoved, hend⟩ := decodeField_advances hoffset hfield
    rw [bind_ok hfield] at h
    rw [← hdata] at hle hfuel hend ⊢
    cases header with
    | none => exact ih hoffset' (by omega) (by omega) h
    | some header =>
      dsimp only at h
      rcases hrest : (decodeLoop fuel false).run s₁ with ⟨e | rest, s₂⟩
      · rw [bind_error hrest] at h
        cases h
      · rw [bind_ok hrest] at h
        cases h
        exact ih hoffset' (by omega) (by omega) hrest

/-- The states in which the passes of the loop of `decode` start. -/
def passes : (fuel : Nat) → (limitUpdateAllowed : Bool) → Decoding → List Decoding
  | 0, _, _ => []
  | fuel + 1, limitUpdateAllowed, s =>
    if s.bits.eod then []
    else s :: match (decodeField limitUpdateAllowed).run s with
      | (.ok none, s') => passes fuel limitUpdateAllowed s'
      | (.ok (some _), s') => passes fuel false s'
      | (.error _, _) => []

theorem passes_aligned {fuel : Nat} {allowed : Bool} (hoffset : s.bits.bitOffset = 0) :
    ∀ p ∈ passes fuel allowed s, p.bits.bitOffset = 0 := by
  induction fuel generalizing allowed s with
  | zero => simp [passes]
  | succ fuel ih =>
    rw [passes]
    split
    · simp
    rw [List.forall_mem_cons]
    refine ⟨hoffset, ?_⟩
    rcases hfield : (decodeField allowed).run s with ⟨e | _ | header, s₁⟩
    · simp
    · exact ih (decodeField_advances hoffset hfield).2.1
    · exact ih (decodeField_advances hoffset hfield).2.1

/-- Decoding `data` ends, pass by pass on byte boundaries and at the end of the data. -/
structure Ends (d : HpackDecoder) (tree : HuffmanTree) (data : Bytes) : Prop where
  terminates (fuel : Nat) : data.length ≤ fuel → (decodeLoop fuel true).run ⟨.new data, tree, d.table⟩ =
    (decodeLoop data.length true).run ⟨.new data, tree, d.table⟩
  aligned : ∀ s ∈ passes data.length true ⟨.new data, tree, d.table⟩, s.bits.bitOffset = 0
  advances : ∀ s ∈ passes data.length true ⟨.new data, tree, d.table⟩, ∀ allowed header s',
    (decodeField allowed).run s = (.ok header, s') → s.bits.byteOffset < s'.bits.byteOffset ∧ s'.bits.bitOffset = 0
  finished {headers : List (Bytes × Option Bytes × HeaderIndexMode)} {s : Decoding} :
    (decodeLoop data.length true).run ⟨.new data, tree, d.table⟩ = (.ok headers, s) →
    s.bits.bitOffset = 0 ∧ s.bits.byteOffset = data.length

/-- The loops of `read_string` end, and with the last byte of the payload. -/
structure StringEnds (s : Decoding) : Prop where
  bits (tree : HuffmanTree) (limit fuel : Nat) : s.bits.bitOffset < 8 → 8 * (limit - s.bits.byteOffset) ≤ fuel →
    BitDecoder.walk limit fuel tree s.bits = BitDecoder.walk limit (8 * (limit - s.bits.byteOffset)) tree s.bits
  characters (length fuel : Nat) : s.bits.bitOffset = 0 → 8 * length ≤ fuel →
    (readHuffmanChars (s.bits.byteOffset + length) fuel).run s =
      (readHuffmanChars (s.bits.byteOffset + length) (8 * length)).run s
  exact {str : Bytes} {s' : Decoding} : readString.run s = (.ok str, s') →
    ∃ isHuffman length d d', s.bits.readBit = .ok (isHuffman, d) ∧ d.readHpackInt = .ok (length, d') ∧
      s'.bits = ⟨d'.data, d'.byteOffset + length, 0⟩

/-- Whatever the block holds, decoding it ends and stays aligned. -/
theorem decoding_ends (d : HpackDecoder) (tree : HuffmanTree) (data : Bytes) :
    Ends d tree data ∧ ∀ s, StringEnds s := by
  constructor
  · refine ⟨fun fuel h => ?_, passes_aligned rfl, fun s hs allowed header s' h => ?_, fun h => ?_⟩
    · exact decodeLoop_passes rfl (by simpa [BitDecoder.new] using h) (by simp [BitDecoder.new])
    · obtain ⟨-, hoffset, hmoved, -⟩ := decodeField_advances (passes_aligned rfl s hs) h
      exact ⟨hmoved, hoffset⟩
    · exact decodeLoop_end rfl (Nat.zero_le _) (by simp [BitDecoder.new]) h
  · intro s
    refine ⟨fun tree limit fuel hlt h => ?_, fun length fuel hoffset h => ?_, readString_end⟩
    · exact BitDecoder.walk_passes hlt (by rw [BitDecoder.position]; omega) (by rw [BitDecoder.position]; omega)
    · have hpos : s.bits.position = 8 * s.bits.byteOffset := by rw [BitDecoder.position, hoffset, Nat.add_zero]
      exact readHuffmanChars_passes (by omega) (by omega) (by omega)

end HpackDecoder

end TornadoHttp2
