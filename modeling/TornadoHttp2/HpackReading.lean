import TornadoHttp2.HuffmanCode
import TornadoHttp2.Hpack

/-! The decoder's readers on a block that starts with a given representation:
each returns what the representation stands for and stops right after it. -/

namespace TornadoHttp2

open BitString BitDecoder

namespace Decoding

def advance (s : Decoding) (k : Nat) : Decoding := { s with bits := s.bits.advance k }

@[simp] theorem advance_bits (s : Decoding) (k : Nat) : (s.advance k).bits = s.bits.advance k := rfl

@[simp] theorem advance_tree (s : Decoding) (k : Nat) : (s.advance k).tree = s.tree := rfl

@[simp] theorem advance_table (s : Decoding) (k : Nat) : (s.advance k).table = s.table := rfl

@[simp] theorem advance_advance (s : Decoding) (j k : Nat) :
    (s.advance j).advance k = s.advance (j + k) := by
  simp [advance]

theorem advance_zero {s : Decoding} {bits : List Bool} (h : s.bits.Ahead bits) :
    s.advance 0 = s := by
  simp [advance, h.advance_zero]

end Decoding

theorem BitDecoder.bitOffset_advance {d : BitDecoder} {k : Nat} (h : d.bitOffset = 0) :
    (d.advance k).bitOffset = k % 8 := by
  simp only [BitDecoder.advance, position, h]
  omega

/-- The payload of a string literal. -/
def stringPayload (huffman : Bool) (s : Bytes) : Bytes :=
  if huffman then (BitEncoder.new.writeHuffmanString s).data else s

def stringBits (huffman : Bool) (s : Bytes) : List Bool :=
  huffman :: (BitEncoder.hpackIntBits 7 (stringPayload huffman s).length ++
    toBits (stringPayload huffman s))

theorem stringBits_length (huffman : Bool) (s : Bytes) :
    ∃ n, (stringBits huffman s).length = 8 * (n + 1) := by
  obtain ⟨c, hc⟩ := hpackIntBits_length 7 (stringPayload huffman s).length
  refine ⟨c + (stringPayload huffman s).length, ?_⟩
  simp only [stringBits, List.length_cons, List.length_append, hc, toBits_length]
  omega

namespace HpackDecoder

open Prog

theorem readBit_ahead {s : Decoding} {b : Bool} {bits : List Bool}
    (h : s.bits.Ahead (b :: bits)) : readBit.run s = (.ok b, s.advance 1) := by
  simp [readBit, read, BitDecoder.readBit_ahead h, Decoding.advance]

theorem readHpackInt_ahead {s : Decoding} {n i : Nat} {bits : List Bool}
    (h : s.bits.Ahead (BitEncoder.hpackIntBits n i ++ bits)) (hn : 8 - s.bits.bitOffset = n) :
    readHpackInt.run s = (.ok i, s.advance (BitEncoder.hpackIntBits n i).length) := by
  subst hn
  simp [readHpackInt, read, BitDecoder.readHpackInt_ahead h, Decoding.advance]

theorem readChars_ahead {s : Decoding} {str : Bytes} {bits : List Bool}
    (h : s.bits.Ahead (toBits str ++ bits)) (ho : s.bits.bitOffset = 0) :
    (readChars str.length).run s = (.ok str, s.advance (toBits str).length) := by
  induction str generalizing s with
  | nil => simp [readChars, Decoding.advance_zero h]
  | cons c str ih =>
    rw [toBits_cons, List.append_assoc] at h
    have hc : (read BitDecoder.readChar).run s = (.ok c, s.advance 8) := by
      simp [read, readChar_ahead h ho, Decoding.advance]
    have hrest : (s.advance 8).bits.Ahead (toBits str ++ bits) := by simpa using h.advance
    have hih := ih hrest (by rw [Decoding.advance_bits, bitOffset_advance ho])
    rw [List.length_cons, readChars, bind_ok hc, bind_ok hih]
    simp [Nat.add_comm 8]

theorem readHuffmanChar_code {s : Decoding} {destByte : Nat} {c : UInt8} {bits : List Bool}
    (ht : s.tree.Complete) (h : s.bits.Ahead (huffmanMap c ++ bits))
    (hdest : s.bits.position + (huffmanMap c).length ≤ 8 * destByte) :
    (readHuffmanChar destByte).run s = (.ok (some c), s.advance (huffmanMap c).length) := by
  have hfuel : (huffmanMap c).length ≤ 8 * (destByte - s.bits.byteOffset) := by
    simp only [position] at hdest
    omega
  simp [readHuffmanChar, BitDecoder.readHuffmanChar,
    walk_code _ (ht.code c) (huffmanMap_ne_nil c) h hfuel hdest, Decoding.advance]

theorem readHuffmanChar_padding {s : Decoding} {destByte k : Nat} {bits : List Bool} (hk : k < 8)
    (ht : s.tree.Complete) (h : s.bits.Ahead (List.replicate k true ++ bits))
    (hdest : s.bits.position + k = 8 * destByte) :
    (readHuffmanChar destByte).run s = (.ok none, s.advance k) := by
  have hfuel : (List.replicate k true).length ≤ 8 * (destByte - s.bits.byteOffset) := by
    simp only [position, List.length_replicate] at hdest ⊢
    omega
  simp [readHuffmanChar, BitDecoder.readHuffmanChar,
    walk_padding _ (ht.padding k hk) h hfuel (by simpa using hdest), Decoding.advance]

/-- The characters of a Huffman literal, then its padding. The induction is on
the characters; the loop ends at `destByte`, or inside the padding before it. -/
theorem readHuffmanChars_ahead {s : Decoding} {destByte k : Nat} (fuel : Nat) {str : Bytes}
    {bits : List Bool} (hk : k < 8) (ht : s.tree.Complete)
    (h : s.bits.Ahead (str.flatMap huffmanMap ++ (List.replicate k true ++ bits)))
    (hdest : s.bits.position + ((str.flatMap huffmanMap).length + k) = 8 * destByte)
    (hfuel : (str.flatMap huffmanMap).length + k ≤ fuel) :
    (readHuffmanChars destByte fuel).run s =
      (.ok str, s.advance ((str.flatMap huffmanMap).length + k)) := by
  induction str generalizing s fuel with
  | nil =>
    simp only [List.flatMap_nil, List.nil_append, List.length_nil, Nat.zero_add] at h hdest hfuel ⊢
    cases fuel with
    | zero =>
      obtain rfl : k = 0 := by omega
      simp [readHuffmanChars, Decoding.advance_zero h]
    | succ fuel =>
      rw [readHuffmanChars, run_get_bind]
      by_cases hlt : s.bits.byteOffset < destByte
      · rw [if_pos hlt, bind_ok (readHuffmanChar_padding hk ht h hdest)]
        rfl
      · have hpos := mt (byteOffset_lt_iff h.lt).mpr hlt
        obtain rfl : k = 0 := by omega
        simp [hlt, Decoding.advance_zero h]
  | cons c str ih =>
    have hne : 0 < (huffmanMap c).length := List.length_pos_of_ne_nil (huffmanMap_ne_nil c)
    simp only [List.flatMap_cons, List.length_append, List.append_assoc] at h hdest hfuel ⊢
    obtain ⟨fuel, rfl⟩ : ∃ n, fuel = n + 1 := ⟨fuel - 1, by omega⟩
    have hlt : s.bits.byteOffset < destByte := (byteOffset_lt_iff h.lt).mpr (by omega)
    have hih := ih (s := s.advance (huffmanMap c).length) fuel ht
      (by simpa using h.advance) (by rw [Decoding.advance_bits, advance_position]; omega) (by omega)
    rw [readHuffmanChars, run_get_bind, if_pos hlt,
      bind_ok (readHuffmanChar_code ht h (by omega)), bind_ok hih]
    simp [Nat.add_assoc]

theorem readString_ahead {s : Decoding} {huffman : Bool} {str : Bytes} {bits : List Bool}
    (ht : s.tree.Complete) (h : s.bits.Ahead (stringBits huffman str ++ bits))
    (ho : s.bits.bitOffset = 0) :
    readString.run s = (.ok str, s.advance (stringBits huffman str).length) := by
  have hstr : (stringBits huffman str).length =
      1 + ((BitEncoder.hpackIntBits 7 (stringPayload huffman str).length).length +
        (toBits (stringPayload huffman str)).length) := by
    simp [stringBits]
    omega
  simp only [stringBits, List.cons_append, List.append_assoc] at h
  have h1 : (s.advance 1).bits.Ahead _ := h.tail
  have hi := readHpackInt_ahead h1 (by rw [Decoding.advance_bits, bitOffset_advance ho])
  have h2 := h1.advance
  rw [readString, bind_ok (readBit_ahead h), bind_ok hi]
  obtain ⟨s2, hs2⟩ : ∃ s2, (s.advance 1).advance
      (BitEncoder.hpackIntBits 7 (stringPayload huffman str).length).length = s2 := ⟨_, rfl⟩
  have hfin : s.advance (stringBits huffman str).length =
      s2.advance (toBits (stringPayload huffman str)).length := by
    rw [← hs2, hstr, Decoding.advance_advance, Decoding.advance_advance, ← Nat.add_assoc]
  have hoff : s2.bits.bitOffset = 0 := by
    obtain ⟨c, hc⟩ := hpackIntBits_length 7 (stringPayload huffman str).length
    rw [← hs2, Decoding.advance_advance, Decoding.advance_bits, bitOffset_advance ho, hc]
    omega
  have ht2 : s2.tree.Complete := by rw [← hs2]; exact ht
  have hahead : s2.bits.Ahead (toBits (stringPayload huffman str) ++ bits) := by
    rw [← hs2]; exact h2
  rw [hs2, hfin]
  cases huffman with
  | false => exact readChars_ahead hahead hoff
  | true =>
    obtain ⟨k, hk, hbits⟩ := BitEncoder.writeHuffmanString_toBits str
    have hpay : toBits (stringPayload true str) =
        str.flatMap huffmanMap ++ List.replicate k true := hbits
    have hlen := congrArg List.length hpay
    simp only [toBits_length, List.length_append, List.length_replicate] at hlen
    rw [hpay, List.append_assoc] at hahead
    rw [toBits_length, hlen]
    simp only [if_true]
    rw [run_get_bind]
    exact readHuffmanChars_ahead _ hk ht2 hahead
      (by simp only [position, hoff]; omega) (by omega)

end HpackDecoder

end TornadoHttp2
