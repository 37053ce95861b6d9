import TornadoHttp2.HuffmanLiterals

/-! Sequences of bit-level operations. What a value takes up in the data depends
on the offset at which it is written, and the reader has the same offset when it
gets there. -/

namespace TornadoHttp2

open BitString

/-- A value that `BitEncoder` writes at any offset. -/
inductive BitValue
  | bit (b : Bool)
  | hpackInt (i : Nat)
  | huffmanChar (c : UInt8)
  deriving DecidableEq, Repr

inductive BitKind
  | bit | hpackInt | huffmanChar
  deriving DecidableEq, Repr

namespace BitValue

/-- The call that reads such a value. -/
def kind : BitValue → BitKind
  | bit _ => .bit
  | hpackInt _ => .hpackInt
  | huffmanChar _ => .huffmanChar

/-- The bits that the value takes up after so many other bits. -/
def bits (offset : Nat) : BitValue → List Bool
  | bit b => [b]
  | hpackInt i => BitEncoder.hpackIntBits (8 - offset % 8) i
  | huffmanChar c => huffmanMap c

/-- The bits of one value after the other. -/
def allBits : (offset : Nat) → List BitValue → List Bool
  | _, [] => []
  | offset, v :: values => v.bits offset ++ allBits (offset + (v.bits offset).length) values

end BitValue

namespace BitEncoder

def writeValue (e : BitEncoder) : BitValue → BitEncoder
  | .bit b => e.writeBit b
  | .hpackInt i => e.writeHpackInt i
  | .huffmanChar c => e.writeHuffmanChar c

/-- The number of bits that have been written. -/
def position (e : BitEncoder) : Nat := 8 * e.data.length - (8 - e.bitOffset)

variable {e : BitEncoder} {bits : List Bool}

theorem Holds.position (h : e.Holds bits) : e.position = bits.length := by
  have hlength := congrArg List.length h.data
  simp only [toBits_length, List.length_append, List.length_replicate] at hlength
  rw [BitEncoder.position]
  omega

theorem Holds.drop (h : e.Holds bits) :
    (toBits e.data).drop e.position = List.replicate (8 - e.bitOffset) false := by
  rw [h.position, h.data, List.drop_left]

theorem writeValue_holds (h : e.Holds bits) (v : BitValue) :
    (e.writeValue v).Holds (bits ++ v.bits bits.length) := by
  cases v with
  | bit b => exact (writeBit_holds h b).1
  | hpackInt i =>
    have hprefix : (if e.bitOffset = 8 then 8 else 8 - e.bitOffset) = 8 - bits.length % 8 := by
      have hmod := h.bitOffset_mod
      have hpos := h.pos
      have hle := h.le
      split <;> omega
    rw [BitValue.bits, ← hprefix]
    exact (writeHpackInt_holds h i).1
  | huffmanChar c => exact writeBits_holds h (huffmanMap c)

theorem writeValues_holds (h : e.Holds bits) (values : List BitValue) :
    (values.foldl writeValue e).Holds (bits ++ BitValue.allBits bits.length values) := by
  induction values generalizing e bits with
  | nil => simpa [BitValue.allBits] using h
  | cons v values ih =>
    have hrest := ih (writeValue_holds h v)
    rw [List.append_assoc, List.length_append] at hrest
    exact hrest

end BitEncoder

namespace BitDecoder

/-- The call for a value of the kind; a Huffman character may be `None`. -/
def readValue (tree : HuffmanTree) (d : BitDecoder) :
    BitKind → Except PyException (Option BitValue × BitDecoder) × HuffmanTree
  | .bit => (d.readBit.map fun r => (some (.bit r.1), r.2), tree)
  | .hpackInt => (d.readHpackInt.map fun r => (some (.hpackInt r.1), r.2), tree)
  | .huffmanChar =>
    let (r, tree) := readHuffmanChar tree none d
    (r.map fun r => (r.1.map .huffmanChar, r.2), tree)

def readValues (tree : HuffmanTree) (d : BitDecoder) :
    List BitKind → Except PyException (List (Option BitValue) × BitDecoder) × HuffmanTree
  | [] => (.ok ([], d), tree)
  | kind :: kinds =>
    match readValue tree d kind with
    | (.error e, tree) => (.error e, tree)
    | (.ok (value, d), tree) =>
      let (r, tree) := readValues tree d kinds
      (r.map fun r => (value :: r.1, r.2), tree)

variable {tree : HuffmanTree} {d : BitDecoder}

theorem Ahead.length {bits : List Bool} (h : d.Ahead bits) (hne : bits ≠ []) :
    d.position + bits.length = 8 * d.data.length := by
  have hlength := congrArg List.length h.drop
  rw [List.length_drop, toBits_length] at hlength
  have hpos := List.length_pos_iff.mpr hne
  omega

theorem readHuffmanChar_ahead {c : UInt8} {bits : List Bool} (ht : tree.Complete)
    (h : d.Ahead (huffmanMap c ++ bits)) :
    readHuffmanChar tree none d = (.ok (some c, d.advance (huffmanMap c).length), tree) := by
  have hne := huffmanMap_ne_nil c
  have hlength := h.length (List.append_ne_nil_of_left_ne_nil hne bits)
  rw [List.length_append] at hlength
  have hlt := h.lt
  have hposition : d.position = 8 * d.byteOffset + d.bitOffset := rfl
  rw [readHuffmanChar, Option.getD_none]
  exact walk_code _ (ht.code c) hne h (by omega) (by omega)

theorem readValue_ahead {v : BitValue} {bits : List Bool} (ht : tree.Complete)
    (h : d.Ahead (v.bits d.position ++ bits)) :
    readValue tree d v.kind = (.ok (some v, d.advance (v.bits d.position).length), tree) := by
  cases v with
  | bit b =>
    rw [BitValue.kind, readValue, readBit_ahead h]
    rfl
  | hpackInt i =>
    have hlt := h.lt
    have hoffset : d.position % 8 = d.bitOffset := by
      rw [position]
      omega
    rw [BitValue.bits, hoffset] at h ⊢
    rw [BitValue.kind, readValue, readHpackInt_ahead h]
    rfl
  | huffmanChar c =>
    rw [BitValue.kind, readValue, readHuffmanChar_ahead ht h]
    rfl

theorem readValues_ahead {values : List BitValue} {bits : List Bool} (ht : tree.Complete)
    (h : d.Ahead (BitValue.allBits d.position values ++ bits)) :
    readValues tree d (values.map BitValue.kind) =
      (.ok (values.map some, d.advance (BitValue.allBits d.position values).length), tree) := by
  induction values generalizing d with
  | nil => simp [readValues, BitValue.allBits, h.advance_zero]
  | cons v values ih =>
    rw [BitValue.allBits, List.append_assoc] at h
    have hread := readValue_ahead ht h
    have hrest := h.advance
    rw [← advance_position] at hrest
    rw [List.map_cons, readValues, hread]
    dsimp only
    rw [ih hrest, BitValue.allBits, List.length_append, advance_position, advance_advance]
    rfl

end BitDecoder

/-- Whatever is written, reading it gives the same values, and ends where the
writing did; the bits after that are zero. -/
theorem reads_undo_writes {tree : HuffmanTree} (ht : HpackDecoder.SharedTree tree) (values : List BitValue) :
    let e := values.foldl BitEncoder.writeValue .new
    ∃ d : BitDecoder, BitDecoder.readValues tree (.new e.data) (values.map BitValue.kind) =
        (.ok (values.map some, d), tree) ∧ d.data = e.data ∧ d.position = e.position ∧
      ∃ k < 8, (toBits e.data).drop d.position = List.replicate k false := by
  intro e
  have hholds : e.Holds (BitValue.allBits 0 values) := BitEncoder.writeValues_holds BitEncoder.new_holds values
  have hahead : (BitDecoder.new e.data).Ahead
      (BitValue.allBits 0 values ++ List.replicate (8 - e.bitOffset) false) := hholds.data ▸ BitDecoder.new_ahead e.data
  refine ⟨_, BitDecoder.readValues_ahead ht.complete hahead, rfl, ?_, 8 - e.bitOffset, ?_, ?_⟩
  · rw [BitDecoder.advance_position, hholds.position]
    exact Nat.zero_add _
  · have hpos := hholds.pos
    omega
  · rw [BitDecoder.advance_position, ← hholds.drop, hholds.position]
    exact congrArg (fun k => List.drop k _) (Nat.zero_add _)

/-- A flag, an integer with a prefix of seven bits that goes on for a byte, two
letters, and the integer that they leave four bits for. -/
theorem reads_undo_writes_five :
    let e := [BitValue.bit true, .hpackInt 200, .huffmanChar 72, .huffmanChar 105, .hpackInt 6].foldl
      BitEncoder.writeValue .new
    ∃ d : BitDecoder, BitDecoder.readValues huffmanTree (.new e.data)
          [.bit, .hpackInt, .huffmanChar, .huffmanChar, .hpackInt] =
        (.ok ([.bit true, .hpackInt 200, .huffmanChar 72, .huffmanChar 105, .hpackInt 6].map some, d), huffmanTree) ∧
      d.data = e.data ∧ d.position = e.position ∧
      ∃ k < 8, (toBits e.data).drop d.position = List.replicate k false :=
  reads_undo_writes .loaded [.bit true, .hpackInt 200, .huffmanChar 72, .huffmanChar 105, .hpackInt 6]

end TornadoHttp2
