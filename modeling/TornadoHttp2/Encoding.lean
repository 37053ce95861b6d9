import TornadoHttp2.HuffmanData
import TornadoHttp2.Constants

/-! Bit-level writers and readers. `BitEncoder` grows a byte array whose last
byte may be partly written; `BitDecoder` walks a fixed byte array. An exception
leaves the decoder unusable, so a failing read returns no decoder. -/

namespace TornadoHttp2

structure BitEncoder where
  data : Bytes
  bitOffset : Nat
  deriving DecidableEq, Repr

namespace BitEncoder

def new : BitEncoder := ⟨[], 8⟩

/-- `self._data[-1] |= v`. -/
def orLast (data : Bytes) (v : Nat) : Bytes :=
  data.dropLast ++ [data.getLastD 0 ||| UInt8.ofNat v]

def writeBit (e : BitEncoder) (b : Bool) : BitEncoder :=
  let e := if e.bitOffset > 7 then ⟨e.data ++ [0], 0⟩ else e
  ⟨orLast e.data (b.toNat <<< (7 - e.bitOffset)), e.bitOffset + 1⟩

def writeBits (e : BitEncoder) (bits : List Bool) : BitEncoder := bits.foldl writeBit e

/-- The `while i >= 128` loop of `write_hpack_int` and the final append. -/
def continuation : (fuel i : Nat) → Bytes
  | 0, i => [UInt8.ofNat i]
  | fuel + 1, i =>
    if i ≥ 128 then UInt8.ofNat ((i &&& 127) + 128) :: continuation fuel (i >>> 7)
    else [UInt8.ofNat i]

def writeHpackInt (e : BitEncoder) (i : Nat) : BitEncoder :=
  let n := 8 - e.bitOffset
  let data := if n = 0 then e.data ++ [0] else e.data
  let n := if n = 0 then 8 else n
  if i < 2 ^ n - 1 then ⟨orLast data i, 8⟩
  else
    let i := i - (2 ^ n - 1)
    ⟨orLast data (2 ^ n - 1) ++ continuation i i, 8⟩

def writeHuffmanChar (e : BitEncoder) (c : UInt8) : BitEncoder := e.writeBits (huffmanMap c)

/-- The `while self._bit_offset != 8` loop, at most eight passes long. -/
def fillOnes : (fuel : Nat) → BitEncoder → BitEncoder
  | 0, e => e
  | fuel + 1, e => if e.bitOffset ≠ 8 then fillOnes fuel (e.writeBit true) else e

def writeHuffmanString (e : BitEncoder) (s : Bytes) : BitEncoder :=
  fillOnes 8 (s.foldl writeHuffmanChar e)

def writeString (e : BitEncoder) (s : Bytes) : Except PyException BitEncoder :=
  if e.bitOffset = 8 then .ok ⟨e.data ++ s, e.bitOffset⟩ else .error .assertionError

end BitEncoder

/-- The self-extending dictionaries of `_tree`: a key that was never looked up
is `missing`. -/
inductive HuffmanTree
  | missing
  | leaf (char : UInt8)
  | node (zero one : HuffmanTree)
  deriving DecidableEq, Repr

namespace HuffmanTree

def empty : HuffmanTree := .node .missing .missing

/-- What `tree_node[b]` gives: the default dictionary comes into being here. -/
def child : HuffmanTree → Bool → HuffmanTree
  | .node .missing _, false => empty
  | .node _ .missing, true => empty
  | .node zero _, false => zero
  | .node _ one, true => one
  | _, _ => empty

def setChild : HuffmanTree → Bool → HuffmanTree → HuffmanTree
  | .node _ one, false, t => .node t one
  | .node zero _, true, t => .node zero t
  | _, false, t => .node t .missing
  | _, true, t => .node .missing t

def insert : HuffmanTree → List Bool → UInt8 → HuffmanTree
  | _, [], c => .leaf c
  | t, b :: bits, c => t.setChild b ((t.child b).insert bits c)

end HuffmanTree

/-- `_huffman_tree` as `_load_huffman_data` leaves it. -/
def huffmanTree : HuffmanTree :=
  (List.range 256).foldl (fun t i => t.insert (huffmanMap (UInt8.ofNat i)) (UInt8.ofNat i))
    HuffmanTree.empty

structure BitDecoder where
  data : Bytes
  byteOffset : Nat
  bitOffset : Nat
  deriving DecidableEq, Repr

namespace BitDecoder

def new (data : Bytes) : BitDecoder := ⟨data, 0, 0⟩

def eod (d : BitDecoder) : Bool := d.byteOffset ≥ d.data.length

def readBit (d : BitDecoder) : Except PyException (Bool × BitDecoder) :=
  match d.data[d.byteOffset]? with
  | none => .error .eodError
  | some byte =>
    let bit := byte.toNat.testBit (7 - d.bitOffset)
    if d.bitOffset + 1 > 7 then .ok (bit, ⟨d.data, d.byteOffset + 1, 0⟩)
    else .ok (bit, ⟨d.data, d.byteOffset, d.bitOffset + 1⟩)

/-- The `while True` loop of `read_hpack_int` over the bytes still ahead: the
value and the number of bytes taken. -/
def readContinuation : Bytes → (i m : Nat) → Except PyException (Nat × Nat)
  | [], _, _ => .error .indexError
  | b :: rest, i, m =>
    let i := i + (b.toNat &&& 0x7f) <<< m
    if b.toNat &&& 0x80 = 0 then .ok (i, 1)
    else (readContinuation rest i (m + 7)).map fun r => (r.1, r.2 + 1)

def readHpackInt (d : BitDecoder) : Except PyException (Nat × BitDecoder) :=
  match d.data[d.byteOffset]? with
  | none => .error .indexError
  | some byte =>
    let prefixMask := 2 ^ (8 - d.bitOffset) - 1
    let i := byte.toNat &&& prefixMask
    if i < prefixMask then .ok (i, ⟨d.data, d.byteOffset + 1, 0⟩)
    else
      (readContinuation (d.data.drop (d.byteOffset + 1)) i 0).map fun r =>
        (r.1, ⟨d.data, d.byteOffset + 1 + r.2, 0⟩)

/-- The `while self._byte_offset < limit` loop from the node reached so far,
with that node as the walk leaves it. Each pass takes a bit, so the bits before
`limit` bound the number of passes. -/
def walk (limit : Nat) :
    (fuel : Nat) → HuffmanTree → BitDecoder →
      Except PyException (Option UInt8 × BitDecoder) × HuffmanTree
  | 0, t, d => (.ok (none, d), t)
  | fuel + 1, t, d =>
    if d.byteOffset < limit then
      match d.readBit with
      | .error e => (.error e, t)
      | .ok (b, d') =>
        match t.child b with
        | .leaf c => (.ok (some c, d'), t)
        | child =>
          let (r, child') := walk limit fuel child d'
          (r, t.setChild b child')
    else (.ok (none, d), t)

/-- `limit` is `None` for the whole decoder. -/
def readHuffmanChar (tree : HuffmanTree) (limit : Option Nat) (d : BitDecoder) :
    Except PyException (Option UInt8 × BitDecoder) × HuffmanTree :=
  let limit := limit.getD d.data.length
  walk limit (8 * (limit - d.byteOffset)) tree d

def readChar (d : BitDecoder) : Except PyException (UInt8 × BitDecoder) :=
  if d.bitOffset ≠ 0 then .error .assertionError
  else
    match d.data[d.byteOffset]? with
    | none => .error .indexError
    | some ch => .ok (ch, ⟨d.data, d.byteOffset + 1, d.bitOffset⟩)

end BitDecoder

end TornadoHttp2
