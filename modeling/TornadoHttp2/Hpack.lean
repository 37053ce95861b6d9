import TornadoHttp2.Encoding
import TornadoHttp2.Prog

/-! The HPACK coders. Encoder and decoder keep the same kind of dynamic table,
newest entry first. The Huffman tree is shared by every decoder of the process,
so decoding takes it and returns it. -/

namespace TornadoHttp2

/-- Entry 0 is a dummy; an entry without a listed value has `none`. -/
def staticTable : List (Option (Bytes × Option Bytes)) := [
  none,
  some (ascii ":authority", none),
  some (ascii ":method", some (ascii "GET")),
  some (ascii ":method", some (ascii "POST")),
  some (ascii ":path", some (ascii "/")),
  some (ascii ":path", some (ascii "/index.html")),
  some (ascii ":scheme", some (ascii "http")),
  some (ascii ":scheme", some (ascii "https")),
  some (ascii ":status", some (ascii "200")),
  some (ascii ":status", some (ascii "204")),
  some (ascii ":status", some (ascii "206")),
  some (ascii ":status", some (ascii "304")),
  some (ascii ":status", some (ascii "400")),
  some (ascii ":status", some (ascii "404")),
  some (ascii ":status", some (ascii "500")),
  some (ascii "accept-charset", none),
  some (ascii "accept-encoding", some (ascii "gzip, deflate")),
  some (ascii "accept-language", none),
  some (ascii "accept-ranges", none),
  some (ascii "accept", none),
  some (ascii "access-control-allow-origin", none),
  some (ascii "age", none),
  some (ascii "allow", none),
  some (ascii "authorization", none),
  some (ascii "cache-control", none),
  some (ascii "content-disposition", none),
  some (ascii "content-encoding", none),
  some (ascii "content-language", none),
  some (ascii "content-length", none),
  some (ascii "content-location", none),
  some (ascii "content-range", none),
  some (ascii "content-type", none),
  some (ascii "cookie", none),
  some (ascii "date", none),
  some (ascii "etag", none),
  some (ascii "expect", none),
  some (ascii "expires", none),
  some (ascii "from", none),
  some (ascii "host", none),
  some (ascii "if-match", none),
  some (ascii "if-modified-since", none),
  some (ascii "if-none-match", none),
  some (ascii "if-range", none),
  some (ascii "if-unmodified-since", none),
  some (ascii "last-modified", none),
  some (ascii "link", none),
  some (ascii "location", none),
  some (ascii "max-forwards", none),
  some (ascii "proxy-authenticate", none),
  some (ascii "proxy-authorization", none),
  some (ascii "range", none),
  some (ascii "referer", none),
  some (ascii "refresh", none),
  some (ascii "retry-after", none),
  some (ascii "server", none),
  some (ascii "set-cookie", none),
  some (ascii "strict-transport-security", none),
  some (ascii "transfer-encoding", none),
  some (ascii "user-agent", none),
  some (ascii "vary", none),
  some (ascii "via", none),
  some (ascii "www-authenticate", none)]

structure DynamicTable where
  entries : List (Bytes × Bytes)
  size : Int
  limit : Nat
  deriving DecidableEq, Repr

namespace DynamicTable

def new (limit : Nat) : DynamicTable := ⟨[], 0, limit⟩

def entrySize (name value : Bytes) : Nat := name.length + value.length + 32

/-- The `while` loop of `_gc_dynamic_table` on the entries from the oldest on:
popping an empty deque raises. -/
def gcFrom (limit : Nat) : (oldestFirst : List (Bytes × Bytes)) → Int →
    Except PyException Unit × List (Bytes × Bytes) × Int
  | [], size => (if size > limit then .error .indexError else .ok (), [], size)
  | (name, value) :: rest, size =>
    if size > limit then gcFrom limit rest (size - entrySize name value)
    else (.ok (), (name, value) :: rest, size)

def gc : Prog DynamicTable PyException Unit := ⟨fun t =>
  let (r, oldestFirst, size) := gcFrom t.limit t.entries.reverse t.size
  (r, ⟨oldestFirst.reverse, size, t.limit⟩)⟩

def add (name value : Bytes) : Prog DynamicTable PyException Unit := do
  Prog.modify fun t => { t with entries := (name, value) :: t.entries }
  Prog.modify fun t => { t with size := t.size + entrySize name value }
  gc

end DynamicTable

structure HpackDecoder where
  table : DynamicTable
  deriving DecidableEq, Repr

structure HpackEncoder where
  table : DynamicTable
  encodeHuffman : Bool
  deriving DecidableEq, Repr

/-- What a running `decode` reads and writes. -/
structure Decoding where
  bits : BitDecoder
  tree : HuffmanTree
  table : DynamicTable
  deriving DecidableEq, Repr

namespace HpackDecoder

open Prog

def new (limit : Nat) : HpackDecoder := ⟨.new limit⟩

def read {α : Type} (f : BitDecoder → Except PyException (α × BitDecoder)) :
    Prog Decoding PyException α := ⟨fun s =>
  match f s.bits with
  | .ok (a, d) => (.ok a, { s with bits := d })
  | .error e => (.error e, s)⟩

def readBit : Prog Decoding PyException Bool := read BitDecoder.readBit

def readHpackInt : Prog Decoding PyException Nat := read BitDecoder.readHpackInt

def readHuffmanChar (limit : Nat) : Prog Decoding PyException (Option UInt8) := ⟨fun s =>
  match BitDecoder.readHuffmanChar s.tree (some limit) s.bits with
  | (.ok (c, d), tree) => (.ok c, { s with bits := d, tree })
  | (.error e, tree) => (.error e, { s with tree })⟩

/-- The `while bit_decoder._byte_offset < dest_byte` loop of `read_string`. -/
def readHuffmanChars (destByte : Nat) : (fuel : Nat) → Prog Decoding PyException Bytes
  | 0 => pure []
  | fuel + 1 => do
    let s ← get
    if s.bits.byteOffset < destByte then
      match ← readHuffmanChar destByte with
      | none => pure []
      | some c => do
        let chars ← readHuffmanChars destByte fuel
        pure (c :: chars)
    else pure []

def readChars : (length : Nat) → Prog Decoding PyException Bytes
  | 0 => pure []
  | length + 1 => do
    let c ← read BitDecoder.readChar
    let chars ← readChars length
    pure (c :: chars)

def readString : Prog Decoding PyException Bytes := do
  let isHuffman ← readBit
  let length ← readHpackInt
  if isHuffman then do
    let s ← get
    -- every character takes a bit, so the bits of the literal bound the passes
    readHuffmanChars (s.bits.byteOffset + length) (8 * length)
  else readChars length

/-- Indexing `_static_table[0]` gives `None`, which does not unpack. -/
def readFromIndex (idx : Nat) : Prog Decoding PyException (Bytes × Option Bytes) := do
  let s ← get
  if idx < staticTable.length then
    match staticTable[idx]? with
    | some (some entry) => pure entry
    | _ => raise .typeError
  else
    match s.table.entries[idx - staticTable.length]? with
    | some (name, value) => pure (name, some value)
    | none => raise .indexError

def readNameValuePair : Prog Decoding PyException (Bytes × Bytes) := do
  let nameIndex ← readHpackInt
  let name ←
    if nameIndex = 0 then readString
    else do
      let entry ← readFromIndex nameIndex
      pure entry.1
  let value ← readString
  pure (name, value)

def onTable (m : Prog DynamicTable PyException Unit) : Prog Decoding PyException Unit :=
  zoom Decoding.table (fun s table => { s with table }) m

def addToDynamicTable (name value : Bytes) : Prog Decoding PyException Unit :=
  onTable (DynamicTable.add name value)

def setDynamicTableLimit (limit : Nat) : Prog Decoding PyException Unit :=
  onTable do
    modify fun t => { t with limit }
    DynamicTable.gc

/-- One pass of the loop of `decode`: the header it adds, if any. -/
def decodeField (limitUpdateAllowed : Bool) :
    Prog Decoding PyException (Option (Bytes × Option Bytes × HeaderIndexMode)) := do
  if ← readBit then
    let idx ← readHpackInt
    let (name, value) ← readFromIndex idx
    pure (some (name, value, .yes))
  else if ← readBit then
    let (name, value) ← readNameValuePair
    addToDynamicTable name value
    pure (some (name, some value, .yes))
  else if ← readBit then
    -- RFC 7541 section 4.2
    check (limitUpdateAllowed = false) .hpackError
    let newLimit ← readHpackInt
    setDynamicTableLimit newLimit
    pure none
  else
    let never ← readBit
    let (name, value) ← readNameValuePair
    pure (some (name, some value, if never then .never else .no))

/-- The loop of `decode`. A pass takes at least one byte, so the length of the
block bounds the number of passes. -/
def decodeLoop :
    (fuel : Nat) → (limitUpdateAllowed : Bool) →
      Prog Decoding PyException (List (Bytes × Option Bytes × HeaderIndexMode))
  | 0, _ => pure []
  | fuel + 1, limitUpdateAllowed => do
    let s ← get
    if s.bits.eod then pure []
    else
      match ← decodeField limitUpdateAllowed with
      | none => decodeLoop fuel limitUpdateAllowed
      | some header => do
        let headers ← decodeLoop fuel false
        pure (header :: headers)

/-- Every exception becomes an `HpackError`; the table keeps what was done to it
before. -/
def decode (d : HpackDecoder) (tree : HuffmanTree) (data : Bytes) :
    Except PyException (List (Bytes × Option Bytes × HeaderIndexMode)) × HpackDecoder × HuffmanTree :=
  match (decodeLoop data.length true).run ⟨.new data, tree, d.table⟩ with
  | (.ok headers, s) => (.ok headers, ⟨s.table⟩, s.tree)
  | (.error _, s) => (.error .hpackError, ⟨s.table⟩, s.tree)

end HpackDecoder

/-- `_static_pairs.get(pair)`. -/
def staticPairs (name value : Bytes) : Option Nat :=
  staticTable.findIdx? fun entry => entry = some (name, some value)

/-- `_static_keys.get(key)`: the first entry of that name. -/
def staticKeys (name : Bytes) : Option Nat :=
  staticTable.findIdx? fun entry => entry.any fun p => p.1 = name

namespace HpackEncoder

open Prog

def new (limit : Nat) (encodeHuffman : Bool) : HpackEncoder := ⟨.new limit, encodeHuffman⟩

def findPairIndex (enc : HpackEncoder) (name value : Bytes) : Option Nat :=
  (staticPairs name value).or
    ((enc.table.entries.findIdx? fun p => p = (name, value)).map (· + staticTable.length))

/-- `k == key` in the loop of `find_key_index`, where `k` is a whole entry: a
tuple is never equal to a byte string. -/
def entryEqKey (_entry : Bytes × Bytes) (_key : Bytes) : Bool := false

def findKeyIndex (enc : HpackEncoder) (key : Bytes) : Option Nat :=
  (staticKeys key).or
    ((enc.table.entries.findIdx? fun k => entryEqKey k key).map (· + staticTable.length))

def addToDynamicTable (k v : Bytes) : Prog HpackEncoder PyException Unit :=
  zoom HpackEncoder.table (fun enc table => { enc with table }) (DynamicTable.add k v)

def writeString (e : BitEncoder) (s : Bytes) : Prog HpackEncoder PyException BitEncoder := do
  let enc ← get
  let e := e.writeBit enc.encodeHuffman
  let s := if enc.encodeHuffman then (BitEncoder.new.writeHuffmanString s).data else s
  ofExcept ((e.writeHpackInt s.length).writeString s)

/-- The first bits of a literal, after the insertion that mode `YES` makes. -/
def writeMode (e : BitEncoder) (k v : Bytes) :
    HeaderIndexMode → Prog HpackEncoder PyException BitEncoder
  | .yes => do
    addToDynamicTable k v
    pure (e.writeBits [false, true])
  | .never => pure (e.writeBits [false, false, false, true])
  | .no => pure (e.writeBits [false, false, false, false])

def writeHeader (e : BitEncoder) (k v : Bytes) (mode : HeaderIndexMode) :
    Prog HpackEncoder PyException BitEncoder := do
  let enc ← get
  match enc.findPairIndex k v with
  | some idx => pure ((e.writeBit true).writeHpackInt idx)
  | none => do
    let e ← writeMode e k v mode
    let enc ← get
    let e ←
      match enc.findKeyIndex k with
      | some idx => pure (e.writeHpackInt idx)
      | none => writeString (e.writeHpackInt 0) k
    writeString e v

/-- The loop of `encode` from the bits written so far. -/
def encodeLoop : BitEncoder → List (Bytes × Bytes × HeaderIndexMode) →
    Prog HpackEncoder PyException BitEncoder
  | e, [] => pure e
  | e, (k, v, mode) :: rest => do
    let e ← writeHeader e (lower k) v mode
    encodeLoop e rest

def encode (headerList : List (Bytes × Bytes × HeaderIndexMode)) :
    Prog HpackEncoder PyException Bytes := do
  let e ← encodeLoop .new headerList
  pure e.data

end HpackEncoder

end TornadoHttp2
