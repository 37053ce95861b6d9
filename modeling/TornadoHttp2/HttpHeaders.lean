import TornadoHttp2.Constants

/-! Header values: strings are kept as their UTF-8 bytes. `HTTPHeaders` is
tornado's case-insensitive multimap, with its names in `Http-Header-Case`; what
that is for a name beyond ASCII is a parameter. -/

namespace TornadoHttp2

/-- Whether bytes decode as UTF-8, with `need` more bytes of the current
character to come and the next of them between `lo` and `hi`. -/
def decodesFrom : (need : Nat) → (lo hi : UInt8) → Bytes → Bool
  | 0, _, _, [] => true
  | _ + 1, _, _, [] => false
  | 0, _, _, b :: rest =>
    if b < 0x80 then decodesFrom 0 0 0 rest
    else if 0xc2 ≤ b ∧ b ≤ 0xdf then decodesFrom 1 0x80 0xbf rest
    else if b = 0xe0 then decodesFrom 2 0xa0 0xbf rest
    else if b = 0xed then decodesFrom 2 0x80 0x9f rest
    else if 0xe1 ≤ b ∧ b ≤ 0xef then decodesFrom 2 0x80 0xbf rest
    else if b = 0xf0 then decodesFrom 3 0x90 0xbf rest
    else if 0xf1 ≤ b ∧ b ≤ 0xf3 then decodesFrom 3 0x80 0xbf rest
    else if b = 0xf4 then decodesFrom 3 0x80 0x8f rest
    else false
  | need + 1, lo, hi, b :: rest => lo ≤ b && b ≤ hi && decodesFrom need 0x80 0xbf rest

/-- `native_str`, which passes `None` through. -/
def nativeStr : Option Bytes → Except PyException (Option Bytes)
  | none => .ok none
  | some s => if decodesFrom 0 0 0 s then .ok (some s) else .error .unicodeDecodeError

/-- The characters of UTF-8 text, each with its bytes. -/
def chars : Bytes → List Bytes
  | [] => []
  | b :: rest =>
    match chars rest with
    | (tail :: c) :: cs =>
      if 0x80 ≤ tail ∧ tail < 0xc0 then (b :: tail :: c) :: cs else [b] :: (tail :: c) :: cs
    | cs => [b] :: cs

def codePoint : Bytes → Nat
  | [b] => b.toNat
  | b :: tail =>
    let lead := b.toNat % 2 ^ (6 - tail.length)
    tail.foldl (fun n t => 64 * n + t.toNat % 64) lead
  | [] => 0

/-- The white space of `str` beyond ASCII. -/
def isWideSpace (n : Nat) : Bool :=
  n ∈ [0x85, 0xa0, 0x1680, 0x2028, 0x2029, 0x202f, 0x205f, 0x3000] || (0x2000 ≤ n && n ≤ 0x200a)

/-- The zeros beyond ASCII; the nine characters after each are the other digits.
The list is that of Unicode 14.0, which Python 3.11 has. -/
def wideZeros : List Nat :=
  [0x660, 0x6f0, 0x7c0, 0x966, 0x9e6, 0xa66, 0xae6, 0xb66, 0xbe6, 0xc66, 0xce6, 0xd66, 0xde6,
    0xe50, 0xed0, 0xf20, 0x1040, 0x1090, 0x17e0, 0x1810, 0x1946, 0x19d0, 0x1a80, 0x1a90, 0x1b50,
    0x1bb0, 0x1c40, 0x1c50, 0xa620, 0xa8d0, 0xa900, 0xa9d0, 0xa9f0, 0xaa50, 0xabf0, 0xff10,
    0x104a0, 0x10d30, 0x11066, 0x110f0, 0x11136, 0x111d0, 0x112f0, 0x11450, 0x114d0, 0x11650,
    0x116c0, 0x11730, 0x118e0, 0x11950, 0x11c50, 0x11d50, 0x11da0, 0x16a60, 0x16ac0, 0x16b50,
    0x1d7ce, 0x1d7d8, 0x1d7e2, 0x1d7ec, 0x1d7f6, 0x1e140, 0x1e2f0, 0x1e950, 0x1fbf0]

/-- The ASCII character that `int` reads in place of another one: a blank for
white space, a digit for a digit, and `?` for what no number has. -/
def decimalOrSpace (c : Bytes) : UInt8 :=
  match c with
  | [b] => b
  | c =>
    if isWideSpace (codePoint c) then 0x20
    else
      match wideZeros.find? fun z => z ≤ codePoint c && codePoint c ≤ z + 9 with
      | some z => 0x30 + UInt8.ofNat (codePoint c - z)
      | none => 0x3f

def isAscii (s : Bytes) : Bool := s.all (· < 0x80)

def isSpace (c : UInt8) : Bool := (0x09 ≤ c && c ≤ 0x0d) || c = 0x20

def isDigit (c : UInt8) : Bool := 0x30 ≤ c && c ≤ 0x39

/-- The digits of an `int` literal; `_` may stand between two digits. -/
def digitsFrom (acc : Nat) : Bytes → Option Nat
  | [] => some acc
  | 0x5f :: c :: rest =>
    if isDigit c then digitsFrom (10 * acc + (c.toNat - 0x30)) rest else none
  | c :: rest => if isDigit c then digitsFrom (10 * acc + (c.toNat - 0x30)) rest else none

def digits : Bytes → Option Nat
  | [] => none
  | c :: rest => if isDigit c then digitsFrom (c.toNat - 0x30) rest else none

/-- `int(s)` on ASCII text. -/
def asciiInt (s : Bytes) : Except PyException Int :=
  let s := ((s.dropWhile isSpace).reverse.dropWhile isSpace).reverse
  let value :=
    match s with
    | 0x2d :: rest => (digits rest).map fun n => -(n : Int)
    | 0x2b :: rest => (digits rest).map Int.ofNat
    | s => (digits s).map Int.ofNat
  match value with
  | some v => .ok v
  | none => .error .valueError

def int (s : Bytes) : Except PyException Int :=
  asciiInt (if isAscii s then s else (chars s).map decimalOrSpace)

def isLower (c : UInt8) : Bool := 0x61 ≤ c && c ≤ 0x7a

/-- `"-".join(w.capitalize() for w in name.split("-"))` on ASCII text. -/
def normalizedFrom (wordStart : Bool) : Bytes → Bytes
  | [] => []
  | c :: rest =>
    let c' := if wordStart then (if isLower c then c - 0x20 else c) else (lower [c]).headD c
    c' :: normalizedFrom (c = 0x2d) rest

def normalized (name : Bytes) : Bytes := normalizedFrom true name

/-- What `str` makes of text beyond ASCII: the name that `HTTPHeaders` keeps for
a name, and `lower`, which leaves no capital letter. -/
structure Unicode where
  headerCase : Bytes → Bytes
  lowerCase : Bytes → Bytes
  lower_lowerCase (s : Bytes) : lower (lowerCase s) = lowerCase s

namespace Unicode

/-- Letters beyond ASCII that have no case. -/
def caseless : Unicode := ⟨normalized, TornadoHttp2.lower, TornadoHttp2.lower_lower⟩

def normalized (u : Unicode) (name : Bytes) : Bytes :=
  if isAscii name then TornadoHttp2.normalized name else u.headerCase name

/-- `name.lower()`. -/
def lower (u : Unicode) (name : Bytes) : Bytes :=
  if isAscii name then TornadoHttp2.lower name else u.lowerCase name

theorem lower_lower (u : Unicode) (name : Bytes) : TornadoHttp2.lower (u.lower name) = u.lower name := by
  rw [lower]
  split
  · exact TornadoHttp2.lower_lower name
  · exact u.lower_lowerCase name

end Unicode

/-- Names in order of first use, each with its values in order. A value that is
read from a header block may be `None`, one that is written is a string. -/
structure HTTPHeaders (α : Type) where
  asList : List (Bytes × List α)
  deriving DecidableEq, Repr

namespace HTTPHeaders

section

variable {α : Type}

def empty : HTTPHeaders α := ⟨[]⟩

/-- The values of a name that is ASCII text. -/
def values (h : HTTPHeaders α) (name : Bytes) : Option (List α) := h.asList.lookup (normalized name)

def contains (h : HTTPHeaders α) (name : Bytes) : Bool := (h.values name).isSome

def getAll (h : HTTPHeaders α) : List (Bytes × α) := h.asList.flatMap fun e => e.2.map fun v => (e.1, v)

end

/-- Strings are values that are not `None`. -/
def optional (h : HTTPHeaders Bytes) : HTTPHeaders (Option Bytes) :=
  ⟨h.asList.map fun e => (e.1, e.2.map some)⟩

/-- `headers[name]`: repeated values joined by commas. -/
def get (h : HTTPHeaders (Option Bytes)) (name : Bytes) : Except PyException (Option Bytes) :=
  match h.values name with
  | none => .error .keyError
  | some [v] => .ok v
  | some vs => .ok (some ((ascii ",").intercalate (vs.map fun v => v.getD [])))

/-- A second value of a name is appended to the first, which fails if either is
`None`. -/
def add (u : Unicode) (h : HTTPHeaders (Option Bytes)) (name : Bytes) (value : Option Bytes) :
    Except PyException (HTTPHeaders (Option Bytes)) :=
  let name := u.normalized name
  match h.asList.lookup name with
  | none => .ok ⟨h.asList ++ [(name, [value])]⟩
  | some vs =>
    if vs.all Option.isSome ∧ value.isSome then
      .ok ⟨h.asList.map fun e => if e.1 = name then (e.1, e.2 ++ [value]) else e⟩
    else .error .typeError

/-- `int(headers[name])`. -/
def getInt (h : HTTPHeaders (Option Bytes)) (name : Bytes) : Except PyException Int := do
  match ← h.get name with
  | none => .error .typeError
  | some v => int v

end HTTPHeaders

end TornadoHttp2
