import TornadoHttp2.HpackReading
import TornadoHttp2.DynamicTable

/-! Decoding undoes encoding. Both coders start from one table; the encoder
inserts before it writes a literal and the decoder after it has read it, so
the tables agree again at the end of every header field. -/

namespace TornadoHttp2

open BitString BitDecoder Prog

/-- `bits` is a representation of `(k, v)` whose decoding turns table `t` into
`t'`, wherever it stands in a block. -/
def Represents (bits : List Bool) (k v : Bytes) (t t' : DynamicTable) : Prop :=
  ∀ (allowed : Bool) (s : Decoding) (rest : List Bool), s.table = t → s.tree.Complete →
    s.bits.Ahead (bits ++ rest) → s.bits.bitOffset = 0 →
    ∃ mode, (HpackDecoder.decodeField allowed).run s =
      (.ok (some (k, some v, mode)), ⟨s.bits.advance bits.length, s.tree, t'⟩)

theorem staticPairs_entry {k v : Bytes} {idx : Nat} (h : staticPairs k v = some idx) :
    idx < staticTable.length ∧ staticTable[idx]? = some (some (k, some v)) := by
  obtain ⟨hlt, he, -⟩ := List.findIdx?_eq_some_iff_getElem.mp h
  exact ⟨hlt, by rw [List.getElem?_eq_getElem hlt, of_decide_eq_true he]⟩

theorem staticKeys_entry {k : Bytes} {idx : Nat} (h : staticKeys k = some idx) :
    idx < staticTable.length ∧ ∃ v, staticTable[idx]? = some (some (k, v)) := by
  obtain ⟨hlt, he, -⟩ := List.findIdx?_eq_some_iff_getElem.mp h
  obtain ⟨⟨name, v⟩, hv, hk⟩ := (Option.any_eq_true _ _).mp he
  refine ⟨hlt, v, ?_⟩
  rw [List.getElem?_eq_getElem hlt, hv, ← of_decide_eq_true hk]

theorem HpackEncoder.findKeyIndex_eq (enc : HpackEncoder) (k : Bytes) :
    enc.findKeyIndex k = staticKeys k := by
  have hnone : enc.table.entries.findIdx? (fun e => entryEqKey e k) = none :=
    List.findIdx?_eq_none_iff.mpr fun _ _ => rfl
  rw [findKeyIndex, hnone, Option.map_none, Option.or_none]

namespace HpackDecoder

theorem readFromIndex_static {s : Decoding} {idx : Nat} {entry : Bytes × Option Bytes}
    (hlt : idx < staticTable.length) (h : staticTable[idx]? = some (some entry)) :
    (readFromIndex idx).run s = (.ok entry, s) := by
  rw [readFromIndex, run_get_bind, if_pos hlt, h]
  rfl

theorem readFromIndex_dynamic {s : Decoding} {i : Nat} {k v : Bytes}
    (h : s.table.entries[i]? = some (k, v)) :
    (readFromIndex (i + staticTable.length)).run s = (.ok (k, some v), s) := by
  rw [readFromIndex, run_get_bind, if_neg (by omega), Nat.add_sub_cancel, h]
  rfl

theorem readFromIndex_pair {s : Decoding} {enc : HpackEncoder} {k v : Bytes} {idx : Nat}
    (ht : enc.table.entries <+: s.table.entries) (h : enc.findPairIndex k v = some idx) :
    (readFromIndex idx).run s = (.ok (k, some v), s) := by
  obtain hs | ⟨-, hd⟩ := Option.or_eq_some_iff.mp h
  · obtain ⟨hlt, he⟩ := staticPairs_entry hs
    exact readFromIndex_static hlt he
  · obtain ⟨i, hi, rfl⟩ := Option.map_eq_some_iff.mp hd
    obtain ⟨hlt, he, -⟩ := List.findIdx?_eq_some_iff_getElem.mp hi
    refine readFromIndex_dynamic (List.prefix_iff_getElem?.mp ht i hlt |>.trans ?_)
    rw [of_decide_eq_true he]

end HpackDecoder

/-- The name and the value that an index stands for: the empty string where the
static table lists no value. -/
def assigned (table : DynamicTable) (idx : Nat) : Option (Bytes × Bytes) :=
  if idx < staticTable.length then staticTable[idx]?.join.map fun entry => (entry.1, entry.2.getD [])
  else table.entries[idx - staticTable.length]?

theorem HpackDecoder.readFromIndex_assigned {s : Decoding} {idx : Nat} {k v : Bytes}
    (h : assigned s.table idx = some (k, v)) : idx ≠ 0 ∧ ∃ value, (readFromIndex idx).run s = (.ok (k, value), s) := by
  unfold assigned at h
  split at h
  · rename_i hlt
    obtain ⟨⟨name, value⟩, hentry, hpair⟩ := Option.map_eq_some_iff.mp h
    cases hpair
    refine ⟨?_, value, readFromIndex_static hlt (Option.join_eq_some_iff.mp hentry)⟩
    rintro rfl
    simp [staticTable] at hentry
  · rename_i hge
    refine ⟨by rintro rfl; exact hge (by decide), some v, ?_⟩
    have hrun := readFromIndex_dynamic (s := s) h
    rwa [Nat.sub_add_cancel (not_lt.mp hge)] at hrun

/-- `bits` give the name of a literal, after an `n`-bit prefix has been left for it. -/
inductive NamesAs (table : DynamicTable) (n : Nat) : List Bool → Bytes → Prop
  | index {idx : Nat} {k v : Bytes} : assigned table idx = some (k, v) →
    NamesAs table n (BitEncoder.hpackIntBits n idx) k
  | string (huffman : Bool) (k : Bytes) : NamesAs table n (BitEncoder.hpackIntBits n 0 ++ stringBits huffman k) k

theorem NamesAs.length {table : DynamicTable} {n : Nat} {bits : List Bool} {k : Bytes}
    (h : NamesAs table n bits k) : ∃ c, bits.length = n + 8 * c := by
  cases h with
  | index => exact hpackIntBits_length _ _
  | string huffman =>
    obtain ⟨c, hc⟩ := hpackIntBits_length n 0
    obtain ⟨m, hm⟩ := stringBits_length huffman k
    exact ⟨c + (m + 1), by rw [List.length_append, hc, hm]; ring⟩

theorem HpackDecoder.readNameValuePair_ahead {s : Decoding} {huffman : Bool} {n : Nat}
    {k v : Bytes} {name rest : List Bool} (ht : s.tree.Complete) (hname : NamesAs s.table n name k)
    (h : s.bits.Ahead (name ++ (stringBits huffman v ++ rest))) (hn : 8 - s.bits.bitOffset = n) :
    readNameValuePair.run s = (.ok (k, v), s.advance (name.length + (stringBits huffman v).length)) := by
  have hlt := h.lt
  have halign : (s.bits.advance name.length).bitOffset = 0 := by
    obtain ⟨c, hc⟩ := hname.length
    rw [hc]
    simp only [BitDecoder.advance, position]
    omega
  have hv := HpackDecoder.readString_ahead (s := s.advance name.length) ht (by simpa using h.advance) halign
  rw [Decoding.advance_advance] at hv
  rw [readNameValuePair]
  cases hname with
  | @index idx _ _ hidx =>
    obtain ⟨hne, value, hentry⟩ := readFromIndex_assigned
      (s := s.advance (BitEncoder.hpackIntBits n idx).length) hidx
    rw [bind_ok (readHpackInt_ahead h hn), if_neg hne, bind_ok hentry, run_pure_bind, bind_ok hv, run_pure]
  | string huffman' =>
    rw [List.append_assoc] at h
    have hoff : (s.advance (BitEncoder.hpackIntBits n 0).length).bits.bitOffset = 0 := by
      obtain ⟨c, hc⟩ := hpackIntBits_length n 0
      rw [hc]
      simp only [Decoding.advance_bits, BitDecoder.advance, position]
      omega
    have hstring := HpackDecoder.readString_ahead (s := s.advance (BitEncoder.hpackIntBits n 0).length)
      ht (by simpa using h.advance) hoff
    rw [Decoding.advance_advance, ← List.length_append] at hstring
    rw [bind_ok (readHpackInt_ahead h hn), if_pos rfl, bind_ok hstring, bind_ok hv, run_pure]

/-- The name part that the encoder writes. -/
def nameBits (huffman : Bool) (n : Nat) (k : Bytes) : List Bool :=
  match staticKeys k with
  | some idx => BitEncoder.hpackIntBits n idx
  | none => BitEncoder.hpackIntBits n 0 ++ stringBits huffman k

theorem nameBits_names (table : DynamicTable) (huffman : Bool) (n : Nat) (k : Bytes) :
    NamesAs table n (nameBits huffman n k) k := by
  unfold nameBits
  split
  · rename_i idx hidx
    obtain ⟨hlt, value, hentry⟩ := staticKeys_entry hidx
    exact .index (by rw [assigned, if_pos hlt, hentry]; rfl)
  · exact .string huffman k

/-- The first bits of a literal in mode `mode`. -/
def modeBits : HeaderIndexMode → List Bool
  | .yes => [false, true]
  | .never => [false, false, false, true]
  | .no => [false, false, false, false]

def literalBits (huffman : Bool) (mode : HeaderIndexMode) (k v : Bytes) : List Bool :=
  modeBits mode ++ (nameBits huffman (8 - (modeBits mode).length) k ++ stringBits huffman v)

theorem literalBits_length (huffman : Bool) (mode : HeaderIndexMode) (k v : Bytes) :
    ∃ n, (literalBits huffman mode k v).length = 8 * (n + 1) := by
  obtain ⟨c, hc⟩ := (nameBits_names (.new 0) huffman (8 - (modeBits mode).length) k).length
  obtain ⟨m, hm⟩ := stringBits_length huffman v
  have hmode : (modeBits mode).length ≤ 8 := by cases mode <;> decide
  exact ⟨c + (m + 1), by simp only [literalBits, List.length_append, hc, hm]; omega⟩

/-- What a literal does to the table: only mode `YES` inserts. -/
def InsertsAs (mode : HeaderIndexMode) (k v : Bytes) (t t' : DynamicTable) : Prop :=
  match mode with
  | .yes => (DynamicTable.add k v).run t = (.ok (), t')
  | _ => t' = t

theorem readBit_step {s : Decoding} {b : Bool} {bits : List Bool} (h : s.bits.Ahead (b :: bits)) :
    HpackDecoder.readBit.run s = (.ok b, s.advance 1) ∧ (s.advance 1).bits.Ahead bits :=
  ⟨HpackDecoder.readBit_ahead h, h.tail⟩

theorem pair_represents {enc : HpackEncoder} {u : DynamicTable} {k v : Bytes} {idx : Nat}
    (hu : enc.table.entries <+: u.entries) (h : enc.findPairIndex k v = some idx) :
    Represents (true :: BitEncoder.hpackIntBits 7 idx) k v u u := by
  intro allowed s rest ht _ hb ho
  obtain ⟨hread, h1⟩ := readBit_step hb
  have hi := HpackDecoder.readHpackInt_ahead h1 (by rw [Decoding.advance_bits, bitOffset_advance ho])
  have hpair := HpackDecoder.readFromIndex_pair
    (s := (s.advance 1).advance (BitEncoder.hpackIntBits 7 idx).length) (ht ▸ hu) h
  refine ⟨.yes, ?_⟩
  rw [HpackDecoder.decodeField, bind_ok hread, if_pos rfl, bind_ok hi, bind_ok hpair, run_pure,
    Decoding.advance_advance, ← ht, Nat.add_comm]
  rfl

/-- What `decode` does after the bits that announce a literal. -/
def literalTail (mode : HeaderIndexMode) :
    Prog Decoding PyException (Option (Bytes × Option Bytes × HeaderIndexMode)) := do
  let (name, value) ← HpackDecoder.readNameValuePair
  when (mode = .yes) (HpackDecoder.addToDynamicTable name value)
  pure (some (name, some value, mode))

theorem decodeField_literal {s : Decoding} {allowed : Bool} {mode : HeaderIndexMode}
    {bits : List Bool} (h : s.bits.Ahead (modeBits mode ++ bits)) :
    (HpackDecoder.decodeField allowed).run s =
      (literalTail mode).run (s.advance (modeBits mode).length) := by
  cases mode
  · obtain ⟨r1, h1⟩ := readBit_step h
    obtain ⟨r2, h2⟩ := readBit_step h1
    rw [HpackDecoder.decodeField, bind_ok r1, if_neg (by decide), bind_ok r2, if_pos rfl,
      Decoding.advance_advance]
    rfl
  all_goals
    obtain ⟨r1, h1⟩ := readBit_step h
    obtain ⟨r2, h2⟩ := readBit_step h1
    obtain ⟨r3, h3⟩ := readBit_step h2
    obtain ⟨r4, h4⟩ := readBit_step h3
    rw [HpackDecoder.decodeField, bind_ok r1, if_neg (by decide), bind_ok r2, if_neg (by decide),
      bind_ok r3, if_neg (by decide), bind_ok r4, Decoding.advance_advance,
      Decoding.advance_advance, Decoding.advance_advance]
    rfl

theorem decodeField_literalBits {huffman : Bool} {mode : HeaderIndexMode} {k v : Bytes} {t' : DynamicTable}
    {s : Decoding} {rest : List Bool} (allowed : Bool) (h : InsertsAs mode k v s.table t') (hc : s.tree.Complete)
    (hb : s.bits.Ahead (literalBits huffman mode k v ++ rest)) (ho : s.bits.bitOffset = 0) :
    (HpackDecoder.decodeField allowed).run s =
      (.ok (some (k, some v, mode)), ⟨s.bits.advance (literalBits huffman mode k v).length, s.tree, t'⟩) := by
  have hmode : (modeBits mode).length < 8 := by cases mode <;> decide
  rw [literalBits, List.append_assoc, List.append_assoc] at hb
  have hp := HpackDecoder.readNameValuePair_ahead (s := s.advance (modeBits mode).length) hc
    (nameBits_names ..) hb.advance (by rw [Decoding.advance_bits, bitOffset_advance ho, Nat.mod_eq_of_lt hmode])
  rw [Decoding.advance_advance, ← List.length_append, ← List.length_append] at hp
  rw [decodeField_literal hb, literalTail, bind_ok hp]
  cases mode
  · have hadd : (HpackDecoder.addToDynamicTable k v).run
        (s.advance (literalBits huffman .yes k v).length) =
        (.ok (), ⟨s.bits.advance (literalBits huffman .yes k v).length, s.tree, t'⟩) := by
      have hh : (DynamicTable.add k v).run s.table = (.ok (), t') := h
      simp [HpackDecoder.addToDynamicTable, HpackDecoder.onTable, hh]
    exact bind_ok hadd _
  all_goals
    obtain rfl : t' = s.table := h
    rfl

theorem literal_represents {huffman : Bool} {mode : HeaderIndexMode} {k v : Bytes}
    {t t' : DynamicTable} (h : InsertsAs mode k v t t') :
    Represents (literalBits huffman mode k v) k v t t' :=
  fun allowed _ _ ht hc hb ho => ⟨mode, decodeField_literalBits allowed (ht ▸ h) hc hb ho⟩

/-- A relation between the table of an encoder and that of a decoder that both
keep by inserting the same entries, and that lets the decoder look up what the
encoder refers to. -/
structure InStep (R : DynamicTable → DynamicTable → Prop) : Prop where
  entries {t u : DynamicTable} : R t u → t.entries <+: u.entries
  add {t t' u : DynamicTable} {k v : Bytes} : R t u → (DynamicTable.add k v).run t = (.ok (), t') →
    ∃ u', (DynamicTable.add k v).run u = (.ok (), u') ∧ R t' u'

theorem InStep.inserts {R : DynamicTable → DynamicTable → Prop} (hR : InStep R) {mode : HeaderIndexMode}
    {k v : Bytes} {t t' u : DynamicTable} (hu : R t u) (h : InsertsAs mode k v t t') :
    ∃ u', R t' u' ∧ InsertsAs mode k v u u' := by
  cases mode
  · obtain ⟨u', hadd, hu'⟩ := hR.add hu h
    exact ⟨u', hu', hadd⟩
  all_goals
    obtain rfl : t' = t := h
    exact ⟨u, hu, rfl⟩

theorem inStep_eq : InStep Eq where
  entries := by
    rintro t _ rfl
    exact List.prefix_refl _
  add := by
    rintro t t' _ k v rfl h
    exact ⟨t', h, rfl⟩

theorem inStep_precedes : InStep DynamicTable.Precedes where
  entries h := h.entries
  add h := h.add

namespace HpackEncoder

theorem writeString_holds (enc : HpackEncoder) {e : BitEncoder} {bits : List Bool}
    (h : e.Holds bits) (ha : bits.length % 8 = 0) (s : Bytes) :
    ∃ e', (writeString e s).run enc = (.ok e', enc) ∧
      e'.Holds (bits ++ stringBits enc.encodeHuffman s) := by
  have ho := h.bitOffset_eq ha
  obtain ⟨hb, hbo⟩ := BitEncoder.writeBit_holds h enc.encodeHuffman
  obtain ⟨hi, hio⟩ := BitEncoder.writeHpackInt_holds hb (stringPayload enc.encodeHuffman s).length
  obtain ⟨e', he, hs, -⟩ := BitEncoder.writeString_holds hi hio (stringPayload enc.encodeHuffman s)
  refine ⟨e', ?_, ?_⟩
  · rw [writeString, run_get_bind]
    exact congrArg (fun r => (ofExcept r : Prog HpackEncoder PyException BitEncoder).run enc) he
  · simpa [hbo, ho, stringBits] using hs

theorem writeMode_run {enc : HpackEncoder} (hs : enc.table.Sized) (e : BitEncoder) (k v : Bytes)
    (mode : HeaderIndexMode) :
    ∃ table', (writeMode e k v mode).run enc =
        (.ok (e.writeBits (modeBits mode)), { enc with table := table' }) ∧
      table'.Sized ∧ InsertsAs mode k v enc.table table' := by
  cases mode
  · obtain ⟨table', hadd, hsized, -⟩ := DynamicTable.add_ok hs k v
    have hrun : (addToDynamicTable k v).run enc = (.ok (), { enc with table := table' }) := by
      simp [addToDynamicTable, hadd]
    exact ⟨table', bind_ok hrun _, hsized, hadd⟩
  all_goals exact ⟨enc.table, rfl, hs, rfl⟩

theorem writeLiteral_holds (enc : HpackEncoder) {e : BitEncoder} {bits : List Bool} {n : Nat}
    (h : e.Holds bits) (hn : n ≤ 8) (hn0 : 0 < n) (ha : (bits.length + n) % 8 = 0) (k v : Bytes) :
    ∃ e', (do
        let enc ← get
        let e ←
          match enc.findKeyIndex k with
          | some idx => pure (e.writeHpackInt idx)
          | none => writeString (e.writeHpackInt 0) k
        writeString e v : Prog HpackEncoder PyException BitEncoder).run enc = (.ok e', enc) ∧
      e'.Holds (bits ++ (nameBits enc.encodeHuffman n k ++ stringBits enc.encodeHuffman v)) := by
  have hpre : (if e.bitOffset = 8 then 8 else 8 - e.bitOffset) = n := by
    have := h.bitOffset_mod
    have := h.pos
    have := h.le
    split <;> omega
  have hint (i : Nat) := (BitEncoder.writeHpackInt_holds h i).1
  simp only [hpre] at hint
  rw [run_get_bind, findKeyIndex_eq]
  unfold nameBits
  split
  · rename_i idx hidx
    obtain ⟨c, hc⟩ := hpackIntBits_length n idx
    obtain ⟨e', he, hh⟩ := writeString_holds enc (hint idx)
      (by rw [List.length_append, hc]; omega) v
    exact ⟨e', he, by simpa using hh⟩
  · obtain ⟨c, hc⟩ := hpackIntBits_length n 0
    obtain ⟨m, hm⟩ := stringBits_length enc.encodeHuffman k
    have ha0 : (bits ++ BitEncoder.hpackIntBits n 0).length % 8 = 0 := by
      rw [List.length_append, hc]
      omega
    obtain ⟨e1, he1, hh1⟩ := writeString_holds enc (hint 0) ha0 k
    obtain ⟨e', he, hh⟩ := writeString_holds enc hh1
      (by rw [List.length_append, hm]; omega) v
    exact ⟨e', by rw [bind_ok he1, he], by simpa using hh⟩

theorem writeIndex_holds {e : BitEncoder} {bits : List Bool} (h : e.Holds bits) (ha : bits.length % 8 = 0) (idx : Nat) :
    ((e.writeBit true).writeHpackInt idx).Holds (bits ++ true :: BitEncoder.hpackIntBits 7 idx) := by
  obtain ⟨hb, hbo⟩ := BitEncoder.writeBit_holds h true
  have ho := h.bitOffset_eq ha
  simpa [hbo, ho] using (BitEncoder.writeHpackInt_holds hb idx).1

/-- One header: the encoder appends a representation of it and updates its
table as the decoder will. -/
theorem writeHeader_represents {R : DynamicTable → DynamicTable → Prop} (hR : InStep R) {enc : HpackEncoder}
    {u : DynamicTable} {e : BitEncoder} {bits : List Bool} (h : e.Holds bits) (ha : bits.length % 8 = 0)
    (hs : enc.table.Sized) (hu : R enc.table u) (k v : Bytes) (mode : HeaderIndexMode) :
    ∃ e' table' u' field n, (writeHeader e k v mode).run enc = (.ok e', { enc with table := table' }) ∧
      e'.Holds (bits ++ field) ∧ field.length = 8 * (n + 1) ∧ table'.Sized ∧ R table' u' ∧
      Represents field k v u u' := by
  rw [writeHeader, run_get_bind]
  cases hfind : enc.findPairIndex k v with
  | some idx =>
    obtain ⟨c, hc⟩ := hpackIntBits_length 7 idx
    refine ⟨_, enc.table, u, true :: BitEncoder.hpackIntBits 7 idx, c, rfl, writeIndex_holds h ha idx, ?_, hs, hu,
      pair_represents (hR.entries hu) hfind⟩
    rw [List.length_cons, hc]
    omega
  | none =>
    obtain ⟨table', hrun, hsized, hins⟩ := writeMode_run hs e k v mode
    have hm := BitEncoder.writeBits_holds h (modeBits mode)
    have hlen : (modeBits mode).length < 8 := by cases mode <;> decide
    obtain ⟨e', he, hh⟩ := writeLiteral_holds { enc with table := table' }
      (n := 8 - (modeBits mode).length) hm (by omega) (by omega)
      (by rw [List.length_append]; omega) k v
    obtain ⟨n, hn⟩ := literalBits_length enc.encodeHuffman mode k v
    obtain ⟨u', hu', hins'⟩ := hR.inserts hu hins
    exact ⟨e', table', u', literalBits enc.encodeHuffman mode k v, n, (bind_ok hrun _).trans he,
      by simpa [literalBits] using hh, hn, hsized, hu', literal_represents hins'⟩

end HpackEncoder

/-- A block as a list of representations, one for each header. -/
inductive Block : List (Bytes × Bytes) → List Bool → DynamicTable → DynamicTable → Prop
  | nil (t : DynamicTable) : Block [] [] t t
  | cons {k v : Bytes} {headers : List (Bytes × Bytes)} {field bits : List Bool}
      {t t' t'' : DynamicTable} {n : Nat} :
      Represents field k v t t' → field.length = 8 * (n + 1) → Block headers bits t' t'' →
      Block ((k, v) :: headers) (field ++ bits) t t''

/-- The names and values that a header list stands for: names in lower case. -/
def loweredPairs (headerList : List (Bytes × Bytes × HeaderIndexMode)) : List (Bytes × Bytes) :=
  headerList.map fun h => (lower h.1, h.2.1)

theorem HpackEncoder.encodeLoop_block {R : DynamicTable → DynamicTable → Prop} (hR : InStep R) {enc : HpackEncoder}
    {u : DynamicTable} {e : BitEncoder} {bits : List Bool} (h : e.Holds bits) (ha : bits.length % 8 = 0)
    (hs : enc.table.Sized) (hu : R enc.table u) (headerList : List (Bytes × Bytes × HeaderIndexMode)) :
    ∃ e' table' u' block, (encodeLoop e headerList).run enc = (.ok e', { enc with table := table' }) ∧
      e'.Holds (bits ++ block) ∧ (bits ++ block).length % 8 = 0 ∧ table'.Sized ∧ R table' u' ∧
      Block (loweredPairs headerList) block u u' := by
  induction headerList generalizing enc u e bits with
  | nil => exact ⟨e, enc.table, u, [], rfl, by simpa using h, by simpa using ha, hs, hu, .nil _⟩
  | cons header rest ih =>
    obtain ⟨k, v, mode⟩ := header
    obtain ⟨e1, t1, u1, field, n, hrun, hh, hlen, hs1, hu1, hrep⟩ :=
      writeHeader_represents hR h ha hs hu (lower k) v mode
    obtain ⟨e', t', u', block, hrun', hh', ha', hs', hu', hblock⟩ :=
      @ih { enc with table := t1 } u1 e1 _ hh (by rw [List.length_append, hlen]; omega) hs1 hu1
    refine ⟨e', t', u', field ++ block, ?_, by simpa using hh', by simpa using ha', hs', hu',
      .cons hrep hlen hblock⟩
    rw [encodeLoop, bind_ok hrun, hrun']

/-- The loop of `decode` reads a block header by header, whatever follows it. -/
theorem HpackDecoder.decodeLoop_after {headers : List (Bytes × Bytes)} {bits rest : List Bool}
    {t t' : DynamicTable} (hblock : Block headers bits t t') {s : Decoding} (fuel : Nat)
    (allowed : Bool) (ht : s.table = t) (hc : s.tree.Complete) (hb : s.bits.Ahead (bits ++ rest))
    (ho : s.bits.bitOffset = 0) (hfuel : s.bits.data.length ≤ s.bits.byteOffset + fuel) :
    ∃ decoded fuel' allowed', decoded.map (fun h => (h.1, h.2.1)) = headers.map (fun h => (h.1, some h.2)) ∧
      s.bits.data.length ≤ (s.bits.advance bits.length).byteOffset + fuel' ∧
      (s.bits.advance bits.length).bitOffset = 0 ∧
      ∀ decoded' s', (decodeLoop fuel' allowed').run ⟨s.bits.advance bits.length, s.tree, t'⟩ = (.ok decoded', s') →
        (decodeLoop fuel allowed).run s = (.ok (decoded ++ decoded'), s') := by
  induction hblock generalizing s fuel allowed with
  | nil t =>
    obtain ⟨d, tree, table⟩ := s
    subst ht
    rw [List.length_nil, hb.advance_zero]
    exact ⟨[], fuel, allowed, rfl, hfuel, ho, fun _ _ h => h⟩
  | @cons k v headers field bits t t₁ t₂ n hrep hlen _ ih =>
    rw [List.append_assoc] at hb
    obtain ⟨mode, hfield⟩ := hrep allowed s (bits ++ rest) ht hc hb ho
    have hne : field ++ (bits ++ rest) ≠ [] := fun h => by simp [List.append_eq_nil_iff.mp h |>.1] at hlen
    have hlt := hb.byteOffset_lt hne
    obtain ⟨fuel, rfl⟩ : ∃ m, fuel = m + 1 := ⟨fuel - 1, by omega⟩
    have hoff : (s.bits.advance field.length).bitOffset = 0 := by
      rw [bitOffset_advance ho, hlen]
      omega
    have hpos : (s.bits.advance field.length).position = s.bits.position + 8 * (n + 1) := by
      rw [advance_position, hlen]
    obtain ⟨decoded, fuel', allowed', hmap, hfuel', hoff', hrun⟩ := ih (s := ⟨s.bits.advance field.length, s.tree, t₁⟩)
      fuel false rfl hc hb.advance hoff (by
        simp only [position, hoff, ho] at hpos
        simp only [advance_data]
        omega)
    simp only [advance_advance, ← List.length_append] at hfuel' hoff' hrun
    refine ⟨(k, some v, mode) :: decoded, fuel', allowed', by simp [hmap], hfuel', hoff', fun decoded' s' h => ?_⟩
    rw [decodeLoop, run_get_bind, if_neg (hb.not_eod hne), bind_ok hfield]
    dsimp only
    rw [bind_ok (hrun decoded' s' h), run_pure, List.cons_append]

theorem HpackDecoder.decodeLoop_block {headers : List (Bytes × Bytes)} {bits : List Bool}
    {t t' : DynamicTable} (hblock : Block headers bits t t') {s : Decoding} (fuel : Nat)
    (allowed : Bool) (ht : s.table = t) (hc : s.tree.Complete) (hb : s.bits.Ahead bits)
    (ho : s.bits.bitOffset = 0) (hfuel : s.bits.data.length ≤ s.bits.byteOffset + fuel)
    (hend : s.bits.position + bits.length = 8 * s.bits.data.length) :
    ∃ decoded d, (decodeLoop fuel allowed).run s = (.ok decoded, ⟨d, s.tree, t'⟩) ∧
      decoded.map (fun h => (h.1, h.2.1)) = headers.map fun h => (h.1, some h.2) := by
  obtain ⟨decoded, fuel', allowed', hmap, -, hoff, hrun⟩ :=
    decodeLoop_after hblock fuel allowed ht hc (by rwa [List.append_nil]) ho hfuel
  have heod : (s.bits.advance bits.length).eod = true := by
    have hpos := advance_position s.bits bits.length
    rw [hend, position, hoff] at hpos
    rw [eod, advance_data, decide_eq_true_eq]
    omega
  have hstop : (decodeLoop fuel' allowed').run ⟨s.bits.advance bits.length, s.tree, t'⟩ =
      (.ok [], ⟨s.bits.advance bits.length, s.tree, t'⟩) := by
    cases fuel' with
    | zero => rfl
    | succ fuel' => rw [decodeLoop, run_get_bind, if_pos heod, run_pure]
  exact ⟨decoded, _, by simpa using hrun _ _ hstop, hmap⟩

/-- Encoding one header list and decoding the block it gives. -/
theorem decode_encode_block {R : DynamicTable → DynamicTable → Prop} (hR : InStep R) {enc : HpackEncoder}
    {dec : HpackDecoder} {tree : HuffmanTree} (hs : enc.table.Sized) (ht : R enc.table dec.table) (hc : tree.Complete)
    (headerList : List (Bytes × Bytes × HeaderIndexMode)) :
    ∃ block table' u' decoded,
      (HpackEncoder.encode headerList).run enc = (.ok block, { enc with table := table' }) ∧
      dec.decode tree block = (.ok decoded, ⟨u'⟩, tree) ∧
      decoded.map (fun h => (h.1, h.2.1)) =
        (loweredPairs headerList).map (fun p => (p.1, some p.2)) ∧ table'.Sized ∧ R table' u' := by
  obtain ⟨e, table', u', bits, henc, hh, ha, hsized, hu', hblock⟩ :=
    HpackEncoder.encodeLoop_block hR BitEncoder.new_holds (by simp) hs ht headerList
  rw [List.nil_append] at hh ha
  have hdata : toBits e.data = bits := hh.toBits_data (hh.bitOffset_eq ha)
  have hlen : bits.length = 8 * e.data.length := by rw [← hdata, toBits_length]
  obtain ⟨decoded, d, hdec, hmap⟩ := HpackDecoder.decodeLoop_block hblock
    (s := ⟨.new e.data, tree, dec.table⟩) e.data.length true rfl hc
    (hdata ▸ new_ahead e.data) rfl (by simp [BitDecoder.new])
    (by simpa [position, BitDecoder.new] using hlen)
  refine ⟨e.data, table', u', decoded, ?_, ?_, hmap, hsized, hu'⟩
  · rw [HpackEncoder.encode, bind_ok henc, run_pure]
  · rw [HpackDecoder.decode, hdec]

/-- Feeding header lists through both coders, one block after another: nothing
raises, the decoder gives back each list, and the tables agree after each. -/
def StaysInStep (tree : HuffmanTree) :
    HpackEncoder → HpackDecoder → List (List (Bytes × Bytes × HeaderIndexMode)) → Prop
  | _, _, [] => True
  | enc, dec, headerList :: rest =>
    ∃ block enc' decoded dec',
      (HpackEncoder.encode headerList).run enc = (.ok block, enc') ∧
      dec.decode tree block = (.ok decoded, dec', tree) ∧
      decoded.map (fun h => (h.1, h.2.1)) =
        headerList.map (fun h => (lower h.1, some h.2.1)) ∧
      dec'.table.entries = enc'.table.entries ∧ dec'.table.size = enc'.table.size ∧
      StaysInStep tree enc' dec' rest

theorem staysInStep_of_equal_tables {tree : HuffmanTree} (hc : tree.Complete)
    (lists : List (List (Bytes × Bytes × HeaderIndexMode))) {enc : HpackEncoder}
    {dec : HpackDecoder} (hs : enc.table.Sized) (ht : enc.table = dec.table) :
    StaysInStep tree enc dec lists := by
  induction lists generalizing enc dec with
  | nil => trivial
  | cons headerList rest ih =>
    obtain ⟨block, table', _, decoded, henc, hdec, hmap, hsized, rfl⟩ :=
      decode_encode_block inStep_eq hs ht hc headerList
    refine ⟨block, _, decoded, _, henc, hdec, ?_, rfl, rfl, ih hsized rfl⟩
    simpa [loweredPairs, Function.comp_def] using hmap

theorem hpack_round_trip (limit : Nat) (encodeHuffman : Bool)
    (lists : List (List (Bytes × Bytes × HeaderIndexMode))) :
    StaysInStep huffmanTree (.new limit encodeHuffman) (.new limit) lists :=
  staysInStep_of_equal_tables huffmanTree_complete lists (DynamicTable.new_sized limit) rfl

end TornadoHttp2
