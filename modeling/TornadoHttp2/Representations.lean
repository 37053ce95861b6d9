import TornadoHttp2.FieldReading
import TornadoHttp2.StreamRead

/-! A header may be an index or a literal in its block. A block is cut into its
fields here; an indexed field and a literal without indexing leave the decoder
in one and the same state, so the rest of the block cannot tell them apart. -/

namespace TornadoHttp2

open BitString Prog

abbrev DecodedHeader := Bytes × Option Bytes × HeaderIndexMode

/-- The decoder between two fields of a block. -/
structure FieldState where
  limitUpdateAllowed : Bool
  tree : HuffmanTree
  table : DynamicTable

namespace FieldState

def reading (c : FieldState) (d : BitDecoder) : Decoding := ⟨d, c.tree, c.table⟩

/-- The bytes `field` are one field: wherever they come next, that field is read. -/
structure IsField (c : FieldState) (field : Bytes) (header : Option DecodedHeader) (c' : FieldState) : Prop where
  allowed : c'.limitUpdateAllowed = (c.limitUpdateAllowed && header.isNone)
  run {d : BitDecoder} {rest : Bytes} : d.bitOffset = 0 → d.data.drop d.byteOffset = field ++ rest →
    (HpackDecoder.decodeField c.limitUpdateAllowed).run (c.reading d) =
      (.ok header, c'.reading ⟨d.data, d.byteOffset + field.length, 0⟩)

theorem ahead_of_drop {d : BitDecoder} {bytes : Bytes} (hd : d.bitOffset = 0) (h : d.data.drop d.byteOffset = bytes) :
    d.Ahead (toBits bytes) :=
  ⟨by omega, by rw [BitDecoder.position, hd, Nat.add_zero, toBits_drop, h]⟩

theorem advance_bytes {d : BitDecoder} (hd : d.bitOffset = 0) (k : Nat) :
    d.advance (8 * k) = ⟨d.data, d.byteOffset + k, 0⟩ := by
  simp only [BitDecoder.advance, BitDecoder.position, hd, BitDecoder.mk.injEq, true_and]
  omega

/-- What is read is a field of its own. -/
theorem isField_of_run {c : FieldState} {d : BitDecoder} {bytes : Bytes} {header : Option DecodedHeader}
    {s : Decoding} (hd : d.bitOffset = 0) (hbytes : d.data.drop d.byteOffset = bytes)
    (h : (HpackDecoder.decodeField c.limitUpdateAllowed).run (c.reading d) = (.ok header, s)) :
    ∃ field rest c', bytes = field ++ rest ∧ field ≠ [] ∧ c.IsField field header c' ∧
      s = c'.reading ⟨d.data, d.byteOffset + field.length, 0⟩ := by
  have hahead := ahead_of_drop hd hbytes
  obtain ⟨taken, ⟨bits, hbits⟩, htakes⟩ := @HpackDecoder.Reads.decodeField _ d.byteOffset _ _ _ _ hahead h
  have hself : s.bits = d.advance taken.length :=
    congrArg (fun r => r.2.bits) (h.symm.trans (htakes rfl (hbits ▸ hahead) rfl))
  have haligned : s.bits.bitOffset = 0 := (wp_of_ok h).mp (HpackDecoder.Aligned.decodeField _)
  have hlength : taken.length = 8 * (taken.length / 8) := by
    rw [hself] at haligned
    simp only [BitDecoder.advance, BitDecoder.position, hd] at haligned
    omega
  obtain ⟨k, hk⟩ : ∃ k, taken.length / 8 = k := ⟨_, rfl⟩
  rw [hk] at hlength
  have hle : k ≤ bytes.length := by
    have := congrArg List.length hbits
    simp only [List.length_append, toBits_length] at this
    omega
  have htake : (bytes.take k).length = k := List.length_take_of_le hle
  have htaken : taken = toBits (bytes.take k) := by
    rw [← List.take_append_drop k bytes, toBits_append] at hbits
    exact (List.append_inj hbits (by rw [toBits_length, htake, hlength])).1
  have elsewhere {e : BitDecoder} {rest : Bytes} (he : e.bitOffset = 0)
      (hrest : e.data.drop e.byteOffset = bytes.take k ++ rest) :
      (HpackDecoder.decodeField c.limitUpdateAllowed).run (c.reading e) =
        (.ok header, ⟨⟨e.data, e.byteOffset + (bytes.take k).length, 0⟩, s.tree, s.table⟩) := by
    have hahead' : e.Ahead (taken ++ toBits rest) := by
      rw [htaken, ← toBits_append]
      exact ahead_of_drop he hrest
    have hrun := htakes (he.trans hd.symm) hahead' (Nat.add_comm ..)
    rw [hlength, advance_bytes he] at hrun
    rw [htake]
    exact hrun
  refine ⟨bytes.take k, bytes.drop k, ⟨c.limitUpdateAllowed && header.isNone, s.tree, s.table⟩,
    (List.take_append_drop k bytes).symm, ?_, ⟨rfl, elsewhere⟩, ?_⟩
  · intro hnil
    have hempty := @elsewhere (.new []) [] rfl (by rw [hnil]; rfl)
    cases hempty
  · exact congrArg Prod.snd (h.symm.trans (elsewhere hd (by rw [hbytes, List.take_append_drop])))

/-- Whole fields, one after another. -/
inductive Fields : FieldState → Bytes → List DecodedHeader → FieldState → Prop
  | nil (c : FieldState) : Fields c [] [] c
  | cons {c c' c'' : FieldState} {field rest : Bytes} {header : Option DecodedHeader} {headers : List DecodedHeader} :
    field ≠ [] → c.IsField field header c' → Fields c' rest headers c'' →
    Fields c (field ++ rest) (header.toList ++ headers) c''

namespace Fields

theorem append {c c' c'' : FieldState} {xs ys : Bytes} {headers headers' : List DecodedHeader}
    (h : Fields c xs headers c') (h' : Fields c' ys headers' c'') : Fields c (xs ++ ys) (headers ++ headers') c'' := by
  induction h with
  | nil => exact h'
  | cons hne hfield _ ih =>
    rw [List.append_assoc, List.append_assoc]
    exact .cons hne hfield (ih h')

theorem first {c c'' : FieldState} {bytes : Bytes} {headers : List DecodedHeader} (h : Fields c bytes headers c'')
    (hne : bytes ≠ []) : ∃ field rest header headers' c', bytes = field ++ rest ∧ headers = header.toList ++ headers' ∧
      field ≠ [] ∧ c.IsField field header c' ∧ Fields c' rest headers' c'' := by
  cases h with
  | nil => exact (hne rfl).elim
  | cons hfield hread hrest => exact ⟨_, _, _, _, _, rfl, rfl, hfield, hread, hrest⟩

end Fields

/-- Two fields that stand in one place are one field. -/
theorem IsField.unique {c c₁ c₂ : FieldState} {xs ys xs' ys' : Bytes} {header header' : Option DecodedHeader}
    (h : c.IsField xs header c₁) (h' : c.IsField xs' header' c₂) (heq : xs ++ ys = xs' ++ ys') :
    xs = xs' ∧ ys = ys' ∧ header = header' ∧ c₁ = c₂ := by
  have hrun := @h.run (.new (xs ++ ys)) ys rfl rfl
  rw [@h'.run (.new (xs ++ ys)) ys' rfl heq] at hrun
  simp only [Prod.mk.injEq, Except.ok.injEq, reading, Decoding.mk.injEq, BitDecoder.mk.injEq, Nat.add_left_cancel_iff,
    true_and, and_true] at hrun
  obtain ⟨rfl, hlength, htree, htable⟩ := hrun
  obtain ⟨hxs, hys⟩ := List.append_inj heq hlength.symm
  refine ⟨hxs, hys, rfl, ?_⟩
  obtain ⟨a₁, t₁, u₁⟩ := c₁
  obtain ⟨a₂, t₂, u₂⟩ := c₂
  have h₁ : a₁ = _ := h.allowed
  have h₂ : a₂ = _ := h'.allowed
  rw [h₁, h₂]
  exact congrArg₂ _ htree.symm htable.symm

/-- What comes after whole fields is whole fields again. -/
theorem Fields.rest {c c' c'' : FieldState} {xs ys : Bytes} {headers all : List DecodedHeader}
    (h : Fields c xs headers c') (hall : Fields c (xs ++ ys) all c'') :
    ∃ headers', all = headers ++ headers' ∧ Fields c' ys headers' c'' := by
  induction h generalizing all with
  | nil => exact ⟨all, rfl, hall⟩
  | @cons c c₁ c₂ field rest header headers hne hfield _ ih =>
    rw [List.append_assoc] at hall
    obtain ⟨field', rest', header', all', c₁', heq, rfl, -, hfield', hrest'⟩ :=
      hall.first (List.append_ne_nil_of_left_ne_nil hne _)
    obtain ⟨-, rfl, rfl, rfl⟩ := hfield.unique hfield' heq
    obtain ⟨headers', rfl, hys⟩ := ih hrest'
    exact ⟨headers', (List.append_assoc ..).symm, hys⟩

theorem reading_eod {c : FieldState} {d : BitDecoder} (h : d.data.drop d.byteOffset = []) :
    (c.reading d).bits.eod = true :=
  decide_eq_true (List.drop_eq_nil_iff.mp h)

theorem Fields.decodeLoop {c c' : FieldState} {bytes : Bytes} {headers : List DecodedHeader}
    (h : Fields c bytes headers c') {d : BitDecoder} (fuel : Nat) (hd : d.bitOffset = 0)
    (hbytes : d.data.drop d.byteOffset = bytes) (hfuel : bytes.length ≤ fuel) :
    (HpackDecoder.decodeLoop fuel c.limitUpdateAllowed).run (c.reading d) =
      (.ok headers, c'.reading ⟨d.data, d.byteOffset + bytes.length, 0⟩) := by
  induction h generalizing d fuel with
  | nil c =>
    rw [HpackDecoder.decodeLoop_eod (reading_eod hbytes), List.length_nil, Nat.add_zero, ← hd]
  | @cons c c₁ c₂ field rest header headers hne hfield _ ih =>
    have hpos : 0 < field.length := List.length_pos_of_ne_nil hne
    rw [List.length_append] at hfuel
    obtain ⟨fuel, rfl⟩ : ∃ n, fuel = n + 1 := ⟨fuel - 1, by omega⟩
    have heod : ¬ (c.reading d).bits.eod = true := by
      intro h
      have hnil : d.data.drop d.byteOffset = [] := List.drop_eq_nil_iff.mpr (of_decide_eq_true h)
      rw [hnil] at hbytes
      exact List.append_ne_nil_of_left_ne_nil hne _ hbytes.symm
    have hrest := @ih ⟨d.data, d.byteOffset + field.length, 0⟩ fuel rfl
      (by rw [← List.drop_drop, hbytes, List.drop_left]) (by omega)
    rw [Nat.add_assoc, ← List.length_append] at hrest
    rw [HpackDecoder.decodeLoop, run_get_bind, if_neg heod, bind_ok (hfield.run hd hbytes)]
    rw [hfield.allowed] at hrest
    cases header with
    | none =>
      rw [Option.isNone_none, Bool.and_true] at hrest
      exact hrest
    | some header =>
      rw [Option.isNone_some, Bool.and_false] at hrest
      dsimp only
      rw [bind_ok hrest]
      rfl

theorem fields_of_decodeLoop {c : FieldState} {d : BitDecoder} {bytes : Bytes} {headers : List DecodedHeader}
    {s : Decoding} {fuel : Nat} (hd : d.bitOffset = 0) (hbytes : d.data.drop d.byteOffset = bytes)
    (hfuel : bytes.length ≤ fuel)
    (h : (HpackDecoder.decodeLoop fuel c.limitUpdateAllowed).run (c.reading d) = (.ok headers, s)) :
    ∃ allowed, Fields c bytes headers ⟨allowed, s.tree, s.table⟩ := by
  induction fuel generalizing c d bytes headers with
  | zero =>
    obtain rfl := List.length_eq_zero_iff.mp (Nat.le_zero.mp hfuel)
    cases h
    exact ⟨_, .nil c⟩
  | succ fuel ih =>
    by_cases heod : (c.reading d).bits.eod = true
    · rw [HpackDecoder.decodeLoop_eod heod] at h
      cases h
      obtain rfl : bytes = [] := by
        rw [← hbytes]
        exact List.drop_eq_nil_iff.mpr (of_decide_eq_true heod)
      exact ⟨_, .nil c⟩
    rw [HpackDecoder.decodeLoop, run_get_bind, if_neg heod] at h
    rcases hread : (HpackDecoder.decodeField c.limitUpdateAllowed).run (c.reading d) with ⟨e | header, s'⟩
    · rw [bind_error hread] at h
      cases h
    obtain ⟨field, rest, c', rfl, hne, hfield, rfl⟩ := isField_of_run hd hbytes hread
    rw [bind_ok hread] at h
    have hpos : 0 < field.length := List.length_pos_of_ne_nil hne
    rw [List.length_append] at hfuel
    have next {headers' : List DecodedHeader} (hloop : (HpackDecoder.decodeLoop fuel c'.limitUpdateAllowed).run
        (c'.reading ⟨d.data, d.byteOffset + field.length, 0⟩) = (.ok headers', s)) :
        ∃ allowed, Fields c (field ++ rest) (header.toList ++ headers') ⟨allowed, s.tree, s.table⟩ := by
      obtain ⟨allowed, hrest⟩ := ih rfl (by rw [← List.drop_drop, hbytes, List.drop_left]) (by omega) hloop
      exact ⟨allowed, .cons hne hfield hrest⟩
    have hallowed := hfield.allowed
    cases header with
    | none =>
      rw [Option.isNone_none, Bool.and_true] at hallowed
      exact next (hallowed ▸ h)
    | some header =>
      rw [Option.isNone_some, Bool.and_false] at hallowed
      dsimp only at h
      rcases hloop : (HpackDecoder.decodeLoop fuel false).run
        (c'.reading ⟨d.data, d.byteOffset + field.length, 0⟩) with ⟨e | headers', s'⟩
      · rw [bind_error hloop] at h
        cases h
      rw [bind_ok hloop] at h
      cases h
      exact next (hallowed.symm ▸ hloop)

end FieldState

open FieldState

namespace HpackDecoder

variable {d : HpackDecoder} {tree : HuffmanTree} {data : Bytes} {headers : List DecodedHeader}

/-- Blocks that are accepted are whole fields. -/
theorem decode_ok_iff {d' : HpackDecoder} {tree' : HuffmanTree} :
    d.decode tree data = (.ok headers, d', tree') ↔
      ∃ allowed, Fields ⟨true, tree, d.table⟩ data headers ⟨allowed, tree', d'.table⟩ := by
  constructor
  · intro h
    rw [decode] at h
    split at h <;> cases h
    rename_i hloop
    exact @fields_of_decodeLoop ⟨true, tree, d.table⟩ (.new data) data _ _ data.length rfl rfl (le_refl _) hloop
  · rintro ⟨allowed, h⟩
    have hloop := @Fields.decodeLoop _ _ _ _ h (.new data) data.length rfl rfl (le_refl _)
    rw [decode, show (decodeLoop data.length true).run ⟨.new data, tree, d.table⟩ = _ from hloop]
    rfl

theorem fields_of_ok (h : (d.decode tree data).1 = .ok headers) : ∃ allowed, Fields ⟨true, tree, d.table⟩ data headers
    ⟨allowed, (d.decode tree data).2.2, (d.decode tree data).2.1.table⟩ :=
  decode_ok_iff.mp (Prod.ext h rfl)

theorem decode_of_fields {c' : FieldState} (h : Fields ⟨true, tree, d.table⟩ data headers c') :
    (d.decode tree data).1 = .ok headers := by
  rw [decode_ok_iff.mpr (show ∃ allowed, Fields _ data headers ⟨allowed, c'.tree, HpackDecoder.table ⟨c'.table⟩⟩ from
    ⟨c'.limitUpdateAllowed, h⟩)]

/-- In a block for the decoder, an indexed field comes after `pre`: a block of
its own ends there, and the field is its index and nothing else. -/
structure IndexedAt (d : HpackDecoder) (tree : HuffmanTree) (pre field : Bytes) (idx : Nat) : Prop where
  starts : ∃ headers, (d.decode tree pre).1 = .ok headers
  indexed : ∃ e, (BitDecoder.new field).readBit = .ok (true, e) ∧
    e.readHpackInt = .ok (idx, ⟨field, field.length, 0⟩)

/-- The literal without indexing that carries this name and this value, which
may refer to a table of the decoder for its name. -/
def IsLiteral (table : DynamicTable) (literal name value : Bytes) : Prop :=
  ∃ huffman bits, NamesAs table 4 bits name ∧
    toBits literal = modeBits .no ++ (bits ++ stringBits huffman value)

end HpackDecoder

/-- A static entry for which no value is listed. -/
def Valueless (idx : Nat) : Prop := ∃ name, staticTable[idx]? = some (some (name, none))

namespace FieldState

open HpackDecoder

variable {c : FieldState}

theorem isField_of_whole {field : Bytes} {header : Option DecodedHeader} {s : Decoding}
    (h : (decodeField c.limitUpdateAllowed).run (c.reading (.new field)) = (.ok header, s))
    (hend : s.bits = ⟨field, field.length, 0⟩) :
    c.IsField field header ⟨c.limitUpdateAllowed && header.isNone, s.tree, s.table⟩ := by
  obtain ⟨field', rest, c', heq, -, hfield, rfl⟩ := isField_of_run rfl rfl h
  have hlength := congrArg BitDecoder.byteOffset hend
  have hall := congrArg List.length heq
  simp only [reading, BitDecoder.new, Nat.zero_add, List.drop_zero, List.length_append] at hlength hall
  obtain rfl : rest = [] := List.length_eq_zero_iff.mp (by omega)
  obtain rfl : field = field' := by simpa [BitDecoder.new] using heq
  convert hfield using 1
  obtain ⟨allowed, tree, table⟩ := c'
  exact congrArg₂ (fun a b => FieldState.mk a b table) hfield.allowed.symm rfl

/-- A literal without indexing is one field, and it leaves the tables alone. -/
theorem literal_isField {literal name value : Bytes} (ht : c.tree.Complete)
    (h : IsLiteral c.table literal name value) :
    c.IsField literal (some (name, some value, .no)) { c with limitUpdateAllowed := false } := by
  obtain ⟨huffman, bits, hnames, hbits⟩ := h
  have hahead : (c.reading (.new literal)).bits.Ahead (modeBits .no ++ (bits ++ (stringBits huffman value ++ []))) := by
    rw [List.append_nil, ← hbits]
    exact BitDecoder.new_ahead literal
  have hpair := @readNameValuePair_ahead ((c.reading (.new literal)).advance (modeBits .no).length) huffman 4 name value
    bits [] ht hnames hahead.advance (by rw [Decoding.advance_bits, BitDecoder.bitOffset_advance rfl]; rfl)
  have hrun : (decodeField c.limitUpdateAllowed).run (c.reading (.new literal)) = (.ok (some (name, some value, .no)),
      (c.reading (.new literal)).advance (toBits literal).length) := by
    rw [decodeField_literal hahead, literalTail, bind_ok hpair, Decoding.advance_advance, ← List.length_append,
      ← List.length_append, ← hbits]
    rfl
  have hfield := isField_of_whole hrun (by
    rw [toBits_length]
    exact (advance_bytes rfl _).trans (by simp [reading, BitDecoder.new]))
  rwa [Option.isNone_some, Bool.and_false] at hfield

theorem readFromIndex_ok {s s' : Decoding} {idx : Nat} {name : Bytes} {value : Option Bytes}
    (h : (readFromIndex idx).run s = (.ok (name, value), s')) :
    s' = s ∧ assigned s.table idx = some (name, value.getD []) ∧ (value = none ↔ Valueless idx) := by
  rw [readFromIndex, run_get_bind] at h
  split at h
  · rename_i hlt
    split at h
    · rename_i hentry
      cases h
      refine ⟨rfl, by rw [assigned, if_pos hlt, hentry]; rfl, ?_⟩
      rw [Valueless, hentry]
      simp
    · cases h
  · rename_i hge
    split at h <;> cases h
    rename_i hentry
    refine ⟨rfl, by rw [assigned, if_neg hge, hentry]; rfl, ?_⟩
    rw [Valueless, List.getElem?_eq_none (not_lt.mp hge)]
    simp

/-- The bits of an indexed field, read in front of any others. -/
theorem decodeField_indexed {allowed : Bool} {s : Decoding} {field rest : Bytes} {idx : Nat} {e : BitDecoder}
    (hbit : (BitDecoder.new field).readBit = .ok (true, e))
    (hidx : e.readHpackInt = .ok (idx, ⟨field, field.length, 0⟩)) (hs : s.bits.bitOffset = 0)
    (hrest : s.bits.data.drop s.bits.byteOffset = field ++ rest) :
    (decodeField allowed).run s = (do
      let entry ← readFromIndex idx
      pure (some (entry.1, entry.2, HeaderIndexMode.yes))).run
        { s with bits := ⟨s.bits.data, s.bits.byteOffset + field.length, 0⟩ } := by
  have hnew := BitDecoder.new_ahead field
  obtain ⟨first, ⟨bits, hbits⟩, hfirst⟩ := BitDecoder.readBit_takes hnew hbit
  rw [← hbits] at hnew
  obtain rfl : (BitDecoder.new field).advance first.length = e := by
    rw [hfirst rfl hnew] at hbit
    cases hbit
    rfl
  obtain ⟨second, ⟨bits, rfl⟩, hsecond⟩ := BitDecoder.readHpackInt_takes hnew.advance hidx
  have hend := hidx.symm.trans (hsecond rfl hnew.advance)
  rw [BitDecoder.advance_advance] at hend
  have hlength : first.length + second.length = 8 * field.length := by
    have hpos := congrArg (fun r => BitDecoder.position r.2) (Except.ok.inj hend)
    simp only [BitDecoder.advance_position] at hpos
    simp only [BitDecoder.position, BitDecoder.new] at hpos
    omega
  have hahead := ahead_of_drop hs hrest
  rw [toBits_append, ← hbits, List.append_assoc, List.append_assoc] at hahead
  have h₁ : readBit.run s = (.ok true, { s with bits := s.bits.advance first.length }) := by
    simp only [readBit, HpackDecoder.read, hfirst hs hahead]
  have h₂ : readHpackInt.run { s with bits := s.bits.advance first.length } =
      (.ok idx, { s with bits := ⟨s.bits.data, s.bits.byteOffset + field.length, 0⟩ }) := by
    simp only [readHpackInt, HpackDecoder.read, hsecond (BitDecoder.advance_bitOffset hs _) hahead.advance,
      BitDecoder.advance_advance, hlength, advance_bytes hs]
  rw [decodeField, bind_ok h₁, if_pos rfl, bind_ok h₂]

/-- An indexed field in front of what is read is one field, and it leaves the tables alone. -/
theorem indexed_isField {field rest : Bytes} {idx : Nat} {e : BitDecoder} {headers : List DecodedHeader}
    {c' : FieldState} (hbit : (BitDecoder.new field).readBit = .ok (true, e))
    (hidx : e.readHpackInt = .ok (idx, ⟨field, field.length, 0⟩)) (h : Fields c (field ++ rest) headers c') :
    ∃ name value after, headers = (name, value, .yes) :: after ∧
      assigned c.table idx = some (name, value.getD []) ∧ (value = none ↔ Valueless idx) ∧
      Fields { c with limitUpdateAllowed := false } rest after c' := by
  have hne : field ≠ [] := by
    rintro rfl
    cases hbit
  obtain ⟨field', rest', header, after, c₁, heq, rfl, -, hfield, hrest⟩ :=
    h.first (List.append_ne_nil_of_left_ne_nil hne _)
  have hrun := @decodeField_indexed c.limitUpdateAllowed (c.reading (.new (field ++ rest))) field rest idx e hbit hidx
    rfl rfl
  rw [@hfield.run (.new (field ++ rest)) rest' rfl heq] at hrun
  change _ = (readFromIndex idx >>= fun entry => pure (some (entry.1, entry.2, HeaderIndexMode.yes))).run
    (c.reading ⟨field ++ rest, 0 + field.length, 0⟩) at hrun
  rcases hentry : (readFromIndex idx).run (c.reading ⟨field ++ rest, 0 + field.length, 0⟩) with ⟨_ | ⟨name, value⟩, s⟩
  · rw [bind_error hentry] at hrun
    cases hrun
  · obtain ⟨rfl, hassigned, hvalue⟩ := readFromIndex_ok hentry
    rw [bind_ok hentry, run_pure] at hrun
    simp only [Prod.mk.injEq, Except.ok.injEq, reading, Decoding.mk.injEq, BitDecoder.mk.injEq, BitDecoder.new,
      Nat.add_left_cancel_iff, true_and, and_true] at hrun
    obtain ⟨rfl, hlength, htree, htable⟩ := hrun
    obtain ⟨-, rfl⟩ := List.append_inj heq hlength.symm
    refine ⟨name, value, after, rfl, hassigned, hvalue, ?_⟩
    have hallowed := hfield.allowed
    rw [Option.isNone_some, Bool.and_false] at hallowed
    rw [← htree, ← htable, ← hallowed]
    exact hrest

/-- Literals have values. -/
theorem decodeField_none {allowed : Bool} {s s' : Decoding} {name : Bytes} {mode : HeaderIndexMode}
    (h : (decodeField allowed).run s = (.ok (some (name, none, mode)), s')) : ∃ d idx,
      s.bits.readBit = .ok (true, d) ∧ d.readHpackInt = .ok (idx, s'.bits) ∧ Valueless idx := by
  rcases hbit : s.bits.readBit with e | ⟨b, d⟩
  · have hread : readBit.run s = (.error e, s) := by simp only [readBit, HpackDecoder.read, hbit]
    rw [decodeField, bind_error hread] at h
    cases h
  have hread : readBit.run s = (.ok b, { s with bits := d }) := by simp only [readBit, HpackDecoder.read, hbit]
  rw [decodeField, bind_ok hread] at h
  cases b with
  | false =>
    rw [if_neg Bool.false_ne_true] at h
    refine absurd rfl (Returns.of_ok (Q := fun r _ => r ≠ some (name, none, mode)) ?_ h)
    refine .bind fun _ => .ite ?_ (.bind fun _ => .ite ?_ ?_)
    · exact .bind fun _ => .bind fun _ => .pure (by simp)
    · exact .bind fun _ => .bind fun _ => .bind fun _ => .pure (by simp)
    · exact .bind fun _ => .bind fun _ => .pure (by simp)
  | true =>
    rw [if_pos rfl] at h
    rcases hint : d.readHpackInt with e | ⟨idx, d'⟩
    · have hidx : readHpackInt.run { s with bits := d } = (.error e, { s with bits := d }) := by
        simp only [readHpackInt, HpackDecoder.read, hint]
      rw [bind_error hidx] at h
      cases h
    have hidx : readHpackInt.run { s with bits := d } = (.ok idx, { s with bits := d' }) := by
      simp only [readHpackInt, HpackDecoder.read, hint]
    rw [bind_ok hidx] at h
    rcases hentry : (readFromIndex idx).run { s with bits := d' } with ⟨e | ⟨name', value⟩, s₁⟩
    · rw [bind_error hentry] at h
      cases h
    rw [bind_ok hentry] at h
    obtain ⟨rfl, -, hvalue⟩ := readFromIndex_ok hentry
    cases h
    exact ⟨d, idx, rfl, hint, hvalue.mp rfl⟩

/-- A header without a value comes from an index without a value. -/
theorem IsField.valueless {c' : FieldState} {field name : Bytes} {mode : HeaderIndexMode}
    (h : c.IsField field (some (name, none, mode)) c') : ∃ idx e, Valueless idx ∧
      (BitDecoder.new field).readBit = .ok (true, e) ∧ e.readHpackInt = .ok (idx, ⟨field, field.length, 0⟩) := by
  obtain ⟨e, idx, hbit, hidx, hvalue⟩ := decodeField_none (@h.run (.new field) [] rfl (List.append_nil _).symm)
  rw [reading, BitDecoder.new, Nat.zero_add] at hidx
  exact ⟨idx, e, hvalue, hbit, hidx⟩

/-- The field of a header. -/
theorem Fields.mem {c' : FieldState} {bytes : Bytes} {headers : List DecodedHeader} {header : DecodedHeader}
    (h : Fields c bytes headers c') (hmem : header ∈ headers) : ∃ pre field post before c₁ c₂,
      bytes = pre ++ field ++ post ∧ Fields c pre before c₁ ∧ c₁.IsField field (some header) c₂ := by
  induction h with
  | nil => cases hmem
  | @cons c c₁ c₂ field rest header' headers hne hfield hrest ih =>
    obtain hfirst | hlater := List.mem_append.mp hmem
    · obtain rfl : header' = some header := by simpa using hfirst
      exact ⟨[], field, rest, [], c, c₁, rfl, .nil c, hfield⟩
    · obtain ⟨pre, field', post, before, c₃, c₄, rfl, hpre, hfield'⟩ := ih hlater
      exact ⟨field ++ pre, field', post, _, c₃, c₄, by simp only [List.append_assoc], .cons hne hfield hpre, hfield'⟩

end FieldState

namespace HpackDecoder

def pairs (headers : List DecodedHeader) : List (Bytes × Option Bytes) := headers.map fun h => (h.1, h.2.1)

theorem addHeaders_pairs {u : Unicode} {isClient : Bool} {streamId : Nat} {p : Stream.ParsedHeaders}
    {headers headers' : List DecodedHeader} (h : pairs headers' = pairs headers) :
    Stream.addHeaders u isClient streamId p headers' = Stream.addHeaders u isClient streamId p headers := by
  induction headers generalizing headers' p with
  | nil =>
    obtain rfl : headers' = [] := by simpa [pairs] using h
    rfl
  | cons header headers ih =>
    cases headers' with
    | nil => simp [pairs] at h
    | cons header' headers' =>
      obtain ⟨k, v, mode⟩ := header
      obtain ⟨k', v', mode'⟩ := header'
      simp only [pairs, List.map_cons, List.cons.injEq, Prod.mk.injEq] at h
      obtain ⟨⟨rfl, rfl⟩, hrest⟩ := h
      have hfirst : Stream.addHeader u isClient streamId p (k', v', mode') =
          Stream.addHeader u isClient streamId p (k', v', mode) := rfl
      rw [Stream.addHeaders, Stream.addHeaders, hfirst]
      split
      · exact ih hrest
      · rfl

/-- Every value of the block is a byte string, and any indexed field of it may
be written as a literal. -/
structure RepresentationFree (d : HpackDecoder) (tree : HuffmanTree) (data : Bytes) (headers : List DecodedHeader) :
    Prop where
  values : ∀ header ∈ headers, header.2.1.isSome
  literals {pre field post literal name value : Bytes} {idx : Nat} : data = pre ++ field ++ post →
    d.IndexedAt tree pre field idx → assigned (d.decode tree pre).2.1.table idx = some (name, value) →
    IsLiteral (d.decode tree pre).2.1.table literal name value →
    ∃ headers', (d.decode tree (pre ++ literal ++ post)).1 = .ok headers' ∧ pairs headers' = pairs headers ∧
      ∀ u isClient streamId p, Stream.addHeaders u isClient streamId p headers' =
        Stream.addHeaders u isClient streamId p headers

variable {d : HpackDecoder} {tree : HuffmanTree} {data : Bytes} {headers : List DecodedHeader}

/-- A block around one of its indexed fields. -/
theorem IndexedAt.fields {pre field post : Bytes} {idx : Nat} (h : d.IndexedAt tree pre field idx)
    (hall : (d.decode tree (pre ++ field ++ post)).1 = .ok headers) :
    ∃ before name value after allowed c', headers = before ++ (name, value, .yes) :: after ∧
      assigned (d.decode tree pre).2.1.table idx = some (name, value.getD []) ∧ (value = none ↔ Valueless idx) ∧
      Fields ⟨true, tree, d.table⟩ pre before ⟨allowed, (d.decode tree pre).2.2, (d.decode tree pre).2.1.table⟩ ∧
      Fields ⟨false, (d.decode tree pre).2.2, (d.decode tree pre).2.1.table⟩ post after c' := by
  obtain ⟨⟨before, hbefore⟩, e, hbit, hidx⟩ := h
  obtain ⟨allowed, hpre⟩ := fields_of_ok hbefore
  obtain ⟨allowed', hdata⟩ := fields_of_ok hall
  rw [List.append_assoc] at hdata
  obtain ⟨rest, rfl, hrest⟩ := hpre.rest hdata
  obtain ⟨name, value, after, rfl, hassigned, hvalue, hpost⟩ := indexed_isField hbit hidx hrest
  exact ⟨before, name, value, after, allowed, _, rfl, hassigned, hvalue, hpre, hpost⟩

theorem representation_free (htree : SharedTree tree) (h : (d.decode tree data).1 = .ok headers) :
    RepresentationFree d tree data headers ↔ ∀ pre field post idx, data = pre ++ field ++ post →
      d.IndexedAt tree pre field idx → ¬ Valueless idx := by
  constructor
  · rintro ⟨hvalues, -⟩ pre field post idx rfl hat hvalueless
    obtain ⟨before, name, value, after, -, -, rfl, -, hvalue, -⟩ := hat.fields h
    have hsome := hvalues (name, value, .yes) (by simp)
    rw [hvalue.mpr hvalueless] at hsome
    cases hsome
  · intro hlisted
    constructor
    · intro header hmem
      by_contra hnone
      obtain ⟨name, value, mode⟩ := header
      obtain rfl : value = none := by simpa using hnone
      obtain ⟨allowed, hfields⟩ := fields_of_ok h
      obtain ⟨pre, field, post, before, c₁, c₂, rfl, hpre, hfield⟩ := hfields.mem hmem
      obtain ⟨idx, e, hvalueless, hbit, hidx⟩ := hfield.valueless
      exact hlisted pre field post idx rfl ⟨⟨before, decode_of_fields hpre⟩, e, hbit, hidx⟩ hvalueless
    · rintro pre field post literal name value idx rfl hat hassigned hliteral
      obtain ⟨before, name', value', after, allowed, c', rfl, hassigned', hvalue, hpre, hpost⟩ := hat.fields h
      obtain ⟨v, rfl⟩ := Option.ne_none_iff_exists'.mp (mt hvalue.mp (hlisted pre field post idx rfl hat))
      rw [hassigned'] at hassigned
      cases hassigned
      have hcomplete : (d.decode tree pre).2.2.Complete := decode_complete d htree.complete pre
      have hne : literal ≠ [] := by
        rintro rfl
        obtain ⟨huffman, bits, -, hbits⟩ := hliteral
        cases hbits
      have hnew := hpre.append (.cons hne (literal_isField (c := ⟨allowed, _, _⟩) hcomplete hliteral) hpost)
      rw [← List.append_assoc] at hnew
      have hpairs : pairs (before ++ ((some (name, some v, .no)).toList ++ after) : List DecodedHeader) =
          pairs (before ++ (name, some v, .yes) :: after) := by simp [pairs]
      exact ⟨_, decode_of_fields hnew, hpairs, fun _ _ _ _ => addHeaders_pairs hpairs⟩

/-- The method `GET`, by its index. -/
theorem representation_free_get :
    RepresentationFree (.new 4096) huffmanTree [0x82] [(ascii ":method", some (ascii "GET"), .yes)] := by
  refine (representation_free .loaded (by decide +kernel)).mpr fun pre field post idx heq hat hvalueless => ?_
  obtain ⟨-, e, hbit, hidx⟩ := hat
  have hne : field ≠ [] := by
    rintro rfl
    cases hbit
  have hlength := congrArg List.length heq
  have hpos := List.length_pos_of_ne_nil hne
  simp only [List.length_cons, List.length_nil, List.length_append] at hlength
  obtain rfl : pre = [] := List.length_eq_zero_iff.mp (by omega)
  obtain rfl : post = [] := List.length_eq_zero_iff.mp (by omega)
  obtain rfl : [0x82] = field := by simpa using heq
  cases hbit
  cases hidx
  obtain ⟨name, hname⟩ := hvalueless
  have hentry : staticTable[2]? = some (some (ascii ":method", some (ascii "GET"))) := rfl
  exact absurd (hentry.symm.trans hname) (by simp)

/-- `:authority` by its index has no value, and an empty one as a literal. -/
theorem not_representation_free :
    ((HpackDecoder.new 4096).decode huffmanTree [0x81]).1 = .ok [(ascii ":authority", none, .yes)] ∧
      ((HpackDecoder.new 4096).decode huffmanTree [0x01, 0x00]).1 = .ok [(ascii ":authority", some [], .no)] ∧
      ¬ RepresentationFree (.new 4096) huffmanTree [0x81] [(ascii ":authority", none, .yes)] := by
  refine ⟨by decide +kernel, by decide +kernel, fun h => ?_⟩
  exact absurd (h.values _ (List.mem_singleton_self _)) (by decide)

end HpackDecoder

end TornadoHttp2
