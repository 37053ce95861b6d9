import TornadoHttp2.IndexLookup

/-! Headers in mode `NEVER`. The encoder looks for the whole pair before it
looks at the mode: a pair that a table lists is written as its index, any other
as a never-indexed literal. -/

namespace TornadoHttp2

open BitString BitDecoder Prog

/-- The two coders of a connection's direction. -/
structure Coders where
  enc : HpackEncoder
  dec : HpackDecoder

namespace Coders

def new (limit : Nat) (encodeHuffman : Bool) : Coders := ⟨.new limit encodeHuffman, .new limit⟩

/-- One header list is encoded and the block is decoded. -/
def exchange (c : Coders) (headerList : List (Bytes × Bytes × HeaderIndexMode)) : Coders :=
  match (HpackEncoder.encode headerList).run c.enc with
  | (.ok block, enc) => ⟨enc, (c.dec.decode huffmanTree block).2.1⟩
  | (.error _, enc) => ⟨enc, c.dec⟩

def after (c : Coders) (lists : List (List (Bytes × Bytes × HeaderIndexMode))) : Coders :=
  lists.foldl exchange c

/-- `(k, v)` in mode `NEVER`, behind the headers `before` of its list: its bits
are a never-indexed literal, it changes no table, and the decoder gives its mode
back, whatever the list goes on with. -/
structure KeepsNever (c : Coders) (before : List (Bytes × Bytes × HeaderIndexMode)) (k v : Bytes) : Prop where
  literal : ∃ block block' enc', (HpackEncoder.encode before).run c.enc = (.ok block, enc') ∧
    (HpackEncoder.encode (before ++ [(k, v, .never)])).run c.enc = (.ok block', enc') ∧
    toBits block' = toBits block ++ literalBits c.enc.encodeHuffman .never (lower k) v
  tables : c.exchange (before ++ [(k, v, .never)]) = c.exchange before
  mode (rest : List (Bytes × Bytes × HeaderIndexMode)) : ∃ block enc' decoded dec',
    (HpackEncoder.encode (before ++ (k, v, .never) :: rest)).run c.enc = (.ok block, enc') ∧
    c.dec.decode huffmanTree block = (.ok decoded, dec', huffmanTree) ∧
    decoded[before.length]? = some (lower k, some v, .never)

structure Paired (c : Coders) : Prop where
  sized : c.enc.table.Sized
  tables : c.enc.table = c.dec.table

variable {c : Coders} {k v : Bytes} {before : List (Bytes × Bytes × HeaderIndexMode)}

theorem Paired.exchange (h : c.Paired) (headerList : List (Bytes × Bytes × HeaderIndexMode)) :
    ∃ block table' decoded, (HpackEncoder.encode headerList).run c.enc = (.ok block, { c.enc with table := table' }) ∧
      c.dec.decode huffmanTree block = (.ok decoded, ⟨table'⟩, huffmanTree) ∧
      c.exchange headerList = ⟨{ c.enc with table := table' }, ⟨table'⟩⟩ ∧ (c.exchange headerList).Paired := by
  obtain ⟨block, table', _, decoded, henc, hdec, -, hsized, rfl⟩ :=
    decode_encode_block inStep_eq h.sized h.tables huffmanTree_complete headerList
  have hexchange : c.exchange headerList = ⟨{ c.enc with table := table' }, ⟨table'⟩⟩ := by
    rw [Coders.exchange, henc]
    dsimp only
    rw [hdec]
  exact ⟨block, table', decoded, henc, hdec, hexchange, hexchange ▸ ⟨hsized, rfl⟩⟩

theorem Paired.after (h : c.Paired) (lists : List (List (Bytes × Bytes × HeaderIndexMode))) :
    (c.after lists).Paired := by
  induction lists generalizing c with
  | nil => exact h
  | cons headerList rest ih =>
    obtain ⟨_, _, _, _, _, _, hpaired⟩ := h.exchange headerList
    exact ih hpaired

theorem new_paired (limit : Nat) (encodeHuffman : Bool) : (new limit encodeHuffman).Paired :=
  ⟨DynamicTable.new_sized limit, rfl⟩

end Coders

variable {k v : Bytes}

namespace HpackDecoder

theorem decodeLoop_never {s : Decoding} {t' : DynamicTable} {headers : List (Bytes × Bytes)} {bits : List Bool}
    {huffman : Bool} (fuel : Nat) (allowed : Bool) (hblock : Block headers bits s.table t') (hc : s.tree.Complete)
    (hb : s.bits.Ahead (literalBits huffman .never k v ++ bits)) (ho : s.bits.bitOffset = 0)
    (hfuel : s.bits.data.length ≤ s.bits.byteOffset + fuel)
    (hend : s.bits.position + (literalBits huffman .never k v ++ bits).length = 8 * s.bits.data.length) :
    ∃ decoded d, (decodeLoop fuel allowed).run s = (.ok ((k, some v, .never) :: decoded), ⟨d, s.tree, t'⟩) := by
  obtain ⟨n, hn⟩ := literalBits_length huffman .never k v
  have hne : literalBits huffman .never k v ++ bits ≠ [] := by simp [literalBits, modeBits]
  have hlt := hb.byteOffset_lt hne
  obtain ⟨fuel, rfl⟩ : ∃ m, fuel = m + 1 := ⟨fuel - 1, by omega⟩
  have hfield := @decodeField_literalBits huffman .never k v s.table s bits allowed rfl hc hb ho
  have hpos := advance_position s.bits (literalBits huffman .never k v).length
  have hoff : (s.bits.advance (literalBits huffman .never k v).length).bitOffset = 0 := by
    rw [bitOffset_advance ho, hn]
    omega
  obtain ⟨decoded, d, hrest, -⟩ := decodeLoop_block hblock
    (s := ⟨s.bits.advance (literalBits huffman .never k v).length, s.tree, s.table⟩) fuel false rfl hc hb.advance hoff
    (by
      simp only [position, hoff, ho] at hpos
      simp only [advance_data]
      omega)
    (by
      simp only [advance_data, hpos]
      rw [List.length_append] at hend
      omega)
  refine ⟨decoded, d, ?_⟩
  rw [decodeLoop, run_get_bind, if_neg (hb.not_eod hne), bind_ok hfield]
  dsimp only
  rw [bind_ok hrest, run_pure]

/-- A never-indexed literal between two blocks comes back in its mode. -/
theorem decode_never {dec : HpackDecoder} {tree : HuffmanTree} {t t' : DynamicTable}
    {headers headers' : List (Bytes × Bytes)} {bits bits' : List Bool} {data : Bytes} {huffman : Bool}
    (hblock : Block headers bits dec.table t) (hblock' : Block headers' bits' t t') (hc : tree.Complete)
    (hdata : toBits data = bits ++ (literalBits huffman .never k v ++ bits')) :
    ∃ decoded dec', dec.decode tree data = (.ok decoded, dec', tree) ∧
      decoded[headers.length]? = some (k, some v, .never) := by
  have hahead := new_ahead data
  rw [hdata] at hahead
  obtain ⟨decoded, fuel, allowed, hmap, hfuel, hoff, hafter⟩ := decodeLoop_after hblock
    (s := ⟨.new data, tree, dec.table⟩) data.length true rfl hc hahead rfl (by simp [BitDecoder.new])
  obtain ⟨decoded', d, hloop⟩ := decodeLoop_never
    (s := ⟨(BitDecoder.new data).advance bits.length, tree, t⟩) fuel allowed hblock' hc hahead.advance hoff hfuel (by
      have hlen := congrArg List.length hdata
      rw [toBits_length, List.length_append] at hlen
      rw [advance_position, advance_data]
      simp only [position, BitDecoder.new]
      omega)
  have hlength : decoded.length = headers.length := by simpa using congrArg List.length hmap
  refine ⟨decoded ++ (k, some v, .never) :: decoded', ⟨t'⟩, ?_, ?_⟩
  · rw [decode, hafter _ _ hloop]
  · rw [← hlength, List.getElem?_append_right (le_refl _), Nat.sub_self]
    rfl

end HpackDecoder

namespace HpackEncoder

variable {enc : HpackEncoder} {e : BitEncoder} {bits : List Bool}

theorem encodeLoop_append (e : BitEncoder) (before rest : List (Bytes × Bytes × HeaderIndexMode)) :
    encodeLoop e (before ++ rest) = encodeLoop e before >>= fun e => encodeLoop e rest := by
  induction before generalizing e with
  | nil => rfl
  | cons header before ih =>
    obtain ⟨k, v, mode⟩ := header
    simp only [List.cons_append, encodeLoop, ih, bind_assoc]

theorem writeHeader_pair {idx : Nat} (hfind : enc.findPairIndex k v = some idx) (mode : HeaderIndexMode) :
    (writeHeader e k v mode).run enc = (.ok ((e.writeBit true).writeHpackInt idx), enc) := by
  rw [writeHeader, run_get_bind, hfind, run_pure]

theorem writeHeader_never (h : e.Holds bits) (ha : bits.length % 8 = 0) (hfind : enc.findPairIndex k v = none) :
    ∃ e', (writeHeader e k v .never).run enc = (.ok e', enc) ∧
      e'.Holds (bits ++ literalBits enc.encodeHuffman .never k v) := by
  have hmode := BitEncoder.writeBits_holds h (modeBits .never)
  have hlen : (bits ++ modeBits .never).length + 4 = bits.length + 8 := by simp [modeBits]
  obtain ⟨e', hrun, hholds⟩ := @writeLiteral_holds enc _ _ 4 hmode (by omega) (by omega) (by omega) k v
  refine ⟨e', ?_, by simpa [literalBits, modeBits] using hholds⟩
  have hwrite : (writeMode e k v .never).run enc = (.ok (e.writeBits (modeBits .never)), enc) := rfl
  rw [writeHeader, run_get_bind, hfind]
  exact (bind_ok hwrite _).trans hrun

theorem encode_ok {headers : List (Bytes × Bytes × HeaderIndexMode)} {enc' : HpackEncoder}
    (h : (encodeLoop .new headers).run enc = (.ok e, enc')) : (encode headers).run enc = (.ok e.data, enc') := by
  rw [encode, bind_ok h, run_pure]

end HpackEncoder

namespace Coders

variable {c : Coders} {k v : Bytes} {before : List (Bytes × Bytes × HeaderIndexMode)}

/-- The encoder behind the headers `before`. -/
theorem Paired.encodeBefore (h : c.Paired) (before : List (Bytes × Bytes × HeaderIndexMode)) :
    ∃ e table bits, (HpackEncoder.encodeLoop .new before).run c.enc = (.ok e, { c.enc with table }) ∧
      e.Holds bits ∧ bits.length % 8 = 0 ∧ table.Sized ∧ Block (loweredPairs before) bits c.dec.table table := by
  obtain ⟨e, table, _, bits, hrun, hholds, ha, hsized, rfl, hblock⟩ :=
    HpackEncoder.encodeLoop_block inStep_eq BitEncoder.new_holds (by simp) h.sized h.tables before
  exact ⟨e, table, bits, hrun, hholds, ha, hsized, hblock⟩

theorem Paired.exchange_eq (h : c.Paired) {e : BitEncoder} {table : DynamicTable}
    (hrun : (HpackEncoder.encodeLoop .new before).run c.enc = (.ok e, { c.enc with table })) :
    c.exchange before = ⟨{ c.enc with table }, ⟨table⟩⟩ := by
  obtain ⟨block, table', _, henc, _, hexchange, _⟩ := h.exchange before
  rw [HpackEncoder.encode_ok hrun] at henc
  cases henc
  exact hexchange

/-- Nothing lists the pair: it goes out as the literal that its mode asks for. -/
theorem Paired.keepsNever (h : c.Paired) (hfind : (c.exchange before).enc.findPairIndex (lower k) v = none) :
    c.KeepsNever before k v := by
  obtain ⟨e, table, bits, hrun, hholds, ha, hsized, hblock⟩ := h.encodeBefore before
  rw [h.exchange_eq hrun] at hfind
  obtain ⟨n, hn⟩ := literalBits_length c.enc.encodeHuffman .never (lower k) v
  obtain ⟨e', hrun', hholds'⟩ := HpackEncoder.writeHeader_never hholds ha hfind
  have ha' : (bits ++ literalBits c.enc.encodeHuffman .never (lower k) v).length % 8 = 0 := by
    rw [List.length_append, hn]
    omega
  have hloop (rest : List (Bytes × Bytes × HeaderIndexMode)) :
      (HpackEncoder.encodeLoop .new (before ++ (k, v, .never) :: rest)).run c.enc =
        (HpackEncoder.encodeLoop e' rest).run { c.enc with table } := by
    rw [HpackEncoder.encodeLoop_append, bind_ok hrun, HpackEncoder.encodeLoop, bind_ok hrun']
  refine ⟨⟨_, _, _, HpackEncoder.encode_ok hrun, HpackEncoder.encode_ok (hloop []), ?_⟩, ?_, fun rest => ?_⟩
  · rw [hholds'.toBits_data (hholds'.bitOffset_eq ha'), hholds.toBits_data (hholds.bitOffset_eq ha)]
  · rw [h.exchange_eq hrun, h.exchange_eq (hloop [])]
  · obtain ⟨e'', table'', _, bits'', hrun'', hholds'', ha'', -, rfl, hblock''⟩ :=
      @HpackEncoder.encodeLoop_block _ inStep_eq { c.enc with table } table e' _ hholds' ha' hsized rfl rest
    have hdata := hholds''.toBits_data (hholds''.bitOffset_eq ha'')
    obtain ⟨decoded, dec', hdec, hmode⟩ := HpackDecoder.decode_never hblock hblock'' huffmanTree_complete
      (by rw [hdata, List.append_assoc])
    refine ⟨_, _, decoded, dec', HpackEncoder.encode_ok ((hloop rest).trans hrun''), hdec, ?_⟩
    rwa [loweredPairs, List.length_map] at hmode

theorem KeepsNever.unlisted (h : c.Paired) (hkeeps : c.KeepsNever before k v) :
    (c.exchange before).enc.findPairIndex (lower k) v = none := by
  obtain ⟨e, table, bits, hrun, hholds, ha, hsized, hblock⟩ := h.encodeBefore before
  rw [h.exchange_eq hrun]
  cases hfind : HpackEncoder.findPairIndex { c.enc with table } (lower k) v with
  | none => rfl
  | some idx =>
    obtain ⟨block, block', enc', henc, henc', hbits⟩ := hkeeps.literal
    have hlast : (HpackEncoder.encodeLoop .new (before ++ [(k, v, .never)])).run c.enc =
        (.ok ((e.writeBit true).writeHpackInt idx), { c.enc with table }) := by
      rw [HpackEncoder.encodeLoop_append, bind_ok hrun, HpackEncoder.encodeLoop,
        bind_ok (HpackEncoder.writeHeader_pair hfind .never)]
      rfl
    obtain ⟨m, hm⟩ := hpackIntBits_length 7 idx
    have hholds' := HpackEncoder.writeIndex_holds hholds ha idx
    have ha' : (bits ++ true :: BitEncoder.hpackIntBits 7 idx).length % 8 = 0 := by
      rw [List.length_append, List.length_cons, hm]
      omega
    rw [HpackEncoder.encode_ok hrun] at henc
    rw [HpackEncoder.encode_ok hlast] at henc'
    cases henc
    cases henc'
    rw [hholds'.toBits_data (hholds'.bitOffset_eq ha'), hholds.toBits_data (hholds.bitOffset_eq ha)] at hbits
    simp [literalBits, modeBits] at hbits

/-- Whatever was encoded before, a header in mode `NEVER` is never indexed
exactly when no entry of a table is its pair by then. -/
theorem never_indexed (limit : Nat) (encodeHuffman : Bool) (lists : List (List (Bytes × Bytes × HeaderIndexMode)))
    (before : List (Bytes × Bytes × HeaderIndexMode)) (k v : Bytes) :
    ((new limit encodeHuffman).after lists).KeepsNever before k v ↔
      some (lower k, some v) ∉ staticTable ∧
      (lower k, v) ∉ ((new limit encodeHuffman).after (lists ++ [before])).enc.table.entries := by
  have hpaired := (new_paired limit encodeHuffman).after lists
  have hlisted : ((new limit encodeHuffman).after (lists ++ [before])).enc.findPairIndex (lower k) v = none ↔
      some (lower k, some v) ∉ staticTable ∧
      (lower k, v) ∉ ((new limit encodeHuffman).after (lists ++ [before])).enc.table.entries := by
    rw [← Option.not_isSome_iff_eq_none, HpackEncoder.findPairIndex_isSome, not_or]
  rw [← hlisted, after, after, List.foldl_append]
  exact ⟨KeepsNever.unlisted hpaired, hpaired.keepsNever⟩

/-- A password that was once sent with indexing is sent as an index from then on. -/
theorem not_never_indexed :
    ¬ ((new 4096 false).after [[(ascii "password", ascii "secret", .yes)]]).KeepsNever []
      (ascii "password") (ascii "secret") := by
  intro h
  have hpaired := (new_paired 4096 false).after [[(ascii "password", ascii "secret", .yes)]]
  have hnone := h.unlisted hpaired
  have hsome : ((((new 4096 false).after [[(ascii "password", ascii "secret", .yes)]]).exchange []).enc.findPairIndex
      (lower (ascii "password")) (ascii "secret")) = some 62 := by decide +kernel
  rw [hsome] at hnone
  cases hnone

end Coders

end TornadoHttp2
