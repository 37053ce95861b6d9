import TornadoHttp2.DecoderEffects
import TornadoHttp2.HpackRoundTrip

/-! Huffman literals. The decoder reads something from every payload, canonical
or not: a walk that leaves the codes of the characters makes new nodes and ends
with the payload. -/

namespace TornadoHttp2

open BitString Prog

namespace HuffmanTree

/-- Every code and every inner node of `t` is one of `t'`. -/
structure Extends (t t' : HuffmanTree) : Prop where
  leaf {path : List Bool} {c : UInt8} : t.sub? path = some (.leaf c) → t'.sub? path = some (.leaf c)
  node {path : List Bool} : (t.sub? path).any isNode = true → (t'.sub? path).any isNode = true

section

variable {t t' : HuffmanTree} {b : Bool}

theorem Extends.refl : Extends t t := ⟨id, id⟩

theorem Extends.complete (h : Extends t t') (ht : t.Complete) : t'.Complete :=
  ⟨fun c => h.leaf (ht.code c), fun k hk => h.node (ht.padding k hk)⟩

theorem Complete.isNode (h : t.Complete) : t.isNode = true := by
  have hroot := h.padding 0 (by omega)
  cases t with
  | node => rfl
  | _ => simp [sub?, HuffmanTree.isNode] at hroot

theorem child_isNode (ht : t.isNode = true) (hleaf : ∀ c, t.child b ≠ .leaf c) :
    (t.child b).isNode = true := by
  cases t with
  | node zero one =>
    cases b
    · cases zero <;> simp [child, HuffmanTree.empty, HuffmanTree.isNode] at hleaf ⊢
    · cases one <;> simp [child, HuffmanTree.empty, HuffmanTree.isNode] at hleaf ⊢
  | _ => cases ht

theorem setChild_isNode (ht : t.isNode = true) : (t.setChild b t').isNode = true := by
  cases t with
  | node zero one => cases b <;> rfl
  | _ => cases ht

theorem setChild_extends (ht : t.isNode = true) (h : Extends (t.child b) t') : Extends t (t.setChild b t') := by
  have other {path : List Bool} : (t.setChild b t').sub? ((!b) :: path) = t.sub? ((!b) :: path) := by
    cases t with
    | node zero one => cases b <;> rfl
    | _ => cases ht
  have same {path : List Bool} : (t.setChild b t').sub? (b :: path) = t'.sub? path := by
    cases t with
    | node zero one => cases b <;> rfl
    | _ => cases ht
  constructor
  · intro path c hpath
    cases path with
    | nil => cases t <;> simp [sub?, isNode] at hpath ht
    | cons b' path =>
      rcases Bool.eq_or_eq_not b' b with rfl | rfl
      · rw [same]
        exact h.leaf (sub?_cons hpath).1
      · rwa [other]
  · intro path hpath
    cases path with
    | nil =>
      have hnode : (t.setChild b t').isNode = true := setChild_isNode ht
      cases hset : t.setChild b t' <;> simp [hset, isNode, sub?] at hnode ⊢
    | cons b' path =>
      rcases Bool.eq_or_eq_not b' b with rfl | rfl
      · obtain ⟨u, hu, hnode⟩ := (Option.any_eq_true _ _).mp hpath
        rw [same]
        exact h.node ((Option.any_eq_true _ _).mpr ⟨u, (sub?_cons hu).1, hnode⟩)
      · rwa [other]

end

end HuffmanTree

namespace BitDecoder

open HuffmanTree

theorem readBit_moves {d d' : BitDecoder} {b : Bool} (hlt : d.bitOffset < 8) (h : d.readBit = .ok (b, d')) :
    d'.data = d.data ∧ d'.bitOffset < 8 ∧ d'.position = d.position + 1 := by
  unfold readBit at h
  split at h
  · cases h
  · dsimp only at h
    split at h <;> cases h <;> refine ⟨rfl, ?_, ?_⟩ <;> simp only [position] <;> omega

/-- A walk only adds to the tree. -/
theorem walk_extends {limit fuel : Nat} {t : HuffmanTree} {d : BitDecoder} (ht : t.isNode = true) :
    Extends t (walk limit fuel t d).2 := by
  induction fuel generalizing t d with
  | zero => exact .refl
  | succ fuel ih =>
    rw [walk]
    split
    · split
      · exact .refl
      · rename_i b d' hread
        cases hchild : t.child b with
        | leaf c => exact .refl
        | missing =>
          have hnode := child_isNode (b := b) ht fun c h => by simp [hchild] at h
          rw [hchild] at hnode
          cases hnode
        | node zero one =>
          refine setChild_extends ht ?_
          rw [hchild]
          exact ih rfl
    · exact .refl

/-- A walk that finds no character ends at the limit; it only raises at the end of the data. -/
def WalkEnds (limit : Nat) (d : BitDecoder) : Except PyException (Option UInt8 × BitDecoder) → Prop
  | .ok (c, d') => d'.data = d.data ∧ d'.bitOffset < 8 ∧ d'.position ≤ 8 * limit ∧
    (if c.isSome then d.position < d'.position else d'.position = 8 * limit)
  | .error _ => d.data.length < limit

theorem walk_end {limit fuel : Nat} {t : HuffmanTree} {d : BitDecoder} (hlt : d.bitOffset < 8)
    (hpos : d.position ≤ 8 * limit) (hfuel : 8 * limit ≤ d.position + fuel) :
    WalkEnds limit d (walk limit fuel t d).1 := by
  induction fuel generalizing t d with
  | zero => exact ⟨rfl, hlt, hpos, by simpa using by omega⟩
  | succ fuel ih =>
    rw [walk]
    split
    · rename_i hbefore
      split
      · rename_i e hread
        by_contra hlimit
        rw [readBit, List.getElem?_eq_getElem (hbefore.trans_le (not_lt.mp hlimit))] at hread
        dsimp only at hread
        split at hread <;> cases hread
      · rename_i b d' hread
        have hbefore := (byteOffset_lt_iff hlt).mp hbefore
        obtain ⟨hdata, hlt', hmoved⟩ := readBit_moves hlt hread
        split
        · exact ⟨hdata, hlt', by omega, by simpa using by omega⟩
        · have hrest := @ih (t.child b) d' hlt' (by omega) (by omega)
          dsimp only
          rcases hwalk : (walk limit fuel (t.child b) d').1 with e | ⟨c, d''⟩ <;> rw [hwalk] at hrest
          · exact (congrArg (fun data => data.length < limit) hdata).mp hrest
          · obtain ⟨hdata', hlt'', hpos', hend⟩ := hrest
            refine ⟨hdata'.trans hdata, hlt'', hpos', ?_⟩
            cases c with
            | none => exact hend
            | some c => exact (show d.position < d'.position by omega).trans hend
    · rename_i hend
      rw [byteOffset_lt_iff hlt] at hend
      exact ⟨rfl, hlt, hpos, by simpa using by omega⟩

end BitDecoder

namespace HpackDecoder

theorem keepsReading_complete : KeepsReading (fun s => s.tree.Complete) Anything where
  bits _ hs := ⟨hs, trivial⟩
  char destByte := by
    intro s hs
    have hwalk := (@BitDecoder.walk_extends destByte (8 * (destByte - s.bits.byteOffset)) s.tree s.bits
      hs.isNode).complete hs
    rw [readHuffmanChar]
    dsimp only [BitDecoder.readHuffmanChar, Option.getD_some]
    split <;> rename_i hrun <;> rw [hrun] at hwalk <;> exact ⟨hwalk, trivial⟩

/-- Whatever is decoded, the tree goes on reading every character. -/
theorem decode_complete (d : HpackDecoder) {tree : HuffmanTree} (h : tree.Complete) (data : Bytes) :
    (d.decode tree data).2.2.Complete := by
  have hloop : Keeps (fun s => s.tree.Complete) Anything (decodeLoop data.length true) :=
    keepsReading_complete.decodeLoop (fun _ _ _ hs => ⟨hs, trivial⟩) fun _ _ _ hs => ⟨hs, trivial⟩
  have hrun := (hloop ⟨.new data, tree, d.table⟩ h).1
  rw [decode]
  split <;> rename_i heq <;> rw [heq] at hrun <;> exact hrun

/-- The tree that the decoders of the process share, after any blocks. -/
inductive SharedTree : HuffmanTree → Prop
  | loaded : SharedTree huffmanTree
  | decoded {tree : HuffmanTree} (d : HpackDecoder) (data : Bytes) (h : SharedTree tree) :
    SharedTree (d.decode tree data).2.2

theorem SharedTree.complete {tree : HuffmanTree} (h : SharedTree tree) : tree.Complete := by
  induction h with
  | loaded => exact huffmanTree_complete
  | decoded d data _ ih => exact d.decode_complete ih data

/-- A payload is read to its end, if that is there. -/
theorem readHuffmanChars_end {destByte fuel : Nat} {s : Decoding} (hlt : s.bits.bitOffset < 8)
    (hpos : s.bits.position ≤ 8 * destByte) (hfuel : 8 * destByte ≤ s.bits.position + fuel) :
    wp (readHuffmanChars destByte fuel)
      (fun _ s' => s'.bits.data = s.bits.data ∧ s'.bits.bitOffset < 8 ∧ s'.bits.position = 8 * destByte)
      (fun _ _ => s.bits.data.length < destByte) s := by
  induction fuel generalizing s with
  | zero =>
    have hend : s.bits.position = 8 * destByte := by omega
    exact ⟨rfl, hlt, hend⟩
  | succ fuel ih =>
    rw [readHuffmanChars, wp_bind, wp_get, wp_ite]
    refine ⟨fun _ => ?_, fun hend => ?_⟩
    · have hwalk := @BitDecoder.walk_end destByte (8 * (destByte - s.bits.byteOffset)) s.tree s.bits hlt hpos
        (by simp only [BitDecoder.position]; omega)
      rw [wp_bind, wp, readHuffmanChar]
      dsimp only [BitDecoder.readHuffmanChar, Option.getD_some]
      rcases hrun : BitDecoder.walk destByte (8 * (destByte - s.bits.byteOffset)) s.tree s.bits with
        ⟨e | ⟨c, d⟩, tree⟩ <;> rw [hrun] at hwalk
      · exact hwalk
      obtain ⟨hdata, hlt', hpos', hend⟩ := hwalk
      cases c with
      | none => exact ⟨hdata, hlt', hend⟩
      | some c =>
        have hmoved : s.bits.position < d.position := hend
        change wp (readHuffmanChars destByte fuel >>= _) _ _ (⟨d, tree, s.table⟩ : Decoding)
        rw [wp_bind]
        refine wp_mono (ih hlt' hpos' ?_) (fun _ s' h => ⟨h.1.trans hdata, h.2⟩) fun _ _ h => hdata ▸ h
        change _ ≤ d.position + fuel
        omega
    · rw [BitDecoder.byteOffset_lt_iff hlt] at hend
      have hend : s.bits.position = 8 * destByte := by omega
      exact ⟨rfl, hlt, hend⟩

end HpackDecoder

/-- The bits are the codes of some bytes, padded to a whole byte with ones. -/
def IsCanonical (payload : Bytes) : Prop :=
  ∃ (str : Bytes) (k : Nat), k < 8 ∧ toBits payload = str.flatMap huffmanMap ++ List.replicate k true

theorem writeHuffmanString_eq_iff {str payload : Bytes} : (BitEncoder.new.writeHuffmanString str).data = payload ↔
    ∃ k < 8, toBits payload = str.flatMap huffmanMap ++ List.replicate k true := by
  obtain ⟨k, hk, hbits⟩ := BitEncoder.writeHuffmanString_toBits str
  constructor
  · rintro rfl
    exact ⟨k, hk, hbits⟩
  · rintro ⟨k', hk', hbits'⟩
    have hlength := congrArg List.length hbits
    have hlength' := congrArg List.length hbits'
    simp only [toBits_length, List.length_append, List.length_replicate] at hlength hlength'
    obtain rfl : k' = k := by omega
    exact toBits_inj (hbits.trans hbits'.symm)

theorem isCanonical_iff {payload : Bytes} :
    IsCanonical payload ↔ ∃ str, (BitEncoder.new.writeHuffmanString str).data = payload :=
  exists_congr fun _ => (writeHuffmanString_eq_iff.trans (by simp)).symm

namespace HpackDecoder

/-- A Huffman literal with this payload comes next. -/
def AtLiteral (s : Decoding) (payload : Bytes) : Prop :=
  ∃ d d', s.bits.readBit = .ok (true, d) ∧ d.readHpackInt = .ok (payload.length, d') ∧
    payload <+: d'.data.drop d'.byteOffset

theorem readHpackInt_bitOffset {d d' : BitDecoder} {n : Nat} (h : d.readHpackInt = .ok (n, d')) :
    d'.bitOffset = 0 := by
  unfold BitDecoder.readHpackInt at h
  split at h
  · cases h
  · dsimp only at h
    split at h
    · cases h
      rfl
    · cases hc : BitDecoder.readContinuation (d.data.drop (d.byteOffset + 1)) _ 0 with
      | error e => rw [hc] at h; cases h
      | ok r => rw [hc] at h; cases h; rfl

theorem readString_literal {s : Decoding} {payload : Bytes} (h : AtLiteral s payload) :
    ∃ d rest, d.Ahead (toBits payload ++ rest) ∧ d.bitOffset = 0 ∧ readString.run s =
      (readHuffmanChars (d.byteOffset + payload.length) (8 * payload.length)).run { s with bits := d } := by
  obtain ⟨d, d', hbit, hint, rest, hrest⟩ := h
  have hoffset := readHpackInt_bitOffset hint
  refine ⟨d', toBits rest, ⟨by omega, ?_⟩, hoffset, ?_⟩
  · rw [BitDecoder.position, hoffset, Nat.add_zero, toBits_drop, ← hrest, toBits_append]
  · have hread : readBit.run s = (.ok true, { s with bits := d }) := by simp only [readBit, read, hbit]
    have hlength : readHpackInt.run { s with bits := d } = (.ok payload.length, { s with bits := d' }) := by
      simp only [readHpackInt, read, hint]
    rw [readString, bind_ok hread, bind_ok hlength]
    rfl

theorem readString_canonical {s : Decoding} {str : Bytes} (ht : s.tree.Complete)
    (h : AtLiteral s (BitEncoder.new.writeHuffmanString str).data) :
    (readString.run s).1 = .ok str := by
  obtain ⟨k, hk, hbits⟩ := BitEncoder.writeHuffmanString_toBits str
  obtain ⟨d, rest, hahead, hoffset, hrun⟩ := readString_literal h
  have hlength := congrArg List.length hbits
  simp only [toBits_length, List.length_append, List.length_replicate] at hlength
  rw [hbits, List.append_assoc] at hahead
  rw [hrun, @readHuffmanChars_ahead { s with bits := d } _ _ _ _ _ hk ht hahead
    (by simp only [BitDecoder.position, hoffset]; omega) (by omega)]

theorem readPayload_ok {s : Decoding} {payload : Bytes} {rest : List Bool}
    (h : s.bits.Ahead (toBits payload ++ rest)) (hoffset : s.bits.bitOffset = 0) :
    ∃ str s', (readHuffmanChars (s.bits.byteOffset + payload.length) (8 * payload.length)).run s = (.ok str, s') ∧
      s'.bits.data = s.bits.data ∧ s'.bits.bitOffset < 8 ∧
        s'.bits.position = s.bits.position + 8 * payload.length := by
  cases payload with
  | nil => exact ⟨[], s, rfl, rfl, h.lt, rfl⟩
  | cons b payload =>
    have hlength := congrArg List.length h.drop
    simp only [List.length_drop, List.length_append, toBits_length, List.length_cons] at hlength
    have hpos : s.bits.position = 8 * s.bits.byteOffset := by rw [BitDecoder.position, hoffset, Nat.add_zero]
    have hread := @readHuffmanChars_end (s.bits.byteOffset + (payload.length + 1)) (8 * (payload.length + 1)) s
      h.lt (by omega) (by omega)
    rw [List.length_cons]
    rcases hrun : (readHuffmanChars _ (8 * (payload.length + 1))).run s with ⟨_ | str, s'⟩
    · have hshort : s.bits.data.length < _ := (wp_of_error hrun).mp hread
      omega
    · obtain ⟨hdata, hlt, hend⟩ := (wp_of_ok hrun).mp hread
      exact ⟨str, s', rfl, hdata, hlt, by omega⟩

theorem readString_ok {s : Decoding} {payload : Bytes} (h : AtLiteral s payload) :
    ∃ str, (readString.run s).1 = .ok str := by
  obtain ⟨d, rest, hahead, hoffset, hrun⟩ := readString_literal h
  obtain ⟨str, s', hread, -⟩ := @readPayload_ok { s with bits := d } _ _ hahead hoffset
  exact ⟨str, by rw [hrun, hread]⟩

/-- A block of one field, `:path` without indexing, whose value is a Huffman
literal with this payload. -/
def literalBlock (payload : Bytes) : Bytes :=
  0x04 :: ((BitEncoder.new.writeBit true).writeHpackInt payload.length).data ++ payload

theorem literalBlock_toBits (payload : Bytes) : toBits (literalBlock payload) =
    modeBits .no ++ (BitEncoder.hpackIntBits 4 4 ++
      (true :: (BitEncoder.hpackIntBits 7 payload.length ++ toBits payload))) := by
  obtain ⟨hbit, hoffset⟩ := BitEncoder.writeBit_holds BitEncoder.new_holds true
  obtain ⟨hint, hend⟩ := BitEncoder.writeHpackInt_holds hbit payload.length
  rw [literalBlock, List.cons_append, toBits_cons, toBits_append, hint.toBits_data hend, hoffset]
  simp [BitEncoder.new, show byteBits 0x04 = modeBits .no ++ BitEncoder.hpackIntBits 4 4 from by decide]

theorem atLiteral_of_ahead {s : Decoding} {payload : Bytes} (hoffset : s.bits.bitOffset = 0)
    (h : s.bits.Ahead (true :: (BitEncoder.hpackIntBits 7 payload.length ++ toBits payload))) :
    AtLiteral s payload := by
  have hbit : ((s.bits.advance 1).bitOffset) = 1 := by rw [BitDecoder.bitOffset_advance hoffset]
  have hint := @BitDecoder.readHpackInt_ahead (s.bits.advance 1) payload.length (toBits payload)
    (by rw [hbit]; exact h.tail)
  rw [hbit] at hint
  refine ⟨_, _, BitDecoder.readBit_ahead h, hint, ?_⟩
  have hahead := (h.tail).advance
  have hend := readHpackInt_bitOffset hint
  have hdrop := hahead.drop
  rw [BitDecoder.position, hend, Nat.add_zero, toBits_drop] at hdrop
  exact ⟨[], (List.append_nil _).trans (toBits_inj hdrop).symm⟩

theorem decodeLoop_eod {s : Decoding} (h : s.bits.eod = true) {fuel : Nat} {allowed : Bool} :
    (decodeLoop fuel allowed).run s = (.ok [], s) := by
  cases fuel with
  | zero => rfl
  | succ fuel => rw [decodeLoop, run_get_bind, if_pos h, run_pure]

/-- `decode` passes on what the literal reads as. -/
theorem decode_literalBlock (d : HpackDecoder) {tree : HuffmanTree} (payload : Bytes) :
    ∃ s str, AtLiteral s payload ∧ s.tree = tree ∧ (readString.run s).1 = .ok str ∧
      (d.decode tree (literalBlock payload)).1 = .ok [(ascii ":path", some str, .no)] := by
  let s₀ : Decoding := ⟨.new (literalBlock payload), tree, d.table⟩
  have h₀ : s₀.bits.Ahead (toBits (literalBlock payload)) := BitDecoder.new_ahead _
  rw [literalBlock_toBits] at h₀
  have h₁ := h₀.advance
  have hindex := readHpackInt_ahead (s := s₀.advance (modeBits .no).length) h₁ rfl
  have h₂ := h₁.advance
  obtain ⟨s₁, hs₁⟩ : ∃ s₁, (s₀.advance (modeBits .no).length).advance (BitEncoder.hpackIntBits 4 4).length = s₁ :=
    ⟨_, rfl⟩
  have hoffset : s₁.bits.bitOffset = 0 := by
    rw [← hs₁, Decoding.advance_advance, Decoding.advance_bits, BitDecoder.bitOffset_advance rfl]
    decide
  have hlit : s₁.bits.Ahead (true :: (BitEncoder.hpackIntBits 7 payload.length ++ toBits payload)) := by
    rw [← hs₁]
    exact h₂
  have hread := readBit_ahead hlit
  have hint := readHpackInt_ahead (s := s₁.advance 1) hlit.tail
    (by rw [Decoding.advance_bits, BitDecoder.bitOffset_advance hoffset])
  have hpay := hlit.tail.advance
  obtain ⟨s₂, hs₂⟩ : ∃ s₂, (s₁.advance 1).advance (BitEncoder.hpackIntBits 7 payload.length).length = s₂ := ⟨_, rfl⟩
  rw [hs₂] at hint
  have hoffset₂ : s₂.bits.bitOffset = 0 := by
    obtain ⟨c, hc⟩ := BitDecoder.hpackIntBits_length 7 payload.length
    rw [← hs₂, Decoding.advance_advance, Decoding.advance_bits, BitDecoder.bitOffset_advance hoffset, hc]
    omega
  have hahead : s₂.bits.Ahead (toBits payload ++ []) := by
    rw [← hs₂, List.append_nil]
    exact hpay
  obtain ⟨str, s', hchars, hdata, hlt, hend⟩ := readPayload_ok hahead hoffset₂
  have hstring : readString.run s₁ = (.ok str, s') := by
    rw [readString, bind_ok hread, bind_ok hint]
    exact hchars
  have hpair : readNameValuePair.run (s₀.advance (modeBits .no).length) = (.ok (ascii ":path", str), s') := by
    rw [readNameValuePair, bind_ok hindex, hs₁, if_neg (by decide),
      bind_ok (@readFromIndex_static s₁ 4 (ascii ":path", some (ascii "/")) (by decide) rfl), run_pure_bind,
      bind_ok hstring, run_pure]
  have hfield : (decodeField true).run s₀ = (.ok (some (ascii ":path", some str, .no)), s') := by
    rw [decodeField_literal h₀, literalTail, bind_ok hpair]
    rfl
  have heod : s'.bits.eod = true := by
    have hlength := congrArg List.length (literalBlock_toBits payload)
    have hdata₂ : s₂.bits.data = literalBlock payload := by rw [← hs₂, ← hs₁]; rfl
    have hpos : s₂.bits.position = (modeBits .no).length + ((BitEncoder.hpackIntBits 4 4).length +
        (1 + (BitEncoder.hpackIntBits 7 payload.length).length)) := by
      rw [← hs₂, ← hs₁]
      simp only [Decoding.advance_bits, BitDecoder.advance_position, show s₀.bits.position = 0 from rfl]
      omega
    simp only [toBits_length, List.length_append, List.length_cons] at hlength
    rw [BitDecoder.eod, hdata, hdata₂]
    rw [hpos, BitDecoder.position] at hend
    exact decide_eq_true (by omega)
  refine ⟨s₁, str, atLiteral_of_ahead hoffset hlit, by rw [← hs₁]; rfl, by rw [hstring], ?_⟩
  have hloop : (decodeLoop (literalBlock payload).length true).run s₀ =
      (.ok [(ascii ":path", some str, .no)], s') := by
    rw [literalBlock, List.cons_append, List.length_cons, decodeLoop, run_get_bind,
      if_neg (by simp [s₀, BitDecoder.eod, BitDecoder.new, literalBlock]),
        bind_ok hfield, bind_ok (decodeLoop_eod heod), run_pure]
  rw [decode, hloop]

/-- The literal reads as the string that it encodes, and is refused if there is none. -/
def ReadsCanonically (payload : Bytes) (r : Except PyException Bytes) : Prop :=
  (∀ str, r = .ok str → (BitEncoder.new.writeHuffmanString str).data = payload) ∧
  ((∀ str, (BitEncoder.new.writeHuffmanString str).data ≠ payload) → ∃ e, r = .error e)

/-- The same of the block that holds the literal. -/
def DecodesCanonically (payload : Bytes)
    (r : Except PyException (List (Bytes × Option Bytes × HeaderIndexMode))) : Prop :=
  (∀ headers, r = .ok headers → ∃ str, headers = [(ascii ":path", some str, .no)] ∧
    (BitEncoder.new.writeHuffmanString str).data = payload) ∧
  ((∀ str, (BitEncoder.new.writeHuffmanString str).data ≠ payload) → r = .error .hpackError)

theorem readsCanonically_iff {s : Decoding} {payload : Bytes} (hs : s.tree.Complete)
    (hat : AtLiteral s payload) : ReadsCanonically payload (readString.run s).1 ↔ IsCanonical payload := by
  rw [isCanonical_iff]
  obtain ⟨str, hread⟩ := readString_ok hat
  rw [hread]
  constructor
  · rintro ⟨hok, -⟩
    exact ⟨str, hok str rfl⟩
  · rintro ⟨str', rfl⟩
    obtain rfl : str' = str := Except.ok.inj ((readString_canonical hs hat).symm.trans hread)
    refine ⟨fun _ h => by cases h; rfl, fun hnone => absurd rfl (hnone str')⟩

theorem decodesCanonically_iff (d : HpackDecoder) {tree : HuffmanTree} (ht : tree.Complete) (payload : Bytes) :
    DecodesCanonically payload (d.decode tree (literalBlock payload)).1 ↔ IsCanonical payload := by
  obtain ⟨s, str, hat, htree, hread, hdecode⟩ := decode_literalBlock d payload
  rw [← readsCanonically_iff (htree.symm ▸ ht) hat, hread, hdecode]
  constructor
  · rintro ⟨hok, hbad⟩
    obtain ⟨_, hheaders, hstr⟩ := hok _ rfl
    cases hheaders
    exact ⟨fun _ h => by cases h; exact hstr, fun hnone => absurd hstr (hnone str)⟩
  · rintro ⟨hok, -⟩
    exact ⟨fun _ h => ⟨str, by cases h; rfl, hok str rfl⟩, fun hnone => absurd (hok str rfl) (hnone str)⟩

theorem huffman_literals (payload : Bytes) {s : Decoding} (hs : s.tree.Complete) (hat : AtLiteral s payload)
    (d : HpackDecoder) {tree : HuffmanTree} (ht : SharedTree tree) :
    (ReadsCanonically payload (readString.run s).1 ↔ IsCanonical payload) ∧
      (DecodesCanonically payload (d.decode tree (literalBlock payload)).1 ↔ IsCanonical payload) :=
  ⟨readsCanonically_iff hs hat, decodesCanonically_iff d ht.complete payload⟩

/-- The letter `a`, which fills its byte with three ones. -/
theorem huffman_literals_letter :
    ReadsCanonically [0x1f] (readString.run ⟨.new [0x81, 0x1f], huffmanTree, .new 4096⟩).1 ∧
      DecodesCanonically [0x1f] ((HpackDecoder.new 4096).decode huffmanTree (literalBlock [0x1f])).1 := by
  have hcanonical : IsCanonical [0x1f] := ⟨ascii "a", 3, by decide, by decide +kernel⟩
  obtain ⟨hreads, hdecodes⟩ := huffman_literals [0x1f]
    (s := ⟨.new [0x81, 0x1f], huffmanTree, .new 4096⟩) (by dsimp only; exact huffmanTree_complete)
    ⟨_, _, rfl, rfl, [], rfl⟩ (.new 4096) .loaded
  exact ⟨hreads.mpr hcanonical, hdecodes.mpr hcanonical⟩

/-- The letter `a` with three zeros after it. -/
theorem huffman_literals_zeros :
    ¬ DecodesCanonically [0x18] ((HpackDecoder.new 4096).decode huffmanTree (literalBlock [0x18])).1 := by
  have hdecode : ((HpackDecoder.new 4096).decode huffmanTree (literalBlock [0x18])).1 =
      .ok [(ascii ":path", some (ascii "a"), .no)] := by decide +kernel
  rw [hdecode]
  rintro ⟨hok, -⟩
  obtain ⟨_, hheaders, hstr⟩ := hok _ rfl
  cases hheaders
  exact absurd hstr (by decide +kernel)

end HpackDecoder

end TornadoHttp2
