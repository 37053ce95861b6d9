import TornadoHttp2.FieldReading
import TornadoHttp2.Runs

/-! The tree that the decoders of a process share. Reading it adds to it where a
Huffman literal goes on with the end-of-stream code, which the loader has skipped. -/

namespace TornadoHttp2

open BitString Prog

namespace HuffmanTree

/-- Every path ends at a leaf. -/
def full : HuffmanTree → Bool
  | .missing => false
  | .leaf _ => true
  | .node zero one => zero.full && one.full

/-- Every path ends at a leaf, but for that of `n` ones, where there is nothing. -/
def fullBut : Nat → HuffmanTree → Bool
  | 0, .missing => true
  | n + 1, .node zero one => zero.full && one.fullBut n
  | _, _ => false

/-- The codes of the characters below a node. -/
def codes : HuffmanTree → List (List Bool × UInt8)
  | .missing => []
  | .leaf c => [([], c)]
  | .node zero one => zero.codes.map (fun p => (false :: p.1, p.2)) ++ one.codes.map fun p => (true :: p.1, p.2)

theorem mem_codes {t : HuffmanTree} {path : List Bool} {c : UInt8} (h : t.sub? path = some (.leaf c)) :
    (path, c) ∈ t.codes := by
  induction path generalizing t with
  | nil =>
    cases t with
    | leaf => simpa [sub?, codes] using h.symm
    | _ => simp [sub?] at h
  | cons b path ih =>
    cases t with
    | node zero one => cases b <;> simpa [codes] using ih h
    | _ => simp [sub?] at h

/-- A child that has just come into being has no characters. -/
theorem sub?_of_child {t : HuffmanTree} {b : Bool} {path : List Bool} {c : UInt8}
    (h : (t.child b).sub? path = some (.leaf c)) : t.sub? (b :: path) = some (.leaf c) := by
  have hempty : empty.sub? path ≠ some (.leaf c) := by
    rcases path with _ | ⟨b, path⟩
    · simp [empty, sub?]
    · cases b <;> simp [empty, sub?]
  cases t with
  | node zero one =>
    cases b
    · cases zero with
      | missing => exact absurd h hempty
      | _ => simpa [child, sub?] using h
    · cases one with
      | missing => cases zero <;> exact absurd h hempty
      | _ => simpa [child, sub?] using h
  | _ => exact absurd h hempty

theorem sub?_setChild {t t' : HuffmanTree} {b : Bool} {path : List Bool} (ht : t.isNode = true) :
    (t.setChild b t').sub? (b :: path) = t'.sub? path := by
  cases t with
  | node zero one => cases b <;> rfl
  | _ => cases ht

theorem full_child {t : HuffmanTree} (h : t.full = true) (hnode : t.isNode = true) (b : Bool) :
    (t.child b).full = true ∧ t.setChild b (t.child b) = t := by
  cases t with
  | node zero one =>
    obtain ⟨hzero, hone⟩ := Bool.and_eq_true_iff.mp h
    cases b
    · cases zero <;> simp_all [full, child, setChild]
    · cases one <;> simp_all [full, child, setChild]
  | _ => cases hnode

theorem fullBut_child {t : HuffmanTree} {n : Nat} (h : t.fullBut (n + 1) = true) :
    t.isNode = true ∧ ((t.child false).full = true ∧ t.setChild false (t.child false) = t) ∧
      (n ≠ 0 → (t.child true).fullBut n = true ∧ t.setChild true (t.child true) = t) := by
  cases t with
  | node zero one =>
    obtain ⟨hzero, hone⟩ := Bool.and_eq_true_iff.mp h
    refine ⟨rfl, ?_, fun hn => ?_⟩
    · cases zero <;> simp_all [full, child, setChild]
    · obtain ⟨n, rfl⟩ := Nat.exists_eq_succ_of_ne_zero hn
      cases one <;> simp_all [fullBut, child, setChild]
  | _ => simp [fullBut] at h

end HuffmanTree

open HuffmanTree

theorem sub?_ones {t : HuffmanTree} {n k : Nat} (h : t.fullBut n = true) (hk : k ≤ n) (c : UInt8) :
    t.sub? (List.replicate k true) ≠ some (.leaf c) := by
  induction k generalizing t n with
  | zero => cases t <;> cases n <;> simp [fullBut, sub?] at h ⊢
  | succ k ih =>
    obtain ⟨n, rfl⟩ : ∃ m, n = m + 1 := ⟨n - 1, by omega⟩
    cases t with
    | node zero one => exact ih (Bool.and_eq_true_iff.mp h).2 (by omega)
    | _ => simp [fullBut] at h

theorem sub?_of_fullBut {t : HuffmanTree} {n : Nat} (h : t.fullBut n = true) :
    t.sub? (List.replicate n true) = none := by
  induction n generalizing t with
  | zero =>
    cases t with
    | missing => rfl
    | _ => simp [fullBut] at h
  | succ n ih =>
    cases t with
    | node zero one => exact ih (Bool.and_eq_true_iff.mp h).2
    | _ => simp [fullBut] at h

/-- The end-of-stream code is the only one that is not in the tree. -/
theorem huffmanTree_loaded : huffmanTree.fullBut 30 = true ∧ ∀ p ∈ huffmanTree.codes, p.1 = huffmanMap p.2 := by
  decide +kernel

/-- The codes in the tree are those of the table. -/
theorem huffmanTree_code {path : List Bool} {c : UInt8} (h : huffmanTree.sub? path = some (.leaf c)) :
    path = huffmanMap c := huffmanTree_loaded.2 _ (mem_codes h)

namespace BitDecoder

/-- The bits ahead, as far as the limit. -/
def upTo (limit : Nat) (d : BitDecoder) : List Bool := ((toBits d.data).drop d.position).take (8 * limit - d.position)

variable {limit fuel : Nat} {d d' : BitDecoder} {b : Bool} {t : HuffmanTree}

theorem readBit_upTo (hlt : d.bitOffset < 8) (hbefore : d.byteOffset < limit) (h : d.readBit = .ok (b, d')) :
    d.upTo limit = b :: d'.upTo limit ∧ d'.bitOffset < 8 := by
  have hpos := (byteOffset_lt_iff hlt).mp hbefore
  have hd : d.Ahead ((toBits d.data).drop d.position) := ⟨hlt, rfl⟩
  cases hbits : (toBits d.data).drop d.position with
  | nil =>
    have hlength := congrArg List.length hbits
    simp only [List.length_drop, toBits_length, List.length_nil, position] at hlength
    rw [readBit, List.getElem?_eq_none (by omega)] at h
    cases h
  | cons b' bits =>
    rw [hbits] at hd
    rw [readBit_ahead hd] at h
    cases h
    obtain ⟨hlt', hdrop⟩ := hd.tail
    refine ⟨?_, hlt'⟩
    obtain ⟨n, hn⟩ : ∃ n, 8 * limit - d.position = n + 1 := ⟨8 * limit - d.position - 1, by omega⟩
    rw [upTo, hbits, hn, List.take_succ_cons, upTo, hdrop, advance_position]
    congr 2
    omega

theorem ahead_of_upTo {xs ys : List Bool} (hlt : d.bitOffset < 8) (h : d.upTo limit = xs ++ ys) :
    (∃ rest, d.Ahead (xs ++ rest)) ∧ xs.length ≤ 8 * limit - d.position ∧ (d.advance xs.length).upTo limit = ys := by
  have htake : ((toBits d.data).drop d.position).take (8 * limit - d.position) = xs ++ ys := h
  have hlength : xs.length ≤ 8 * limit - d.position := by
    have hle := List.length_take_le (8 * limit - d.position) ((toBits d.data).drop d.position)
    rw [htake, List.length_append] at hle
    omega
  have hdrop := (List.take_append_drop (8 * limit - d.position) ((toBits d.data).drop d.position)).symm
  rw [htake, List.append_assoc] at hdrop
  refine ⟨⟨_, hlt, hdrop⟩, hlength, ?_⟩
  rw [upTo, advance_data, advance_position, ← List.drop_drop, Nat.sub_add_eq, ← List.drop_take, htake, List.drop_left]

/-- A walk that comes to a character has taken its code. -/
theorem walk_code_taken (hlt : d.bitOffset < 8) {c : UInt8} (h : (walk limit fuel t d).1 = .ok (some c, d')) :
    ∃ path, t.sub? path = some (.leaf c) ∧ d.upTo limit = path ++ d'.upTo limit ∧ d'.bitOffset < 8 := by
  induction fuel generalizing t d with
  | zero => cases h
  | succ fuel ih =>
    rw [walk] at h
    split at h
    · rename_i hbefore
      split at h
      · cases h
      · rename_i b d₁ hread
        obtain ⟨hbits, hlt'⟩ := readBit_upTo hlt hbefore hread
        split at h
        · rename_i hleaf
          cases h
          exact ⟨[b], sub?_of_child (by rw [hleaf]; rfl), hbits, hlt'⟩
        · obtain ⟨path, hpath, hrest, hlt''⟩ := ih hlt' h
          exact ⟨b :: path, sub?_of_child hpath, by rw [hbits, hrest, List.cons_append], hlt''⟩
    · cases h

theorem walk_full (hfull : t.full = true) (hnode : t.isNode = true) : (walk limit fuel t d).2 = t := by
  induction fuel generalizing t d with
  | zero => rfl
  | succ fuel ih =>
    rw [walk]
    split
    · split
      · rfl
      · rename_i b d' _
        obtain ⟨hchild, hset⟩ := full_child hfull hnode b
        split
        · rfl
        · rename_i hleaf
          dsimp only
          rw [ih hchild (child_isNode hnode hleaf), hset]
    · rfl

/-- Unless it takes `n` ones, a walk leaves the tree as it is. -/
theorem walk_fullBut {n : Nat} (hlt : d.bitOffset < 8) (hn : n ≠ 0) (hfull : t.fullBut n = true)
    (hbits : ¬ List.replicate n true <+: d.upTo limit) : (walk limit fuel t d).2 = t := by
  induction fuel generalizing t d n with
  | zero => rfl
  | succ fuel ih =>
    obtain ⟨n, rfl⟩ := Nat.exists_eq_succ_of_ne_zero hn
    obtain ⟨hnode, ⟨hzero, hset⟩, hone⟩ := fullBut_child hfull
    rw [walk]
    split
    · rename_i hbefore
      split
      · rfl
      · rename_i b d' hread
        obtain ⟨hahead, hlt'⟩ := readBit_upTo hlt hbefore hread
        split
        · rfl
        · rename_i hleaf
          dsimp only
          cases b with
          | false => rw [walk_full hzero (child_isNode hnode hleaf), hset]
          | true =>
            rw [hahead, List.replicate_succ, List.prefix_cons_inj] at hbits
            by_cases hn0 : n = 0
            · exact absurd (by simp [hn0]) hbits
            · obtain ⟨hchild, hset'⟩ := hone hn0
              rw [ih hlt' hn0 hchild hbits, hset']
    · rfl

/-- Ones that lead out of the tree lead to a node afterwards. -/
theorem walk_ones {n : Nat} {rest : List Bool} (hnode : t.isNode = true)
    (hleaf : ∀ k c, k ≤ n → t.sub? (List.replicate k true) ≠ some (.leaf c))
    (hahead : d.Ahead (List.replicate n true ++ rest)) (hlimit : d.position + n ≤ 8 * limit) (hfuel : n ≤ fuel) :
    ((walk limit fuel t d).2.sub? (List.replicate n true)).any isNode = true := by
  induction n generalizing t d fuel with
  | zero =>
    refine (walk_extends hnode).node ?_
    cases t with
    | node => rfl
    | _ => cases hnode
  | succ n ih =>
    obtain ⟨fuel, rfl⟩ : ∃ m, fuel = m + 1 := ⟨fuel - 1, by omega⟩
    rw [List.replicate_succ, List.cons_append] at hahead
    have hbefore : d.byteOffset < limit := (byteOffset_lt_iff hahead.lt).mpr (by omega)
    rw [walk, if_pos hbefore, readBit_ahead hahead]
    have hchild (c : UInt8) : t.child true ≠ .leaf c := fun h =>
      hleaf 1 c (by omega) (sub?_of_child (by rw [h]; rfl))
    have hrest := ih (child_isNode hnode hchild)
      (fun k c hk h => hleaf (k + 1) c (by omega) (sub?_of_child h)) hahead.tail
      (by rw [advance_position]; omega) (show n ≤ fuel by omega)
    dsimp only
    split
    · rename_i c hc
      exact absurd hc (hchild c)
    · rw [List.replicate_succ, sub?_setChild hnode]
      exact hrest

end BitDecoder

namespace HpackDecoder

/-- The bits of a Huffman literal go on with the end-of-stream code after some characters. -/
def EndsStream (bits : List Bool) : Prop :=
  ∃ (str : Bytes) (rest : List Bool), bits = str.flatMap huffmanMap ++ (List.replicate 30 true ++ rest)

theorem readHuffmanChar_tree {destByte : Nat} {s : Decoding} (ht : s.tree = huffmanTree) (hlt : s.bits.bitOffset < 8)
    (hbits : ¬ EndsStream (s.bits.upTo destByte)) :
    wp (readHuffmanChar destByte)
      (fun c (s' : Decoding) => s'.tree = huffmanTree ∧
        (c.isSome = true → s'.bits.bitOffset < 8 ∧ ¬ EndsStream (s'.bits.upTo destByte)))
      (fun _ (s' : Decoding) => s'.tree = huffmanTree) s := by
  have hones : ¬ List.replicate 30 true <+: s.bits.upTo destByte := fun ⟨rest, h⟩ => hbits ⟨[], rest, h.symm⟩
  have hwalk : (BitDecoder.walk destByte (8 * (destByte - s.bits.byteOffset)) s.tree s.bits).2 = huffmanTree := by
    rw [ht]
    exact BitDecoder.walk_fullBut hlt (by decide) huffmanTree_loaded.1 hones
  rw [wp, readHuffmanChar]
  dsimp only [BitDecoder.readHuffmanChar, Option.getD_some]
  rcases hrun : BitDecoder.walk destByte (8 * (destByte - s.bits.byteOffset)) s.tree s.bits with
    ⟨e | ⟨c, d⟩, tree⟩ <;> rw [hrun] at hwalk
  · exact hwalk
  · refine ⟨hwalk, fun hc => ?_⟩
    obtain ⟨c, rfl⟩ := Option.isSome_iff_exists.mp hc
    obtain ⟨path, hpath, htaken, hlt'⟩ := BitDecoder.walk_code_taken hlt (congrArg Prod.fst hrun)
    obtain rfl := huffmanTree_code (ht ▸ hpath)
    refine ⟨hlt', ?_⟩
    rintro ⟨str, rest, hends⟩
    refine hbits ⟨c :: str, rest, ?_⟩
    rw [htaken, hends, List.flatMap_cons, List.append_assoc]

theorem readHuffmanChars_tree {destByte fuel : Nat} {s : Decoding}
    (ht : s.tree = huffmanTree) (hlt : s.bits.bitOffset < 8)
    (hbits : ¬ EndsStream (s.bits.upTo destByte)) :
    ((readHuffmanChars destByte fuel).run s).2.tree = huffmanTree := by
  refine (wp_state (P := fun s' : Decoding => s'.tree = huffmanTree)).mp ?_
  induction fuel generalizing s with
  | zero => exact ht
  | succ fuel ih =>
    rw [readHuffmanChars, wp_bind, wp_get, wp_ite]
    refine ⟨fun _ => ?_, fun _ => ht⟩
    rw [wp_bind]
    refine wp_mono (readHuffmanChar_tree ht hlt hbits) (fun c s' h => ?_) fun _ _ h => h
    cases c with
    | none => exact h.1
    | some c =>
      obtain ⟨hlt', hbits'⟩ := h.2 rfl
      rw [wp_bind]
      exact wp_mono (ih h.1 hlt' hbits') (fun _ _ h => h) fun _ _ h => h

/-- The tree has the node that the end-of-stream code leads to. -/
def Grown (s : Decoding) : Prop := (s.tree.sub? (List.replicate 30 true)).any isNode = true

def Enlarges (s s' : Decoding) : Prop := Extends s.tree s'.tree

instance : Std.Refl Enlarges := ⟨fun _ => .refl⟩

instance : IsTrans Decoding Enlarges := ⟨fun _ _ _ h h' => ⟨h'.leaf ∘ h.leaf, h'.node ∘ h.node⟩⟩

/-- Reading only adds to the tree. -/
theorem keepsReading_enlarges : KeepsReading (fun s => s.tree.isNode = true) Enlarges where
  bits _ hs := ⟨hs, .refl⟩
  char destByte := by
    intro s hs
    have hwalk := @BitDecoder.walk_extends destByte (8 * (destByte - s.bits.byteOffset)) s.tree s.bits hs
    have hroot := @hwalk.node [] (by cases htree : s.tree <;> simp [htree, isNode, sub?] at hs ⊢)
    have hnode : (BitDecoder.walk destByte (8 * (destByte - s.bits.byteOffset)) s.tree s.bits).2.isNode = true := by
      cases htree : (BitDecoder.walk destByte (8 * (destByte - s.bits.byteOffset)) s.tree s.bits).2 <;>
        simp [htree, isNode, sub?] at hroot ⊢
    rw [readHuffmanChar]
    dsimp only [BitDecoder.readHuffmanChar, Option.getD_some]
    split <;> rename_i hrun <;> rw [hrun] at hwalk hnode <;> exact ⟨hnode, hwalk⟩

theorem huffmanTree_isNode {s : Decoding} (h : s.tree = huffmanTree) : s.tree.isNode = true :=
  h ▸ huffmanTree_complete.isNode

theorem readHuffmanChars_grown {destByte fuel : Nat} {s : Decoding} (ht : s.tree = huffmanTree)
    (hlt : s.bits.bitOffset < 8) (hfuel : 8 * destByte ≤ s.bits.position + fuel)
    (hbits : EndsStream (s.bits.upTo destByte)) : Grown ((readHuffmanChars destByte fuel).run s).2 := by
  obtain ⟨str, rest, hends⟩ := hbits
  induction str generalizing s fuel with
  | nil =>
    rw [List.flatMap_nil, List.nil_append] at hends
    obtain ⟨⟨rest', hahead⟩, hlength, -⟩ := BitDecoder.ahead_of_upTo hlt hends
    rw [List.length_replicate] at hlength
    obtain ⟨fuel, rfl⟩ : ∃ n, fuel = n + 1 := ⟨fuel - 1, by omega⟩
    have hbefore : s.bits.byteOffset < destByte := (BitDecoder.byteOffset_lt_iff hlt).mpr (by omega)
    have hchar : Grown ((readHuffmanChar destByte).run s).2 := by
      have hwalk := @BitDecoder.walk_ones destByte (8 * (destByte - s.bits.byteOffset)) s.bits s.tree 30 rest'
        (huffmanTree_isNode ht) (fun k c hk => ht ▸ sub?_ones huffmanTree_loaded.1 hk c) hahead (by omega)
        (by simp only [BitDecoder.position] at hlength; omega)
      rw [readHuffmanChar]
      dsimp only [BitDecoder.readHuffmanChar, Option.getD_some]
      split <;> rename_i hrun <;> rw [hrun] at hwalk <;> exact hwalk
    have hnode := (keepsReading_enlarges.char destByte s (huffmanTree_isNode ht)).1
    rw [readHuffmanChars, run_get_bind, if_pos hbefore]
    rcases hrun : (readHuffmanChar destByte).run s with ⟨e | c, s'⟩ <;> rw [hrun] at hchar hnode
    · rw [bind_error hrun]
      exact hchar
    · rw [bind_ok hrun]
      cases c with
      | none => exact hchar
      | some c =>
        have hkeeps : Keeps (fun s => s.tree.isNode = true) Enlarges (do
            let chars ← readHuffmanChars destByte fuel
            pure (c :: chars)) := .bind keepsReading_enlarges.readHuffmanChars fun _ => .pure _
        exact (hkeeps s' hnode).2.node hchar
  | cons c str ih =>
    rw [List.flatMap_cons, List.append_assoc] at hends
    obtain ⟨⟨rest', hahead⟩, hlength, hrest⟩ := BitDecoder.ahead_of_upTo hlt hends
    have hne := List.length_pos_of_ne_nil (huffmanMap_ne_nil c)
    obtain ⟨fuel, rfl⟩ : ∃ n, fuel = n + 1 := ⟨fuel - 1, by omega⟩
    have hbefore : s.bits.byteOffset < destByte := (BitDecoder.byteOffset_lt_iff hlt).mpr (by omega)
    have hcode := readHuffmanChar_code (ht ▸ huffmanTree_complete) hahead (by omega : _ ≤ 8 * destByte)
    have hih := @ih fuel (s.advance (huffmanMap c).length) ht (hahead.advance).lt
      (by rw [Decoding.advance_bits, BitDecoder.advance_position]; omega) hrest
    rw [readHuffmanChars, run_get_bind, if_pos hbefore, bind_ok hcode]
    rcases hrun : (readHuffmanChars destByte fuel).run (s.advance (huffmanMap c).length) with ⟨e | chars, s'⟩ <;>
      rw [hrun] at hih
    · rw [bind_error hrun]
      exact hih
    · rw [bind_ok hrun]
      exact hih

def SameTree (s s' : Decoding) : Prop := s'.tree = s.tree

instance : Std.Refl SameTree := ⟨fun _ => rfl⟩

instance : IsTrans Decoding SameTree := ⟨fun _ _ _ h h' => h'.trans h⟩

variable {α β : Type}

/-- From the loaded tree, `m` leaves the tree as it is exactly where `A` holds. -/
structure Spares (A : Decoding → Prop) (m : Prog Decoding PyException α) : Prop where
  same {s : Decoding} : s.tree = huffmanTree → A s → (m.run s).2.tree = huffmanTree
  grows {s : Decoding} : s.tree = huffmanTree → ¬ A s → Grown (m.run s).2
  enlarges : Keeps (fun s => s.tree.isNode = true) Enlarges m

namespace Spares

variable {A : Decoding → Prop} {m : Prog Decoding PyException α}

theorem congr {A' : Decoding → Prop} (h : Spares A m) (hA : ∀ s, A' s ↔ A s) : Spares A' m where
  same ht ha := h.same ht ((hA _).mp ha)
  grows ht ha := h.grows ht (mt (hA _).mpr ha)
  enlarges := h.enlarges

/-- What leaves the tree alone. -/
theorem of_same (h : Keeps (fun _ => True) SameTree m) : Spares (fun _ => True) m where
  same ht _ := (h _ trivial).2.trans ht
  grows _ ha := absurd trivial ha
  enlarges s hs := by
    have hsame : (m.run s).2.tree = s.tree := (h s trivial).2
    have hnode : s.tree.isNode = true := hs
    refine ⟨(congrArg isNode hsame).trans hnode, ?_⟩
    rw [Enlarges, hsame]
    exact .refl

theorem bind {B : α → Decoding → Prop} {f : α → Prog Decoding PyException β} (hm : Spares A m)
    (hf : ∀ a, Spares (B a) (f a)) : Spares (fun s => A s ∧ wp m B (fun _ _ => True) s) (m >>= f) where
  same {s} ht ha := by
    have hsame := hm.same ht ha.1
    rcases hrun : m.run s with ⟨e | a, s'⟩ <;> rw [hrun] at hsame
    · rw [bind_error hrun]
      exact hsame
    · rw [bind_ok hrun]
      exact (hf a).same hsame ((wp_of_ok hrun).mp ha.2)
  grows {s} ht ha := by
    have hsame := hm.same ht
    have hgrows := hm.grows ht
    have hnode := (hm.enlarges s (huffmanTree_isNode ht)).1
    rcases hrun : m.run s with ⟨e | a, s'⟩ <;> rw [hrun] at hsame hgrows hnode
    · rw [bind_error hrun]
      exact hgrows fun h => ha ⟨h, (wp_of_error hrun).mpr trivial⟩
    · rw [bind_ok hrun]
      by_cases h : A s
      · exact (hf a).grows (hsame h) fun hb => ha ⟨h, (wp_of_ok hrun).mpr hb⟩
      · exact ((hf a).enlarges s' hnode).2.node (hgrows h)
  enlarges := .bind hm.enlarges fun a => (hf a).enlarges

theorem get_bind {A : Decoding → Decoding → Prop} {f : Decoding → Prog Decoding PyException β}
    (h : ∀ s, Spares (A s) (f s)) : Spares (fun s => A s s) (get >>= f) where
  same ht ha := (h _).same ht ha
  grows ht ha := (h _).grows ht ha
  enlarges := .get_bind fun s _ => (h s).enlarges

theorem ite {c : Prop} [Decidable c] {A' : Decoding → Prop} {m' : Prog Decoding PyException α} (h : Spares A m)
    (h' : Spares A' m') : Spares (fun s => if c then A s else A' s) (if c then m else m') := by
  split
  · exact h
  · exact h'

theorem after {B : α → Decoding → Prop} {f : α → Prog Decoding PyException β} (hm : Keeps (fun _ => True) SameTree m)
    (hf : ∀ a, Spares (B a) (f a)) : Spares (fun s => wp m B (fun _ _ => True) s) (m >>= f) :=
  (bind (of_same hm) hf).congr fun _ => (and_iff_right trivial).symm

theorem then_same {f : α → Prog Decoding PyException β}
    (hm : Spares A m) (hf : ∀ a, Keeps (fun _ => True) SameTree (f a)) :
    Spares A (m >>= f) := by
  refine (bind hm fun a => of_same (hf a)).congr fun s => ?_
  refine (and_iff_left ?_).symm
  exact wp_mono (wp_state.mpr trivial : wp m (fun _ _ => True) (fun _ _ => True) s) (fun _ _ h => h) fun _ _ h => h

end Spares

theorem read_tree {f : BitDecoder → Except PyException (α × BitDecoder)} : Keeps (fun _ => True) SameTree (read f) := by
  intro s _
  rw [read]
  dsimp only
  split <;> exact ⟨trivial, rfl⟩

theorem readChars_tree {length : Nat} : Keeps (fun _ => True) SameTree (readChars length) := by
  induction length with
  | zero => exact .pure _
  | succ length ih => exact .bind read_tree fun _ => .bind ih fun _ => .pure _

/-- A Huffman literal that goes on with the end-of-stream code begins here. -/
def AtEndOfStream (s : Decoding) : Prop := ∃ d d' n, s.bits.readBit = .ok (true, d) ∧
  d.readHpackInt = .ok (n, d') ∧ EndsStream (d'.upTo (d'.byteOffset + n))

theorem readString_spares : Spares (fun s => ¬ AtEndOfStream s) readString := by
  have hread (s : Decoding) (ht : s.tree = huffmanTree) :
      (¬ AtEndOfStream s → (readString.run s).2.tree = huffmanTree) ∧
      (¬ ¬ AtEndOfStream s → Grown (readString.run s).2) := by
    rw [readString]
    cases hbit : s.bits.readBit with
    | error e =>
      have hrun : readBit.run s = (.error e, s) := by simp only [readBit, read, hbit]
      rw [bind_error hrun]
      refine ⟨fun _ => ht, fun h => absurd ?_ h⟩
      rintro ⟨d, _, _, hd, -⟩
      rw [hbit] at hd
      cases hd
    | ok r =>
      obtain ⟨isHuffman, d⟩ := r
      have hrun : readBit.run s = (.ok isHuffman, { s with bits := d }) := by simp only [readBit, read, hbit]
      rw [bind_ok hrun]
      cases hint : d.readHpackInt with
      | error e =>
        have hrun' : readHpackInt.run { s with bits := d } = (.error e, { s with bits := d }) := by
          simp only [readHpackInt, read, hint]
        rw [bind_error hrun']
        refine ⟨fun _ => ht, fun h => absurd ?_ h⟩
        rintro ⟨_, _, _, hd, hd', -⟩
        rw [hbit] at hd
        cases hd
        rw [hint] at hd'
        cases hd'
      | ok r =>
        obtain ⟨length, d'⟩ := r
        have hrun' : readHpackInt.run { s with bits := d } = (.ok length, { s with bits := d' }) := by
          simp only [readHpackInt, read, hint]
        have hoffset := readHpackInt_bitOffset hint
        rw [bind_ok hrun']
        cases isHuffman with
        | false =>
          refine ⟨fun _ => ((readChars_tree _ trivial).2).trans ht, fun h => absurd ?_ h⟩
          rintro ⟨_, _, _, hd, -⟩
          rw [hbit] at hd
          cases hd
        | true =>
          have hat : AtEndOfStream s ↔ EndsStream (d'.upTo (d'.byteOffset + length)) := by
            constructor
            · rintro ⟨_, _, _, hd, hd', hends⟩
              rw [hbit] at hd
              cases hd
              rw [hint] at hd'
              cases hd'
              exact hends
            · exact fun hends => ⟨d, d', length, hbit, hint, hends⟩
          have hlt : d'.bitOffset < 8 := by omega
          rw [hat, not_not]
          refine ⟨fun h => readHuffmanChars_tree (s := { s with bits := d' }) ht hlt h,
            fun h => readHuffmanChars_grown (s := { s with bits := d' }) ht hlt ?_ h⟩
          simp only [BitDecoder.position, hoffset]
          omega
  exact ⟨fun ht => (hread _ ht).1, fun ht => (hread _ ht).2, keepsReading_enlarges.readString⟩

/-- A name and a value come next, and neither goes on with the end-of-stream code. -/
def PairSpares (s : Decoding) : Prop :=
  wp readHpackInt (fun idx s =>
    if idx = 0 then ¬ AtEndOfStream s ∧ wp readString (fun _ s => ¬ AtEndOfStream s) (fun _ _ => True) s
    else wp (readFromIndex idx) (fun _ s => ¬ AtEndOfStream s) (fun _ _ => True) s) (fun _ _ => True) s

def FieldSpares (s : Decoding) : Prop :=
  wp readBit (fun indexed s => if indexed then True else
    wp readBit (fun adds s => if adds then PairSpares s else
      wp readBit (fun update s => if update then True else
        wp readBit (fun _ s => PairSpares s) (fun _ _ => True) s) (fun _ _ => True) s) (fun _ _ => True) s)
          (fun _ _ => True) s

/-- No Huffman literal that `decode` comes to goes on with the end-of-stream code. -/
def BlockSpares : (fuel : Nat) → (allowed : Bool) → Decoding → Prop
  | 0, _, _ => True
  | fuel + 1, allowed, s => if s.bits.eod then True else
    FieldSpares s ∧ wp (decodeField allowed)
      (fun header s => BlockSpares fuel (allowed && header.isNone) s) (fun _ _ => True) s

theorem readNameValuePair_spares : Spares PairSpares readNameValuePair := by
  have value (name : Bytes) : Spares (fun s => ¬ AtEndOfStream s) (do
      let value ← readString
      pure (name, value)) := .then_same readString_spares fun _ => .pure _
  exact .after read_tree fun idx => .ite (.bind readString_spares value)
    (.after KeepsReading.readFromIndex fun _ => value _)

theorem onTable_tree {m : Prog DynamicTable PyException Unit} : Keeps (fun _ => True) SameTree (onTable m) :=
  fun _ _ => ⟨trivial, rfl⟩

theorem decodeField_spares {allowed : Bool} : Spares FieldSpares (decodeField allowed) := by
  refine .after read_tree fun indexed => .ite (.of_same ?_) ?_
  · exact .bind read_tree fun _ => .bind KeepsReading.readFromIndex fun _ => .pure _
  refine .after read_tree fun adds => .ite (.then_same readNameValuePair_spares fun _ => ?_) ?_
  · exact .bind onTable_tree fun _ => .pure _
  refine .after read_tree fun update => .ite (.of_same ?_) ?_
  · exact .bind .check fun _ => .bind read_tree fun _ => .bind onTable_tree fun _ => .pure _
  exact .after read_tree fun _ => .then_same readNameValuePair_spares fun _ => .pure _

theorem decodeLoop_spares {fuel : Nat} {allowed : Bool} :
    Spares (BlockSpares fuel allowed) (decodeLoop fuel allowed) := by
  induction fuel generalizing allowed with
  | zero => exact .of_same (.pure _)
  | succ fuel ih =>
    refine .get_bind (A := fun s s' => if s.bits.eod then True else FieldSpares s' ∧
      wp (decodeField allowed) (fun header s => BlockSpares fuel (allowed && header.isNone) s) (fun _ _ => True) s')
      fun s => .ite (.of_same (.pure _)) (.bind decodeField_spares fun header => ?_)
    cases header with
    | none =>
      rw [Option.isNone_none, Bool.and_true]
      exact ih
    | some header =>
      rw [Option.isNone_some, Bool.and_false]
      exact .then_same ih fun _ => .pure _

/-- No Huffman literal that a call of `decode` comes to goes on with the end-of-stream code. -/
def DecodeSpares (d : HpackDecoder) (data : Bytes) : Prop :=
  BlockSpares data.length true ⟨.new data, huffmanTree, d.table⟩

theorem decode_tree (d : HpackDecoder) {tree : HuffmanTree} (ht : tree = huffmanTree) (data : Bytes) :
    (d.decode tree data).2.2 = huffmanTree ↔ d.DecodeSpares data := by
  have hspares := @decodeLoop_spares data.length true
  have hrun : (d.decode tree data).2.2 = ((decodeLoop data.length true).run ⟨.new data, tree, d.table⟩).2.tree := by
    rw [decode]
    split <;> rename_i hrun <;> rw [hrun]
  rw [hrun, DecodeSpares, ← ht]
  constructor
  · intro hsame
    by_contra hnot
    have hgrown := hspares.grows ht hnot
    rw [Grown, hsame, ht, sub?_of_fullBut huffmanTree_loaded.1] at hgrown
    cases hgrown
  · intro h
    exact (hspares.same ht h).trans ht.symm

end HpackDecoder

/-- The decoders of a process, and the tree that they share. -/
structure Decoders where
  tree : HuffmanTree
  decoder : Nat → HpackDecoder

namespace Decoders

/-- One of the decoders is given a block. -/
def step (p : Decoders) (call : Nat × Bytes) : Decoders :=
  let (_, decoder, tree) := (p.decoder call.1).decode p.tree call.2
  ⟨tree, Function.update p.decoder call.1 decoder⟩

/-- As the modules are loaded. -/
def start (decoder : Nat → HpackDecoder) : Decoders := ⟨huffmanTree, decoder⟩

/-- The calls leave the tree as it is after every call exactly if none of them comes to
the end-of-stream code. -/
theorem tree_unchanged {decoder : Nat → HpackDecoder} {calls : List (Nat × Bytes)} :
    Runs.Along step (fun p call => (p.step call).tree = huffmanTree) (start decoder) calls ↔
      Runs.Along step (fun p call => (p.decoder call.1).DecodeSpares call.2) (start decoder) calls := by
  have hstep (p : Decoders) (call : Nat × Bytes) (ht : p.tree = huffmanTree) :
      (p.step call).tree = huffmanTree ↔ (p.decoder call.1).DecodeSpares call.2 :=
    (p.decoder call.1).decode_tree ht call.2
  have hstart : (start decoder).tree = huffmanTree := by simp only [start]
  exact Runs.along_congr (I := fun p => p.tree = huffmanTree)
    (fun p call ht h => (hstep p call ht).mpr h) hstep hstart

/-- A literal of thirty-two ones. -/
theorem tree_changed :
    ((start fun _ => .new 4096).step (0, [0x04, 0x84, 0xff, 0xff, 0xff, 0xff])).tree ≠ huffmanTree := by
  decide +kernel

end Decoders

end TornadoHttp2
