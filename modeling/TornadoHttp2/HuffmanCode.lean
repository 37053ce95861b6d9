import TornadoHttp2.BitReading

/-! Walks in the Huffman tree that stay on nodes the loader has built. Such a
walk returns the character at its end and adds nothing to the tree. -/

namespace TornadoHttp2

open BitString

namespace HuffmanTree

/-- The subtree at the end of a path, if every node of the path exists. -/
def sub? : HuffmanTree → List Bool → Option HuffmanTree
  | .missing, _ => none
  | t, [] => some t
  | .node zero one, b :: bits => (if b then one else zero).sub? bits
  | .leaf _, _ :: _ => none

theorem sub?_cons {t u : HuffmanTree} {b : Bool} {bits : List Bool}
    (h : t.sub? (b :: bits) = some u) : (t.child b).sub? bits = some u ∧ t.setChild b (t.child b) = t := by
  cases t with
  | missing => simp [sub?] at h
  | leaf c => simp [sub?] at h
  | node zero one =>
    cases b
    · cases zero <;> simp [sub?, child, setChild] at h ⊢ <;> exact h
    · cases one <;> simp [sub?, child, setChild] at h ⊢ <;> exact h

def isNode : HuffmanTree → Bool
  | .node _ _ => true
  | _ => false

/-- The walk reads any character, and it survives the padding after the last
one, because fewer than eight ones lead to an inner node. -/
structure Complete (t : HuffmanTree) : Prop where
  code : ∀ c, t.sub? (huffmanMap c) = some (.leaf c)
  padding : ∀ k, k < 8 → (t.sub? (List.replicate k true)).any isNode = true

end HuffmanTree

theorem huffmanTree_complete : huffmanTree.Complete := by
  constructor
  · have h : ∀ i, i < 256 → huffmanTree.sub? (huffmanMap (UInt8.ofNat i)) =
        some (.leaf (UInt8.ofNat i)) := by decide +kernel
    intro c
    simpa using h c.toNat c.toNat_lt
  · decide +kernel

theorem huffmanMap_ne_nil (c : UInt8) : huffmanMap c ≠ [] := by
  have hlen : huffmanData.length = 256 := by decide +kernel
  have hpos : ∀ entry ∈ huffmanData, entry.2 ≠ 0 := by decide +kernel
  have hc : c.toNat < huffmanData.length := by rw [hlen]; exact c.toNat_lt
  intro h
  have hl := congrArg List.length h
  rw [huffmanMap, natBits_length, List.getD_eq_getElem _ _ hc] at hl
  exact hpos _ (List.getElem_mem hc) hl

namespace BitDecoder

open HuffmanTree

theorem byteOffset_lt_iff {d : BitDecoder} {limit : Nat} (h : d.bitOffset < 8) :
    d.byteOffset < limit ↔ d.position < 8 * limit := by
  simp only [position]
  omega

theorem walk_code {limit : Nat} (fuel : Nat) {t : HuffmanTree} {d : BitDecoder} {code bits : List Bool}
    {c : UInt8} (hcode : t.sub? code = some (.leaf c)) (hne : code ≠ [])
    (hd : d.Ahead (code ++ bits)) (hfuel : code.length ≤ fuel)
    (hlimit : d.position + code.length ≤ 8 * limit) :
    walk limit fuel t d = (.ok (some c, d.advance code.length), t) := by
  induction code generalizing fuel t d with
  | nil => exact absurd rfl hne
  | cons b code ih =>
    obtain ⟨fuel, rfl⟩ : ∃ n, fuel = n + 1 := ⟨fuel - 1, by simp at hfuel; omega⟩
    obtain ⟨hsub, hset⟩ := sub?_cons hcode
    simp only [List.length_cons] at hfuel hlimit ⊢
    have hlt : d.byteOffset < limit := (byteOffset_lt_iff hd.lt).mpr (by omega)
    have hahead : (d.advance 1).Ahead (code ++ bits) := hd.tail
    simp only [walk, hlt, if_true, readBit_ahead hd]
    cases hch : t.child b with
    | missing => simp [hch, sub?] at hsub
    | leaf x =>
      obtain rfl : code = [] := by
        cases code with
        | nil => rfl
        | cons => simp [hch, sub?] at hsub
      simp only [hch, sub?, Option.some.injEq] at hsub
      simpa using hsub
    | node zero one =>
      have hne' : code ≠ [] := by
        rintro rfl
        simp [hch, sub?] at hsub
      rw [hch] at hsub hset
      have hih := ih fuel hsub hne' hahead (by omega) (by rw [advance_position]; omega)
      simp only [hih, hset, advance_advance, Nat.add_comm 1]

theorem walk_padding {limit : Nat} (fuel : Nat) {t : HuffmanTree} {d : BitDecoder}
    {pad bits : List Bool} (hpad : (t.sub? pad).any isNode = true)
    (hd : d.Ahead (pad ++ bits)) (hfuel : pad.length ≤ fuel)
    (hlimit : d.position + pad.length = 8 * limit) :
    walk limit fuel t d = (.ok (none, d.advance pad.length), t) := by
  induction pad generalizing fuel t d with
  | nil =>
    have hlt : ¬ d.byteOffset < limit := by
      rw [byteOffset_lt_iff hd.lt]
      simp at hlimit
      omega
    cases fuel <;> simp [walk, hlt, hd.advance_zero]
  | cons b pad ih =>
    obtain ⟨fuel, rfl⟩ : ∃ n, fuel = n + 1 := ⟨fuel - 1, by simp at hfuel; omega⟩
    obtain ⟨u, hu, hnode⟩ := (Option.any_eq_true _ _).mp hpad
    obtain ⟨hsub, hset⟩ := sub?_cons hu
    simp only [List.length_cons] at hfuel hlimit ⊢
    have hlt : d.byteOffset < limit := (byteOffset_lt_iff hd.lt).mpr (by omega)
    have hahead : (d.advance 1).Ahead (pad ++ bits) := hd.tail
    simp only [walk, hlt, if_true, readBit_ahead hd]
    cases hch : t.child b with
    | missing => simp [hch, sub?] at hsub
    | leaf x =>
      cases pad with
      | nil =>
        obtain rfl : HuffmanTree.leaf x = u := by simpa [hch, sub?] using hsub
        simp [isNode] at hnode
      | cons => simp [hch, sub?] at hsub
    | node zero one =>
      rw [hch] at hsub hset
      have hih := ih fuel ((Option.any_eq_true _ _).mpr ⟨u, hsub, hnode⟩) hahead (by omega)
        (by rw [advance_position]; omega)
      simp only [hih, hset, advance_advance, Nat.add_comm 1]

end BitDecoder

end TornadoHttp2
