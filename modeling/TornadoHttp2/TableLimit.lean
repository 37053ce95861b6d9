import TornadoHttp2.Connection
import TornadoHttp2.DecoderEffects
import TornadoHttp2.DynamicTable
import TornadoHttp2.Runs

/-! The memory of a decoder. The dynamic table stays within its limit, and only
the size updates at the start of a block change the limit. -/

namespace TornadoHttp2

open Prog

/-- A size update at the decoder's position: its value, and the decoder after it. -/
def BitDecoder.sizeUpdate (d : BitDecoder) : Option (Nat × BitDecoder) :=
  match d.readBit with
  | .ok (false, d) =>
    match d.readBit with
    | .ok (false, d) =>
      match d.readBit with
      | .ok (true, d) => d.readHpackInt.toOption
      | _ => none
    | _ => none
  | _ => none

theorem BitDecoder.sizeUpdate_eq_some {d d' : BitDecoder} {n : Nat} (h : d.sizeUpdate = some (n, d')) :
    ∃ d0 d1 d2, d.readBit = .ok (false, d0) ∧ d0.readBit = .ok (false, d1) ∧
      d1.readBit = .ok (true, d2) ∧ d2.readHpackInt = .ok (n, d') := by
  unfold sizeUpdate at h
  split at h
  · rename_i d0 h0
    split at h
    · rename_i d1 h1
      split at h
      · rename_i d2 h2
        refine ⟨d0, d1, d2, h0, h1, h2, ?_⟩
        cases h3 : d2.readHpackInt with
        | error => simp [h3, Except.toOption] at h
        | ok r => simpa [h3, Except.toOption] using h
      · cases h
    · cases h
  · cases h

def BitDecoder.sizeUpdates : (fuel : Nat) → BitDecoder → List Nat
  | 0, _ => []
  | fuel + 1, d =>
    match d.sizeUpdate with
    | some (n, d) => n :: sizeUpdates fuel d
    | none => []

/-- The values of the size updates that a block starts with. -/
def sizeUpdates (data : Bytes) : List Nat := BitDecoder.sizeUpdates data.length (.new data)

example : sizeUpdates [0x3f, 0xe1, 0x1f, 0x20, 0x82] = [4096, 0] := by decide +kernel

namespace HpackDecoder

/-- The table keeps its invariant and its limit. -/
def HasLimit (limit : Nat) (s : Decoding) : Prop := s.table.Sized ∧ s.table.limit = limit

section

variable {limit : Nat}

theorem keepsReading_hasLimit : KeepsReading (HasLimit limit) Anything where
  bits _ hs := ⟨hs, trivial⟩
  char destByte := by
    intro s hs
    rw [readHuffmanChar]
    dsimp only
    split <;> exact ⟨hs, trivial⟩

theorem addToDynamicTable_hasLimit {name value : Bytes} :
    Keeps (HasLimit limit) Anything (addToDynamicTable name value) := by
  intro s hs
  obtain ⟨t, hrun, hsized, hlimit⟩ := DynamicTable.add_ok hs.1 name value
  simp only [addToDynamicTable, onTable, run_zoom, hrun]
  exact ⟨⟨hsized, hlimit.trans hs.2⟩, trivial⟩

theorem setDynamicTableLimit_run {s : Decoding} (hs : s.table.Sized) (limit : Nat) :
    ∃ t, (setDynamicTableLimit limit).run s = (.ok (), { s with table := t }) ∧ t.Sized ∧ t.limit = limit := by
  obtain ⟨t, hrun, hsized, hlimit⟩ := DynamicTable.gc_ok (t := { s.table with limit }) hs.size
  refine ⟨t, ?_, hsized, hlimit⟩
  simp only [setDynamicTableLimit, onTable, run_zoom, run_modify_bind, hrun]

/-- Where no size update is allowed, the limit stays. -/
theorem decodeLoop_hasLimit {fuel : Nat} : Keeps (HasLimit limit) Anything (decodeLoop fuel false) :=
  keepsReading_hasLimit.decodeLoop (fun _ _ => addToDynamicTable_hasLimit) fun (h : false = true) => nomatch h

end

/-- A field that is no size update keeps the limit and returns a header. -/
theorem decodeField_of_no_update {s : Decoding} (hs : s.table.Sized) (hbits : s.bits.sizeUpdate = none) :
    wp (decodeField true) (fun header s' => header.isSome = true ∧ HasLimit s.table.limit s')
      (fun _ s' => HasLimit s.table.limit s') s := by
  rw [decodeField, wp_bind, readBit, wp_read]
  cases h0 : s.bits.readBit with
  | error => exact ⟨hs, rfl⟩
  | ok r0 =>
    obtain ⟨_ | _, d0⟩ := r0
    · simp only [Bool.false_eq_true, if_false]
      rw [wp_bind, wp_read]
      cases h1 : d0.readBit with
      | error => exact ⟨hs, rfl⟩
      | ok r1 =>
        obtain ⟨_ | _, d1⟩ := r1
        · simp only [Bool.false_eq_true, if_false]
          rw [wp_bind, wp_read]
          cases h2 : d1.readBit with
          | error => exact ⟨hs, rfl⟩
          | ok r2 =>
            obtain ⟨_ | _, d2⟩ := r2
            · simp only [Bool.false_eq_true, if_false]
              refine wp_bind.mpr (keepsReading_hasLimit.read.wp ⟨hs, rfl⟩ (fun _ _ h _ => ?_) fun _ _ h _ => h)
              exact wp_bind.mpr (keepsReading_hasLimit.readNameValuePair.wp h
                (fun _ _ h _ => ⟨rfl, h⟩) fun _ _ h _ => h)
            · simp only [if_true]
              rw [wp_bind, wp_check, wp_bind, readHpackInt, wp_read]
              cases h3 : d2.readHpackInt with
              | error => exact ⟨nofun, fun _ => ⟨hs, rfl⟩⟩
              | ok => simp [BitDecoder.sizeUpdate, h0, h1, h2, h3, Except.toOption] at hbits
        · simp only [if_true]
          refine wp_bind.mpr (keepsReading_hasLimit.readNameValuePair.wp ⟨hs, rfl⟩ (fun _ _ h _ => ?_) fun _ _ h _ => h)
          exact wp_bind.mpr (addToDynamicTable_hasLimit.wp h (fun _ _ h _ => ⟨rfl, h⟩) fun _ _ h _ => h)
    · simp only [if_true]
      refine wp_bind.mpr (keepsReading_hasLimit.read.wp ⟨hs, rfl⟩ (fun _ _ h _ => ?_) fun _ _ h _ => h)
      exact wp_bind.mpr ((KeepsReading.readFromIndex (R := Anything)).wp h (fun _ _ h _ => ⟨rfl, h⟩) fun _ _ h _ => h)

theorem decodeField_update {s : Decoding} (hs : s.table.Sized) {n : Nat} {d : BitDecoder}
    (hbits : s.bits.sizeUpdate = some (n, d)) :
    ∃ t, (decodeField true).run s = (.ok none, { s with bits := d, table := t }) ∧ t.Sized ∧ t.limit = n := by
  obtain ⟨d0, d1, d2, h0, h1, h2, h3⟩ := BitDecoder.sizeUpdate_eq_some hbits
  obtain ⟨t, hrun, ht⟩ := @setDynamicTableLimit_run { s with bits := d } hs n
  refine ⟨t, ?_, ht⟩
  have bit {s : Decoding} {b : Bool} {d : BitDecoder} (h : s.bits.readBit = .ok (b, d)) :
      readBit.run s = (.ok b, { s with bits := d }) := by simp only [readBit, read, h]
  have hint : readHpackInt.run { s with bits := d2 } = (.ok n, { s with bits := d }) := by
    simp only [readHpackInt, read, h3]
  rw [decodeField, bind_ok (bit h0), if_neg Bool.false_ne_true, bind_ok (@bit { s with bits := d0 } _ _ h1),
    if_neg Bool.false_ne_true, bind_ok (@bit { s with bits := d1 } _ _ h2), if_pos rfl, check, when,
    if_neg (by simp), run_pure_bind, bind_ok hint, bind_ok hrun]
  rfl

theorem sizeUpdate_eod {d : BitDecoder} (h : d.eod = true) : d.sizeUpdate = none := by
  have hread : d.readBit = .error .eodError := by
    rw [BitDecoder.readBit, List.getElem?_eq_none (of_decide_eq_true h)]
  simp only [BitDecoder.sizeUpdate, hread]

/-- One more pass over a size update. -/
theorem decodeLoop_update {s : Decoding} {n : Nat} {d : BitDecoder} (hs : s.table.Sized)
    (hbits : s.bits.sizeUpdate = some (n, d)) :
    ∃ t : DynamicTable, t.Sized ∧ t.limit = n ∧ ∀ fuel, (decodeLoop (fuel + 1) true).run s =
      (decodeLoop fuel true).run { s with bits := d, table := t } := by
  obtain ⟨t, hrun, hsized, hlimit⟩ := decodeField_update hs hbits
  have heod : ¬ s.bits.eod = true := fun h => by simp [sizeUpdate_eod h] at hbits
  refine ⟨t, hsized, hlimit, fun fuel => ?_⟩
  rw [decodeLoop, run_get_bind, if_neg heod, bind_ok hrun]

/-- The limit never rises above `bound` if no size update does. -/
theorem decodeLoop_limit_le {bound fuel : Nat} {s : Decoding} (hs : s.table.Sized)
    (hlimit : s.table.limit ≤ bound) (hupdates : ∀ n ∈ s.bits.sizeUpdates fuel, n ≤ bound) :
    ((decodeLoop fuel true).run s).2.table.Sized ∧ ((decodeLoop fuel true).run s).2.table.limit ≤ bound := by
  induction fuel generalizing s with
  | zero => exact ⟨hs, hlimit⟩
  | succ fuel ih =>
    cases hbits : s.bits.sizeUpdate with
    | some r =>
      obtain ⟨n, d⟩ := r
      obtain ⟨t, hsized, htlimit, hrun⟩ := decodeLoop_update hs hbits
      simp only [BitDecoder.sizeUpdates, hbits, List.forall_mem_cons] at hupdates
      rw [hrun]
      exact @ih { s with bits := d, table := t } hsized (htlimit ▸ hupdates.1) hupdates.2
    | none =>
      have keep {s' : Decoding} (h : HasLimit s.table.limit s') : s'.table.Sized ∧ s'.table.limit ≤ bound :=
        ⟨h.1, h.2.le.trans hlimit⟩
      refine (wp_state (P := fun s' : Decoding => s'.table.Sized ∧ s'.table.limit ≤ bound)).mp ?_
      rw [decodeLoop, wp_bind, wp_get, wp_ite]
      refine ⟨fun _ => ⟨hs, hlimit⟩, fun _ => ?_⟩
      rw [wp_bind]
      refine wp_mono (decodeField_of_no_update hs hbits) (fun header s' h => ?_) fun _ _ h => keep h
      obtain ⟨header, rfl⟩ := Option.isSome_iff_exists.mp h.1
      exact wp_bind.mpr (decodeLoop_hasLimit.wp h.2 (fun _ _ h _ => keep h) fun _ _ h _ => keep h)

/-- After the pass over a size update the limit is its value. -/
theorem decodeLoop_reaches {fuel n : Nat} {s : Decoding} (hs : s.table.Sized)
    (hn : n ∈ s.bits.sizeUpdates fuel) :
    ∃ k ≤ fuel, ((decodeLoop k true).run s).2.table.limit = n := by
  induction fuel generalizing s with
  | zero => simp [BitDecoder.sizeUpdates] at hn
  | succ fuel ih =>
    cases hbits : s.bits.sizeUpdate with
    | none => simp [BitDecoder.sizeUpdates, hbits] at hn
    | some r =>
      obtain ⟨m, d⟩ := r
      obtain ⟨t, hsized, htlimit, hrun⟩ := decodeLoop_update hs hbits
      simp only [BitDecoder.sizeUpdates, hbits, List.mem_cons] at hn
      rcases hn with rfl | hn
      · exact ⟨1, by omega, by rw [hrun]; exact htlimit⟩
      · obtain ⟨k, hk, hlimit⟩ := @ih { s with bits := d, table := t } hsized hn
        exact ⟨k + 1, by omega, by rw [hrun]; exact hlimit⟩

/-- The table after so many passes of the loop of `decode`. -/
def tableAfter (d : HpackDecoder) (tree : HuffmanTree) (data : Bytes) (passes : Nat) : DynamicTable :=
  ((decodeLoop passes true).run ⟨.new data, tree, d.table⟩).2.table

/-- The decoder and the shared tree after a block. -/
def next (s : HpackDecoder × HuffmanTree) (data : Bytes) : HpackDecoder × HuffmanTree :=
  (s.1.decode s.2 data).2

theorem next_table (s : HpackDecoder × HuffmanTree) (data : Bytes) :
    (next s data).1.table = s.1.tableAfter s.2 data data.length := by
  rw [next, decode, tableAfter]
  split <;> rename_i h <;> rw [h]

/-- The memory of the decoder stays within `bound` while it decodes the block,
and a size update above `bound` is refused. -/
def Bounded (bound : Nat) (s : HpackDecoder × HuffmanTree) (data : Bytes) : Prop :=
  (∀ passes ≤ data.length, (s.1.tableAfter s.2 data passes).limit ≤ bound ∧
    (s.1.tableAfter s.2 data passes).size ≤ bound) ∧
  ((∃ n ∈ sizeUpdates data, bound < n) → (s.1.decode s.2 data).1 = .error .hpackError)

theorem sizeUpdates_mono {fuel fuel' : Nat} (h : fuel ≤ fuel') {d : BitDecoder} {n : Nat}
    (hn : n ∈ d.sizeUpdates fuel) : n ∈ d.sizeUpdates fuel' := by
  induction fuel generalizing fuel' d with
  | zero => simp [BitDecoder.sizeUpdates] at hn
  | succ fuel ih =>
    obtain ⟨fuel', rfl⟩ : ∃ k, fuel' = k + 1 := ⟨fuel' - 1, by omega⟩
    simp only [BitDecoder.sizeUpdates] at hn ⊢
    cases hbits : d.sizeUpdate with
    | none => simp [hbits] at hn
    | some r =>
      simp only [hbits, List.mem_cons] at hn ⊢
      exact hn.imp_right (ih (by omega))

theorem tableAfter_within {bound passes : Nat} {s : HpackDecoder × HuffmanTree} {data : Bytes}
    (hs : s.1.table.Sized ∧ s.1.table.limit ≤ bound) (hupdates : ∀ n ∈ sizeUpdates data, n ≤ bound)
    (hpasses : passes ≤ data.length) :
    (s.1.tableAfter s.2 data passes).Sized ∧ (s.1.tableAfter s.2 data passes).limit ≤ bound :=
  decodeLoop_limit_le hs.1 hs.2 fun n hn => hupdates n (sizeUpdates_mono hpasses hn)

theorem bounded_iff {bound : Nat} {s : HpackDecoder × HuffmanTree} {data : Bytes}
    (hs : s.1.table.Sized ∧ s.1.table.limit ≤ bound) :
    Bounded bound s data ↔ ∀ n ∈ sizeUpdates data, n ≤ bound := by
  constructor
  · intro h n hn
    obtain ⟨k, hk, hlimit⟩ := @decodeLoop_reaches _ _ ⟨.new data, s.2, s.1.table⟩ hs.1 hn
    exact hlimit ▸ (h.1 k hk).1
  · intro h
    refine ⟨fun passes hpasses => ?_, fun ⟨n, hn, hgt⟩ => absurd (h n hn) (not_le.mpr hgt)⟩
    obtain ⟨hsized, hlimit⟩ := tableAfter_within hs h hpasses
    exact ⟨hlimit, hsized.le.trans (Int.ofNat_le.mpr hlimit)⟩

theorem memory_bounded_iff {limit : Nat} {tree : HuffmanTree} {blocks : List Bytes} :
    Runs.Along next (Bounded limit) (HpackDecoder.new limit, tree) blocks ↔
      ∀ data ∈ blocks, ∀ n ∈ sizeUpdates data, n ≤ limit := by
  have hall : Runs.Along next (fun _ data => ∀ n ∈ sizeUpdates data, n ≤ limit) (HpackDecoder.new limit, tree)
      blocks ↔ ∀ data ∈ blocks, ∀ n ∈ sizeUpdates data, n ≤ limit := Runs.along_forall
  rw [← hall]
  refine Runs.along_congr (I := fun s => s.1.table.Sized ∧ s.1.table.limit ≤ limit) (fun s data hs hok => ?_)
    (fun s data hs => bounded_iff hs) ⟨DynamicTable.new_sized limit, le_refl _⟩
  rw [next_table]
  exact tableAfter_within hs hok (le_refl _)

/-- The decoder of a connection, whatever earlier connections made of the tree. -/
theorem decoder_memory_bounded (isClient : Bool) (params : Params) (tree : HuffmanTree) (blocks : List Bytes) :
    Runs.Along next (Bounded 4096) ((System.start isClient params).conn.hpackDecoder, tree) blocks ↔
      ∀ data ∈ blocks, ∀ n ∈ sizeUpdates data, n ≤ 4096 :=
  memory_bounded_iff

/-- A size update to 4097, in three bytes. -/
theorem decoder_memory_not_bounded :
    let s := ((System.start false (.new none .caseless)).conn.hpackDecoder, huffmanTree)
    sizeUpdates [0x3f, 0xe2, 0x1f] = [4097] ∧ (next s [0x3f, 0xe2, 0x1f]).1.table.limit = 4097 ∧
      (s.1.decode s.2 [0x3f, 0xe2, 0x1f]).1 = .ok [] := by
  decide +kernel

end HpackDecoder

end TornadoHttp2
