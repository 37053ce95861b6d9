import TornadoHttp2.DecoderEffects
import TornadoHttp2.HpackRoundTrip

/-! The dynamic tables of both coders as the outcome of their history: the
insertions and the changes of the limit, in order, that the methods of a coder
have made, a `decode` that raises included. -/

namespace TornadoHttp2

open Prog

inductive TableChange
  | insert (name value : Bytes)
  | limit (limit : Nat)
  deriving DecidableEq, Repr

namespace DynamicTable

def perform : TableChange → Prog DynamicTable PyException Unit
  | .insert name value => add name value
  | .limit limit => do
    modify fun t => { t with limit }
    gc

/-- Performing the changes leads from the first table to the second, and no
eviction raises on the way. -/
def Performs : DynamicTable → List TableChange → DynamicTable → Prop
  | t, [], t' => t' = t
  | t, change :: changes, t' => ∃ t₁, (perform change).run t = (.ok (), t₁) ∧ Performs t₁ changes t'

/-- The longest front part of `all` whose total size is within `limit`. -/
structure Newest (limit : Nat) (all kept : List (Bytes × Bytes)) : Prop where
  front : kept <+: all
  fits : totalSize kept ≤ limit
  longest (other : List (Bytes × Bytes)) : other <+: all → totalSize other ≤ limit → other <+: kept

def insertions (inserted : List (Bytes × Bytes)) : List TableChange :=
  inserted.map fun e => .insert e.1 e.2

/-- The changes that a coder makes in the course of the operations, told one by one. -/
def history {σ α : Type} (step : σ → α → σ) (changes : σ → α → List TableChange) : σ → List α → List TableChange
  | _, [] => []
  | s, a :: as => changes s a ++ history step changes (step s a) as

/-- The table of a coder that was made with `limit` and has this history. -/
structure Exact (limit : Nat) (history : List TableChange) (t : DynamicTable) : Prop where
  performed : Performs (new limit) history t
  size : t.size = totalSize t.entries
  fits : totalSize t.entries ≤ t.limit
  newest (before : List TableChange) (inserted : List (Bytes × Bytes)) : history = before ++ insertions inserted →
    ∃ t₁, Performs (new limit) before t₁ ∧ t.limit = t₁.limit ∧
      Newest t₁.limit (inserted.reverse ++ t₁.entries) t.entries

variable {t t' : DynamicTable}

theorem perform_ok (h : t.Sized) (change : TableChange) :
    ∃ t', (perform change).run t = (.ok (), t') ∧ t'.Sized := by
  cases change with
  | insert name value =>
    obtain ⟨t', hrun, hsized, -⟩ := add_ok h name value
    exact ⟨t', hrun, hsized⟩
  | limit limit =>
    obtain ⟨t', hrun, hsized, -⟩ := gc_ok (t := { t with limit }) h.size
    exact ⟨t', hrun, hsized⟩

theorem performs_append {changes changes' : List TableChange} : Performs t (changes ++ changes') t' ↔
    ∃ t₁, Performs t changes t₁ ∧ Performs t₁ changes' t' := by
  induction changes generalizing t with
  | nil => exact ⟨fun h => ⟨t, rfl, h⟩, fun ⟨t₁, h₁, h⟩ => h₁ ▸ h⟩
  | cons change changes ih =>
    simp only [List.cons_append, Performs, ih]
    constructor
    · exact fun ⟨t₁, hrun, t₂, h, h'⟩ => ⟨t₂, ⟨t₁, hrun, h⟩, h'⟩
    · exact fun ⟨t₂, ⟨t₁, hrun, h⟩, h'⟩ => ⟨t₁, hrun, t₂, h, h'⟩

theorem Performs.sized {changes : List TableChange} (h : t.Sized) (hperforms : Performs t changes t') : t'.Sized := by
  induction changes generalizing t with
  | nil => exact hperforms ▸ h
  | cons change changes ih =>
    obtain ⟨t₁, hrun, hrest⟩ := hperforms
    obtain ⟨t₂, hrun', hsized⟩ := perform_ok h change
    rw [hrun] at hrun'
    cases hrun'
    exact ih hsized hrest

theorem history_performs {σ α : Type} {step : σ → α → σ} {changes : σ → α → List TableChange} {table : σ → DynamicTable}
    (hstep : ∀ s a, (table s).Sized → Performs (table s) (changes s a) (table (step s a))) (as : List α) {s : σ}
    (h : (table s).Sized) : Performs (table s) (history step changes s as) (table (as.foldl step s)) := by
  induction as generalizing s with
  | nil => rfl
  | cons a as ih =>
    have hfirst := hstep s a h
    exact performs_append.mpr ⟨_, hfirst, ih (hfirst.sized h)⟩

/-- Of an entry and the newest entries that fit, the newest that fit are the
newest of all. -/
theorem Newest.cons {limit : Nat} {all kept kept' : List (Bytes × Bytes)} {e : Bytes × Bytes}
    (h : Newest limit all kept) (h' : Newest limit (e :: kept) kept') : Newest limit (e :: all) kept' := by
  refine ⟨h'.front.trans ((List.prefix_cons_inj e).mpr h.front), h'.fits, fun other hother hfits => ?_⟩
  cases other with
  | nil => exact List.nil_prefix
  | cons e' other =>
    obtain ⟨rfl, hrest⟩ := List.cons_prefix_cons.mp hother
    refine h'.longest _ ((List.prefix_cons_inj e').mpr (h.longest other hrest ?_)) hfits
    rw [totalSize_cons] at hfits
    omega

theorem add_newest (h : t.Sized) {name value : Bytes} (hadd : (add name value).run t = (.ok (), t')) :
    t'.limit = t.limit ∧ Newest t.limit ((name, value) :: t.entries) t'.entries := by
  obtain ⟨t₁, hrun, hsized, hlimit, hfront, hlongest⟩ :=
    gc_kept (t := ⟨(name, value) :: t.entries, t.size + entrySize name value, t.limit⟩) (h.cons name value)
  obtain rfl : t₁ = t' := congrArg Prod.snd (hrun.symm.trans hadd)
  exact ⟨hlimit, hfront, hsized.fits.trans_eq hlimit, hlongest⟩

theorem Performs.newest {inserted all : List (Bytes × Bytes)} (h : t.Sized) (hnewest : Newest t.limit all t.entries)
    (hperforms : Performs t (insertions inserted) t') :
    t'.limit = t.limit ∧ Newest t.limit (inserted.reverse ++ all) t'.entries := by
  induction inserted generalizing t all with
  | nil =>
    subst hperforms
    exact ⟨rfl, hnewest⟩
  | cons e rest ih =>
    obtain ⟨t₁, hadd, hrest⟩ := hperforms
    obtain ⟨hlimit, hadded⟩ := add_newest h hadd
    have hfirst : Performs t [.insert e.1 e.2] t₁ := ⟨t₁, hadd, rfl⟩
    have hsized := hfirst.sized h
    have hall : Newest t₁.limit (e :: all) t₁.entries := hlimit ▸ hnewest.cons hadded
    obtain ⟨hlimit', hnewest'⟩ := ih hsized hall hrest
    rw [List.reverse_cons, List.append_assoc]
    exact ⟨hlimit'.trans hlimit, hlimit ▸ hnewest'⟩

theorem Performs.exact {limit : Nat} {history : List TableChange} (h : Performs (new limit) history t) :
    Exact limit history t := by
  have hsized := h.sized (new_sized limit)
  refine ⟨h, hsized.size, hsized.fits, fun before inserted heq => ?_⟩
  subst heq
  obtain ⟨t₁, hbefore, hinserted⟩ := performs_append.mp h
  have hsized₁ := hbefore.sized (new_sized limit)
  exact ⟨t₁, hbefore, hinserted.newest hsized₁ ⟨List.prefix_refl _, hsized₁.fits, fun _ hother _ => hother⟩⟩

end DynamicTable

namespace HpackDecoder

/-- The change of the table that one pass of the loop of `decode` makes: the
insertion of a literal with indexing or a new limit. -/
def fieldChange (limitUpdateAllowed : Bool) : Prog Decoding PyException (Option TableChange) := do
  if ← readBit then pure none
  else if ← readBit then
    let (name, value) ← readNameValuePair
    pure (some (.insert name value))
  else if ← readBit then
    check (limitUpdateAllowed = false) .hpackError
    let newLimit ← readHpackInt
    pure (some (.limit newLimit))
  else pure none

/-- A pass that raises has made no change. -/
def made : Except PyException (Option TableChange) → List TableChange
  | .ok change => change.toList
  | .error _ => []

def loopChanges : (fuel : Nat) → (limitUpdateAllowed : Bool) → Decoding → List TableChange
  | 0, _, _ => []
  | fuel + 1, limitUpdateAllowed, s =>
    if s.bits.eod then []
    else
      made ((fieldChange limitUpdateAllowed).run s).1 ++
        match (decodeField limitUpdateAllowed).run s with
        | (.ok none, s') => loopChanges fuel limitUpdateAllowed s'
        | (.ok (some _), s') => loopChanges fuel false s'
        | (.error _, _) => []

/-- What is done to a decoder. -/
inductive Operation
  | add (name value : Bytes)
  | setLimit (limit : Nat)
  | decode (tree : HuffmanTree) (data : Bytes)

def step (d : HpackDecoder) : Operation → HpackDecoder
  | .add name value => ⟨((DynamicTable.perform (.insert name value)).run d.table).2⟩
  | .setLimit limit => ⟨((DynamicTable.perform (.limit limit)).run d.table).2⟩
  | .decode tree data => (d.decode tree data).2.1

def changes (d : HpackDecoder) : Operation → List TableChange
  | .add name value => [.insert name value]
  | .setLimit limit => [.limit limit]
  | .decode tree data => loopChanges data.length true ⟨.new data, tree, d.table⟩

/-- From a state with table `t`, `m` does to the table what `change` tells. -/
def Accounts {α : Type} (t : DynamicTable) (m : Prog Decoding PyException α)
    (change : Prog Decoding PyException (Option TableChange)) : Prop :=
  ∀ s, s.table = t → DynamicTable.Performs t (made (change.run s).1) (m.run s).2.table

theorem keepsReading_table (t : DynamicTable) : KeepsReading (fun s => s.table = t) Anything where
  bits _ hs := ⟨hs, trivial⟩
  char destByte s hs := by
    refine ⟨?_, trivial⟩
    rw [readHuffmanChar]
    dsimp only
    split <;> exact hs

variable {α β : Type} {t : DynamicTable} {m : Prog Decoding PyException α}

namespace Accounts

theorem reading (h : Keeps (fun s => s.table = t) Anything m) : Accounts t m (pure none) :=
  fun s hs => (h s hs).1

theorem bind (h : Keeps (fun s => s.table = t) Anything m) {f : α → Prog Decoding PyException β}
    {g : α → Prog Decoding PyException (Option TableChange)} (hf : ∀ a, Accounts t (f a) (g a)) :
    Accounts t (m >>= f) (m >>= g) := by
  intro s hs
  have htable := (h s hs).1
  rcases hrun : m.run s with ⟨e | a, s'⟩ <;> rw [hrun] at htable
  · rw [bind_error hrun, bind_error hrun]
    exact htable
  · rw [bind_ok hrun, bind_ok hrun]
    exact hf a s' htable

theorem ite {c : Prop} [Decidable c] {m' : Prog Decoding PyException α}
    {change change' : Prog Decoding PyException (Option TableChange)} (h : Accounts t m change)
    (h' : Accounts t m' change') : Accounts t (if c then m else m') (if c then change else change') := by
  split
  · exact h
  · exact h'

theorem perform (ht : t.Sized) (change : TableChange) (r : Option (Bytes × Option Bytes × HeaderIndexMode)) :
    Accounts t (do
      onTable (DynamicTable.perform change)
      pure r) (pure (some change)) := by
  intro s hs
  obtain ⟨t', hrun, -⟩ := DynamicTable.perform_ok ht change
  have honTable : (onTable (DynamicTable.perform change)).run s = (.ok (), { s with table := t' }) := by
    rw [onTable, run_zoom, hs, hrun]
  rw [bind_ok honTable]
  exact ⟨t', hrun, rfl⟩

end Accounts

theorem decodeField_accounts (ht : t.Sized) (allowed : Bool) :
    Accounts t (decodeField allowed) (fieldChange allowed) := by
  have hreads := keepsReading_table t
  refine .bind hreads.read fun _ => .ite ?_ (.bind hreads.read fun _ => .ite ?_ (.bind hreads.read fun _ => .ite ?_ ?_))
  · exact .reading (.bind hreads.read fun _ => .bind KeepsReading.readFromIndex fun _ => .pure _)
  · exact .bind hreads.readNameValuePair fun pair => .perform ht (.insert pair.1 pair.2) _
  · exact .bind .check fun _ => .bind hreads.read fun limit => .perform ht (.limit limit) none
  · exact .reading (.bind hreads.read fun _ => .bind hreads.readNameValuePair fun _ => .pure _)

theorem decodeLoop_performs (fuel : Nat) (allowed : Bool) {s : Decoding} (h : s.table.Sized) :
    DynamicTable.Performs s.table (loopChanges fuel allowed s) ((decodeLoop fuel allowed).run s).2.table := by
  induction fuel generalizing allowed s with
  | zero => rfl
  | succ fuel ih =>
    rw [decodeLoop, loopChanges, run_get_bind]
    split
    · rfl
    have hfield := decodeField_accounts h allowed s rfl
    rw [DynamicTable.performs_append]
    rcases hrun : (decodeField allowed).run s with ⟨e | _ | header, s₁⟩ <;> rw [hrun] at hfield
    · rw [bind_error hrun]
      exact ⟨_, hfield, rfl⟩
    · rw [bind_ok hrun]
      exact ⟨_, hfield, ih allowed (hfield.sized h)⟩
    · rw [bind_ok hrun]
      have hrest := ih false (hfield.sized h)
      refine ⟨_, hfield, ?_⟩
      dsimp only
      rcases hloop : (decodeLoop fuel false).run s₁ with ⟨e | headers, s₂⟩ <;> rw [hloop] at hrest
      · rwa [bind_error hloop]
      · rwa [bind_ok hloop]

theorem step_performs (d : HpackDecoder) (operation : Operation) (h : d.table.Sized) :
    DynamicTable.Performs d.table (d.changes operation) (d.step operation).table := by
  cases operation with
  | add name value =>
    obtain ⟨t', hrun, -⟩ := DynamicTable.perform_ok h (.insert name value)
    exact ⟨t', hrun, congrArg Prod.snd hrun⟩
  | setLimit limit =>
    obtain ⟨t', hrun, -⟩ := DynamicTable.perform_ok h (.limit limit)
    exact ⟨t', hrun, congrArg Prod.snd hrun⟩
  | decode tree data =>
    have hloop := decodeLoop_performs data.length true (s := ⟨.new data, tree, d.table⟩) h
    rw [step, decode]
    rcases hrun : (decodeLoop data.length true).run ⟨.new data, tree, d.table⟩ with ⟨e | headers, s⟩ <;>
      rw [hrun] at hloop <;> exact hloop

end HpackDecoder

namespace HpackEncoder

/-- The change of the table that `write_header` makes. -/
def headerChange (enc : HpackEncoder) (k v : Bytes) (mode : HeaderIndexMode) : List TableChange :=
  if enc.findPairIndex k v = none ∧ mode = .yes then [.insert k v] else []

def loopChanges : HpackEncoder → BitEncoder → List (Bytes × Bytes × HeaderIndexMode) → List TableChange
  | _, _, [] => []
  | enc, e, (k, v, mode) :: rest =>
    enc.headerChange (lower k) v mode ++
      match (writeHeader e (lower k) v mode).run enc with
      | (.ok e', enc') => loopChanges enc' e' rest
      | (.error _, _) => []

inductive Operation
  | add (name value : Bytes)
  | encode (headerList : List (Bytes × Bytes × HeaderIndexMode))

def step (enc : HpackEncoder) : Operation → HpackEncoder
  | .add name value => ((addToDynamicTable name value).run enc).2
  | .encode headerList => ((encode headerList).run enc).2

def changes (enc : HpackEncoder) : Operation → List TableChange
  | .add name value => [.insert name value]
  | .encode headerList => enc.loopChanges .new headerList

variable {enc : HpackEncoder}

theorem writeString_table {t : DynamicTable} {e : BitEncoder} {s : Bytes} :
    Keeps (fun enc => enc.table = t) Anything (writeString e s) := .get_bind fun _ _ => .ofExcept _

theorem writeHeader_performs (h : enc.table.Sized) (e : BitEncoder) (k v : Bytes) (mode : HeaderIndexMode) :
    DynamicTable.Performs enc.table (enc.headerChange k v mode) ((writeHeader e k v mode).run enc).2.table := by
  rw [writeHeader, run_get_bind, headerChange]
  cases hfind : enc.findPairIndex k v with
  | some idx => exact rfl
  | none =>
    obtain ⟨table', hmode, -, hinserts⟩ := writeMode_run h e k v mode
    have hkept {m : Prog HpackEncoder PyException BitEncoder}
      (hm : Keeps (fun enc' => enc'.table = table') Anything m) :
        DynamicTable.Performs enc.table (if (none : Option Nat) = none ∧
          mode = .yes then [TableChange.insert k v] else [])
          (m.run { enc with table := table' }).2.table := by
      rw [(hm _ rfl).1]
      cases mode
      · exact ⟨table', hinserts, rfl⟩
      all_goals exact hinserts
    dsimp only
    rw [bind_ok hmode, run_get_bind]
    cases findKeyIndex { enc with table := table' } k with
    | some idx => exact hkept (.bind (.pure _) fun _ => writeString_table)
    | none => exact hkept (.bind writeString_table fun _ => writeString_table)

theorem encodeLoop_performs (e : BitEncoder) (headerList : List (Bytes × Bytes × HeaderIndexMode))
    (h : enc.table.Sized) :
    DynamicTable.Performs enc.table (enc.loopChanges e headerList) ((encodeLoop e headerList).run enc).2.table := by
  induction headerList generalizing enc e with
  | nil => rfl
  | cons header rest ih =>
    obtain ⟨k, v, mode⟩ := header
    have hheader := writeHeader_performs h e (lower k) v mode
    rw [encodeLoop, loopChanges, DynamicTable.performs_append]
    rcases hrun : (writeHeader e (lower k) v mode).run enc with ⟨_ | e', enc'⟩ <;> rw [hrun] at hheader
    · rw [bind_error hrun]
      exact ⟨_, hheader, rfl⟩
    · rw [bind_ok hrun]
      exact ⟨_, hheader, ih e' (hheader.sized h)⟩

theorem step_performs (enc : HpackEncoder) (operation : Operation) (h : enc.table.Sized) :
    DynamicTable.Performs enc.table (enc.changes operation) (enc.step operation).table := by
  cases operation with
  | add name value =>
    obtain ⟨t', hrun, -⟩ := DynamicTable.perform_ok h (.insert name value)
    exact ⟨t', hrun, congrArg Prod.snd hrun⟩
  | encode headerList =>
    have hloop := encodeLoop_performs .new headerList h
    rw [step, encode]
    rcases hrun : (encodeLoop .new headerList).run enc with ⟨_ | e, enc'⟩ <;> rw [hrun] at hloop
    · rwa [bind_error hrun]
    · rwa [bind_ok hrun]

end HpackEncoder

/-- Whatever is done to a coder, its dynamic table is what its history says. -/
theorem dynamic_table_history (limit : Nat) :
    (∀ operations : List HpackDecoder.Operation, DynamicTable.Exact limit
      (DynamicTable.history HpackDecoder.step HpackDecoder.changes (.new limit) operations)
      (operations.foldl HpackDecoder.step (.new limit)).table) ∧
    ∀ (encodeHuffman : Bool) (operations : List HpackEncoder.Operation), DynamicTable.Exact limit
      (DynamicTable.history HpackEncoder.step HpackEncoder.changes (.new limit encodeHuffman) operations)
      (operations.foldl HpackEncoder.step (.new limit encodeHuffman)).table := by
  have hsized := DynamicTable.new_sized limit
  constructor
  · intro operations
    have hperforms := @DynamicTable.history_performs _ _ _ _ HpackDecoder.table HpackDecoder.step_performs operations
      (.new limit) hsized
    exact hperforms.exact
  · intro encodeHuffman operations
    have hperforms := @DynamicTable.history_performs _ _ _ _ HpackEncoder.table HpackEncoder.step_performs operations
      (.new limit encodeHuffman) hsized
    exact hperforms.exact

end TornadoHttp2
