import TornadoHttp2.ReadableFields

/-! Header lists of byte strings: the multimap that they make, and the lists that
the header loop of `_parse_headers` takes in. -/

namespace TornadoHttp2

abbrev Field := Bytes × Bytes

/-! A string of digits is a number. -/

theorem digitsFrom_of_digits {s : Bytes} (h : s.all isDigit = true) (acc : Nat) : ∃ n, digitsFrom acc s = some n := by
  induction s generalizing acc with
  | nil => exact ⟨acc, rfl⟩
  | cons c s ih =>
    obtain ⟨hc, hs⟩ := Bool.and_eq_true_iff.mp (List.all_cons.symm.trans h)
    have hne : c ≠ 0x5f := by rintro rfl; simp [isDigit] at hc
    obtain ⟨n, hn⟩ := ih hs (10 * acc + (c.toNat - 0x30))
    refine ⟨n, ?_⟩
    rw [digitsFrom.eq_3 _ _ _ (by intro _ _ h; exact absurd h hne), if_pos hc, hn]

theorem not_isSpace {c : UInt8} (h : isDigit c = true) : isSpace c = false := by
  simp only [isDigit, Bool.and_eq_true, decide_eq_true_eq, UInt8.le_iff_toNat_le, UInt8.reduceToNat] at h
  simp only [isSpace, Bool.or_eq_false_iff, Bool.and_eq_false_iff, decide_eq_false_iff_not, UInt8.le_iff_toNat_le,
    ← UInt8.toNat_inj, UInt8.reduceToNat]
  omega

theorem isAscii_of_digits {s : Bytes} (h : s.all isDigit = true) : isAscii s = true := by
  refine List.all_eq_true.mpr fun c hc => ?_
  have hdigit := List.all_eq_true.mp h c hc
  simp only [isDigit, Bool.and_eq_true, decide_eq_true_eq, UInt8.le_iff_toNat_le, UInt8.lt_iff_toNat_lt,
    UInt8.reduceToNat] at hdigit ⊢
  omega

theorem int_of_ascii {s : Bytes} (h : isAscii s = true) : int s = asciiInt s := by rw [int, if_pos h]

theorem strip_of_no_space {s : Bytes} (h : ∀ c ∈ s, isSpace c = false) :
    ((s.dropWhile isSpace).reverse.dropWhile isSpace).reverse = s := by
  have drop {s : Bytes} (h : ∀ c ∈ s, isSpace c = false) : s.dropWhile isSpace = s := by
    cases s with
    | nil => rfl
    | cons c s => rw [List.dropWhile_cons_of_neg (by simp [h c (.head _)])]
  rw [drop h, drop (fun c hc => h c (List.mem_reverse.mp hc)), List.reverse_reverse]

theorem int_unsigned {s : Bytes} (h : s.all isDigit = true) {n : Nat} (hn : digits s = some n) : int s = .ok n := by
  have hstrip := strip_of_no_space fun c hc => not_isSpace (List.all_eq_true.mp h c hc)
  cases s with
  | nil => cases hn
  | cons c s =>
    obtain ⟨hc, -⟩ := Bool.and_eq_true_iff.mp (List.all_cons.symm.trans h)
    have hsign : c ≠ 0x2d ∧ c ≠ 0x2b := by
      constructor <;> rintro rfl <;> simp [isDigit] at hc
    rw [int_of_ascii (isAscii_of_digits h)]
    simp [asciiInt, hstrip, hsign, hn]

theorem int_of_digits {s : Bytes} (hne : s ≠ []) (h : s.all isDigit = true) : ∃ n, int s = .ok n := by
  cases s with
  | nil => exact absurd rfl hne
  | cons c s =>
    obtain ⟨hc, hs⟩ := Bool.and_eq_true_iff.mp (List.all_cons.symm.trans h)
    obtain ⟨n, hn⟩ := digitsFrom_of_digits hs (c.toNat - 0x30)
    exact ⟨n, int_unsigned h (by rw [digits, if_pos hc, hn])⟩

/-- The values of a name in `Http-Header-Case`, in order. -/
def valuesOf (u : Unicode) (fields : List Field) (name : Bytes) : List Bytes :=
  (fields.filter fun f => u.normalized f.1 = name).map (·.2)

/-- The values of a name joined by commas. -/
def combined (u : Unicode) (fields : List Field) (name : Bytes) : Option Bytes :=
  if valuesOf u fields name = [] then none else some ((ascii ",").intercalate (valuesOf u fields name))

namespace HTTPHeaders

/-- The multimap of a list of fields: its names in order of first use. -/
def ofFields (u : Unicode) (fields : List Field) : HTTPHeaders (Option Bytes) :=
  ⟨(fields.map fun f => u.normalized f.1).eraseDups.map fun name =>
    (name, (fields.filter fun f => u.normalized f.1 = name).map fun f => some f.2)⟩

theorem lookup_map {names : List Bytes} {g : Bytes → List (Option Bytes)} {name : Bytes} :
    (names.map fun name => (name, g name)).lookup name = if name ∈ names then some (g name) else none := by
  induction names with
  | nil => rfl
  | cons name' names ih =>
    rw [List.map_cons, List.lookup_cons, ih]
    by_cases h : name = name'
    · simp [h]
    · rw [beq_false_of_ne h]
      simp [h]

variable {u : Unicode} {fields : List Field} {name : Bytes}

theorem ofFields_lookup : (ofFields u fields).asList.lookup name =
    if valuesOf u fields name = [] then none else some ((valuesOf u fields name).map some) := by
  rw [ofFields, lookup_map]
  have hmem : name ∈ (fields.map fun f => u.normalized f.1).eraseDups ↔ valuesOf u fields name ≠ [] := by
    simp [valuesOf, List.mem_eraseDups]
  by_cases h : valuesOf u fields name = []
  · rw [if_neg fun hn => hmem.mp hn h, if_pos h]
  · rw [if_pos (hmem.mpr h), if_neg h]
    simp [valuesOf]

theorem ofFields_contains :
    (ofFields u fields).contains name = true ↔ valuesOf u fields (normalized name) ≠ [] := by
  rw [contains, values, ofFields_lookup]
  split <;> simp [*]

theorem ofFields_get : (ofFields u fields).get name =
    (combined u fields (normalized name)).elim (.error .keyError) fun v => .ok (some v) := by
  rw [get, values, ofFields_lookup, combined]
  rcases valuesOf u fields (normalized name) with _ | ⟨v, _ | ⟨v', vs⟩⟩
  · rfl
  · simp [List.intercalate]
  · simp

/-- Adding a field to a multimap of strings never fails. -/
theorem ofFields_add {k v : Bytes} :
    (ofFields u fields).add u k (some v) = .ok (ofFields u (fields ++ [(k, v)])) := by
  let names := fields.map fun f => u.normalized f.1
  let key := u.normalized k
  have hvalues : (ofFields u fields).asList.lookup key =
      if valuesOf u fields key = [] then none else some ((valuesOf u fields key).map some) := ofFields_lookup
  have hnames : (fields ++ [(k, v)]).map (fun f => u.normalized f.1) = names ++ [key] := by simp [names, key]
  have hfilter (name : Bytes) : (fields ++ [(k, v)]).filter (fun f => u.normalized f.1 = name) =
      fields.filter (fun f => u.normalized f.1 = name) ++ if key = name then [(k, v)] else [] := by
    by_cases hk : key = name <;> simp [hk, key]
  by_cases h : valuesOf u fields key = []
  · have hnew : key ∉ names := by simpa [names, valuesOf] using h
    have hdups : (names ++ [key]).eraseDups = names.eraseDups ++ [key] := by
      simp [List.eraseDups_append, List.cons_removeAll, hnew, List.eraseDups_cons]
    simp only [add, key, hvalues, if_pos h]
    refine congrArg Except.ok (congrArg HTTPHeaders.mk ?_)
    rw [hnames, hdups, List.map_append]
    refine congrArg₂ List.append (List.map_congr_left fun name hname => ?_) ?_
    · have hne : key ≠ name := fun hk => hnew (hk ▸ List.mem_eraseDups.mp hname)
      rw [hfilter, if_neg hne, List.append_nil]
    · have hnone : fields.filter (fun f => u.normalized f.1 = key) = [] := by simpa [valuesOf] using h
      simp [hnone, key]
  · have hold : key ∈ names := by simpa [names, valuesOf] using h
    have hdups : (names ++ [key]).eraseDups = names.eraseDups := by
      simp [List.eraseDups_append, List.cons_removeAll, hold]
    have hstrings : ((valuesOf u fields key).map some).all Option.isSome = true ∧ (some v).isSome = true := by simp
    simp only [add, key, hvalues, if_neg h, if_pos hstrings]
    refine congrArg Except.ok (congrArg HTTPHeaders.mk ?_)
    rw [hnames, hdups, ofFields, List.map_map]
    refine List.map_congr_left fun name hname => ?_
    rw [Function.comp_apply, hfilter]
    by_cases hk : name = key
    · simp [hk, key]
    · rw [if_neg hk, if_neg (Ne.symm hk), List.append_nil]

end HTTPHeaders

namespace Stream

def isPseudo (k : Bytes) : Bool := (ascii ":").isPrefixOf k

/-- Pseudo-headers are known, occur once and come first; names are in lower case. -/
structure Ordered (isClient : Bool) (fields : List Field) : Prop where
  lower : ∀ f ∈ fields, f.1 = lower f.1
  known : ∀ f ∈ fields, isPseudo f.1 = true → f.1 ∈ validPseudoHeaders isClient
  once : ((fields.map (·.1)).filter isPseudo).Nodup
  first : fields.Pairwise fun f g => isPseudo g.1 = true → isPseudo f.1 = true

/-- The headers of a message: the regular fields, and a `Host` from `:authority`. -/
def messageFields (fields : List Field) : List Field :=
  fields.filterMap fun f =>
    if f.1 = ascii ":authority" then some (ascii "Host", f.2) else if isPseudo f.1 then none else some f

theorem isPseudo_lower (k : Bytes) : isPseudo (lower k) = isPseudo k := by
  cases k with
  | nil => rfl
  | cons c k =>
    have hcolon : (0x3a : UInt8) = (if 0x41 ≤ c ∧ c ≤ 0x5a then c + 0x20 else c) ↔ 0x3a = c := by
      split
      · rename_i hupper
        simp only [← UInt8.toNat_inj, UInt8.le_iff_toNat_le, UInt8.toNat_add, UInt8.reduceToNat] at hupper ⊢
        omega
      · rfl
    change ((0x3a : UInt8) == _ && true) = ((0x3a : UInt8) == c && true)
    rw [Bool.and_true, Bool.and_true, Bool.eq_iff_iff, beq_iff_eq, beq_iff_eq]
    exact hcolon

/-- What the header loop has made of these fields. -/
def parsedFields (u : Unicode) (fields : List Field) : ParsedHeaders where
  pseudoHeaders := (fields.filter fun f => isPseudo f.1).map fun f => (f.1, some f.2)
  headers := .ofFields u (messageFields fields)
  hasRegularHeader := fields.any fun f => !isPseudo f.1

/-- A decoded header list stands for these fields. -/
def Lists (headers : List (Bytes × Option Bytes × HeaderIndexMode)) (fields : List Field) : Prop :=
  headers.map (fun h => (h.1, h.2.1)) = fields.map fun f => (f.1, some f.2)

variable {u : Unicode} {isClient : Bool} {i : Nat} {fields before : List Field} {f : Field}

theorem Ordered.of_append {after : List Field} (h : Ordered isClient (fields ++ after)) : Ordered isClient fields where
  lower f hf := h.lower f (List.mem_append_left _ hf)
  known f hf := h.known f (List.mem_append_left _ hf)
  once := by
    have honce := h.once
    rw [List.map_append, List.filter_append] at honce
    exact (List.nodup_append.mp honce).1
  first := (List.pairwise_append.mp h.first).1

theorem ordered_nil : Ordered isClient [] := ⟨by simp, by simp, by simp, by simp⟩

theorem parsedFields_lookup {k : Bytes} (hk : isPseudo k = true) :
    ((parsedFields u fields).pseudoHeaders.lookup k).isSome = true ↔ k ∈ fields.map (·.1) := by
  rw [parsedFields, List.lookup_isSome_iff]
  constructor
  · rintro ⟨p, hp, hkp⟩
    obtain ⟨f, hf, rfl⟩ := List.mem_map.mp hp
    obtain rfl : k = f.1 := by simpa using hkp
    exact List.mem_map_of_mem (List.mem_of_mem_filter hf)
  · intro h
    obtain ⟨f, hf, rfl⟩ := List.mem_map.mp h
    exact ⟨(f.1, some f.2), List.mem_map_of_mem (List.mem_filter.mpr ⟨hf, hk⟩), by simp⟩

theorem Ordered.not_refuses (h : Ordered isClient (fields ++ [f])) :
    ¬ (parsedFields u fields).Refuses isClient f.1 := by
  rintro (hlower | ⟨hpseudo, hregular | hunknown | htwice⟩)
  · exact hlower (h.lower f (by simp))
  · obtain ⟨g, hg, hgpseudo⟩ := List.any_eq_true.mp hregular
    have hfirst := (List.pairwise_append.mp h.first).2.2 g hg f (by simp) hpseudo
    simp [hfirst] at hgpseudo
  · exact hunknown (h.known f (by simp) hpseudo)
  · have honce := h.once
    rw [List.map_append, List.filter_append] at honce
    have hmem : f.1 ∈ (fields.map (·.1)).filter isPseudo :=
      List.mem_filter.mpr ⟨(parsedFields_lookup hpseudo).mp htwice, hpseudo⟩
    exact (List.nodup_append.mp honce).2.2 _ hmem f.1 (List.mem_filter.mpr ⟨by simp, hpseudo⟩) rfl

theorem Ordered.snoc (h : Ordered isClient fields) (hf : ¬ (parsedFields u fields).Refuses isClient f.1) :
    Ordered isClient (fields ++ [f]) := by
  obtain ⟨hlower, hpseudo⟩ := not_or.mp hf
  rw [not_not] at hlower
  have hvalid (hp : isPseudo f.1 = true) := not_or.mp ((not_and.mp hpseudo) hp)
  refine ⟨?_, ?_, ?_, ?_⟩
  · exact List.forall_mem_append.mpr ⟨h.lower, by simpa using hlower⟩
  · refine List.forall_mem_append.mpr ⟨h.known, ?_⟩
    rintro g hg hp
    obtain rfl := List.mem_singleton.mp hg
    exact not_not.mp (not_or.mp (hvalid hp).2).1
  · rw [List.map_append, List.filter_append, List.nodup_append]
    refine ⟨h.once, ?_, ?_⟩
    · cases hp : isPseudo f.1 <;> simp [hp]
    · rintro k hk k' hk' rfl
      have hkf : k = f.1 ∧ isPseudo f.1 = true := by
        obtain ⟨hmem, hp⟩ := List.mem_filter.mp hk'
        obtain rfl : k = f.1 := by simpa using hmem
        exact ⟨rfl, hp⟩
      obtain ⟨rfl, hp⟩ := hkf
      exact (not_or.mp (hvalid hp).2).2 ((parsedFields_lookup hp).mpr (List.mem_of_mem_filter hk))
  · rw [List.pairwise_append]
    refine ⟨h.first, List.pairwise_singleton _ _, ?_⟩
    rintro g hg g' hg' hp
    obtain rfl := List.mem_singleton.mp hg'
    have hnone := (hvalid hp).1
    by_contra hregular
    exact hnone (List.any_eq_true.mpr ⟨g, hg, by rw [eq_false_of_ne_true hregular]; rfl⟩)

theorem addHeader_parsed {mode : HeaderIndexMode} (hrefuses : ¬ (parsedFields u before).Refuses isClient f.1)
    (hname : IsText (some f.1)) (hvalue : IsText (some f.2)) :
    addHeader u isClient i (parsedFields u before) (f.1, some f.2, mode) = .ok (parsedFields u (before ++ [f])) := by
  obtain ⟨hlower, hpseudo⟩ := not_or.mp hrefuses
  by_cases hcolon : (ascii ":").isPrefixOf f.1 = true
  · have hvalid := (not_and.mp hpseudo) hcolon
    have hf : isPseudo f.1 = true := hcolon
    rw [addHeader, if_neg hlower, if_pos hcolon, addPseudoHeader, if_neg hvalid, nativeStr_of_text hvalue]
    dsimp only [bind, Except.bind]
    by_cases hauthority : f.1 = ascii ":authority"
    · have hadd : (parsedFields u before).headers.add u (ascii "Host") (some f.2) = _ := HTTPHeaders.ofFields_add
      rw [if_pos hauthority, hadd]
      rw [hauthority] at hf
      simp [parsedFields, messageFields, hauthority, hf]
    · rw [if_neg hauthority]
      simp [parsedFields, messageFields, hauthority, hf]
  · have hadd : (parsedFields u before).headers.add u f.1 (some f.2) = _ := HTTPHeaders.ofFields_add
    have hf : isPseudo f.1 = false := eq_false_of_ne_true hcolon
    have hauthority : f.1 ≠ ascii ":authority" := fun h => hcolon (by rw [h]; decide)
    rw [addHeader, if_neg hlower, if_neg hcolon, addRegularHeader, nativeStr_of_text hname,
      nativeStr_of_text hvalue]
    dsimp only [bind, Except.bind]
    rw [hadd]
    simp [parsedFields, messageFields, hauthority, hf]

/-- The header loop takes in exactly the ordered lists. -/
theorem addHeaders_parsed {headers : List (Bytes × Option Bytes × HeaderIndexMode)} (hlists : Lists headers fields)
    (htext : ∀ f ∈ fields, IsText (some f.1) ∧ IsText (some f.2)) (hbefore : Ordered isClient before) :
    (Ordered isClient (before ++ fields) →
      addHeaders u isClient i (parsedFields u before) headers = .ok (parsedFields u (before ++ fields))) ∧
    (¬ Ordered isClient (before ++ fields) →
      addHeaders u isClient i (parsedFields u before) headers = .error (.streamError i .protocolError)) := by
  induction fields generalizing headers before with
  | nil =>
    obtain rfl : headers = [] := by simpa [Lists] using hlists
    rw [List.append_nil]
    exact ⟨fun _ => rfl, fun h => absurd hbefore h⟩
  | cons f fields ih =>
    rw [List.forall_mem_cons] at htext
    obtain ⟨⟨k, v, mode⟩, rest, rfl⟩ : ∃ header rest, headers = header :: rest := by
      cases headers with
      | nil => simp [Lists] at hlists
      | cons header rest => exact ⟨header, rest, rfl⟩
    obtain ⟨⟨rfl, rfl⟩, hrest⟩ : (k = f.1 ∧ v = some f.2) ∧ Lists rest fields := by simpa [Lists] using hlists
    have happend : before ++ f :: fields = before ++ [f] ++ fields := by simp
    rw [happend]
    by_cases hrefuses : (parsedFields u before).Refuses isClient f.1
    · have hnot : ¬ Ordered isClient (before ++ [f] ++ fields) := fun h => h.of_append.not_refuses hrefuses
      exact ⟨fun h => absurd h hnot, fun _ => by rw [addHeaders, addHeader_refused hrefuses]⟩
    · rw [addHeaders_cons (addHeader_parsed hrefuses htext.1.1 htext.1.2)]
      exact ih hrest htext.2 (hbefore.snoc hrefuses)

end Stream

end TornadoHttp2
