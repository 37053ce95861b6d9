import TornadoHttp2.PeerTable
import TornadoHttp2.Requests

/-! The fields of a message that `write_headers` has encoded, and what the peer's
`_parse_headers` makes of them. -/

namespace TornadoHttp2

/-! A multimap is recovered from its fields. -/

namespace HTTPHeaders

/-- Distinct ASCII names in `Http-Header-Case`, each with its values. -/
structure WellFormed (h : HTTPHeaders Bytes) : Prop where
  nodup : (h.asList.map (·.1)).Nodup
  isAscii : ∀ e ∈ h.asList, isAscii e.1 = true
  normalized : ∀ e ∈ h.asList, normalized e.1 = e.1
  nonempty : ∀ e ∈ h.asList, e.2 ≠ []

/-- The fields as they go into a header block. -/
def fields (h : HTTPHeaders Bytes) : List Field := h.getAll.map fun f => (lower f.1, f.2)

def withoutConnection (h : HTTPHeaders Bytes) : HTTPHeaders Bytes :=
  ⟨h.asList.filter fun e => e.1 ≠ ascii "Connection"⟩

theorem fields_cons (e : Bytes × List Bytes) (es : List (Bytes × List Bytes)) :
    fields ⟨e :: es⟩ = (e.2.map fun v => (lower e.1, v)) ++ fields ⟨es⟩ := by
  simp [fields, getAll, Function.comp_def]

theorem WellFormed.tail {e : Bytes × List Bytes} {es : List (Bytes × List Bytes)} (h : WellFormed ⟨e :: es⟩) :
    WellFormed ⟨es⟩ :=
  ⟨h.nodup.of_cons, fun f hf => h.isAscii f (.tail _ hf), fun f hf => h.normalized f (.tail _ hf),
    fun f hf => h.nonempty f (.tail _ hf)⟩

theorem WellFormed.head {e : Bytes × List Bytes} {es : List (Bytes × List Bytes)} (h : WellFormed ⟨e :: es⟩) :
    e.1 ∉ es.map (·.1) := (List.nodup_cons.mp h.nodup).1

end HTTPHeaders

/-- `HTTPHeaders` does not care about the case of a name. -/
theorem normalizedFrom_lower (wordStart : Bool) (name : Bytes) :
    normalizedFrom wordStart (lower name) = normalizedFrom wordStart name := by
  induction name generalizing wordStart with
  | nil => rfl
  | cons c rest ih =>
    by_cases hupper : 0x41 ≤ c ∧ c ≤ 0x5a
    · have hcons : lower (c :: rest) = (c + 0x20) :: lower rest := by
        rw [lower, List.map_cons, if_pos hupper]
        rfl
      have hne : c + 0x20 ≠ 0x2d ∧ c ≠ 0x2d := by
        simp only [ne_eq, ← UInt8.toNat_inj, UInt8.le_iff_toNat_le, UInt8.toNat_add, UInt8.reduceToNat] at hupper ⊢
        omega
      have hlower : isLower (c + 0x20) = true ∧ isLower c = false := by
        simp only [isLower, UInt8.le_iff_toNat_le, UInt8.toNat_add, UInt8.reduceToNat, Bool.and_eq_true,
          Bool.and_eq_false_iff, decide_eq_true_eq, decide_eq_false_iff_not] at hupper ⊢
        omega
      have hfirst : lower [c] = [c + 0x20] := by
        rw [lower, List.map_cons, if_pos hupper]
        rfl
      have hsame : lower [c + 0x20] = lower [c] := by
        rw [← hfirst]
        exact lower_lower [c]
      rw [hcons, normalizedFrom, normalizedFrom, ih, hlower.1, hlower.2, hsame, hfirst, decide_eq_false hne.1,
        decide_eq_false hne.2]
      simp
    · have hcons : lower (c :: rest) = c :: lower rest := by
        rw [lower, List.map_cons, if_neg hupper]
        rfl
      rw [hcons, normalizedFrom, normalizedFrom, ih]

theorem normalized_lower (name : Bytes) : normalized (lower name) = normalized name := normalizedFrom_lower true name

theorem lower_ascii {s : Bytes} (h : isAscii s = true) : isAscii (lower s) = true := by
  rw [isAscii, lower, List.all_map]
  refine List.all_eq_true.mpr fun c hc => ?_
  have hlt := of_decide_eq_true (List.all_eq_true.mp h c hc)
  rw [Function.comp_apply, decide_eq_true_eq]
  split
  · rename_i hupper
    simp only [UInt8.lt_iff_toNat_lt, UInt8.le_iff_toNat_le, UInt8.toNat_add, UInt8.reduceToNat] at hupper ⊢
    omega
  · exact hlt

theorem eraseDups_replicate {n : Nat} {name : Bytes} {names : List Bytes} (hn : n ≠ 0) (hname : name ∉ names) :
    (List.replicate n name ++ names).eraseDups = name :: names.eraseDups := by
  obtain ⟨m, rfl⟩ := Nat.exists_eq_succ_of_ne_zero hn
  have hfilter : names.filter (fun b => !b == name) = names :=
    List.filter_eq_self.mpr fun b hb => by
      have hne : b ≠ name := fun h => hname (h ▸ hb)
      simp [hne]
  rw [List.replicate_succ, List.cons_append, List.eraseDups_cons, List.filter_append, hfilter]
  simp

namespace HTTPHeaders

variable {u : Unicode} {h : HTTPHeaders Bytes}

/-- A name comes back from the lower case that it is sent in. -/
theorem WellFormed.normalized_lower (hw : WellFormed h) {e : Bytes × List Bytes} (he : e ∈ h.asList) :
    u.normalized (lower e.1) = e.1 := by
  rw [Unicode.normalized, if_pos (lower_ascii (hw.isAscii e he)), TornadoHttp2.normalized_lower, hw.normalized e he]

theorem normalized_fields (hw : WellFormed h) {f : Field} (hf : f ∈ h.fields) :
    u.normalized f.1 ∈ h.asList.map (·.1) := by
  obtain ⟨g, hg, rfl⟩ := List.mem_map.mp hf
  obtain ⟨e, he, hge⟩ := List.mem_flatMap.mp hg
  obtain ⟨v, -, rfl⟩ := List.mem_map.mp hge
  rw [hw.normalized_lower he]
  exact List.mem_map_of_mem he

theorem names_fields (hw : WellFormed h) :
    (h.fields.map fun f => u.normalized f.1).eraseDups = h.asList.map (·.1) := by
  obtain ⟨es⟩ := h
  induction es with
  | nil => rfl
  | cons e es ih =>
    have hname : e.1 ∉ (fields ⟨es⟩).map fun f => u.normalized f.1 := by
      intro hmem
      obtain ⟨f, hf, heq⟩ := List.mem_map.mp hmem
      have hmem' := normalized_fields (u := u) hw.tail hf
      rw [heq] at hmem'
      exact hw.head hmem'
    have hblock : (e.2.map fun v => (lower e.1, v)).map (fun f => u.normalized f.1) =
        List.replicate e.2.length e.1 := by
      rw [List.map_map, List.map_eq_replicate_iff.mpr]
      intro v _
      exact hw.normalized_lower (.head _)
    have hlength : e.2.length ≠ 0 := fun hl => hw.nonempty e (.head _) (List.eq_nil_of_length_eq_zero hl)
    rw [fields_cons, List.map_append, hblock, eraseDups_replicate hlength hname, ih hw.tail]
    rfl

theorem filter_fields (hw : WellFormed h) {e : Bytes × List Bytes} (he : e ∈ h.asList) :
    (h.fields.filter fun f => u.normalized f.1 = e.1).map (·.2) = e.2 := by
  obtain ⟨es⟩ := h
  induction es with
  | nil => cases he
  | cons e' es ih =>
    have hname (v : Bytes) : u.normalized (lower e'.1, v).1 = e'.1 := hw.normalized_lower (.head _)
    rw [fields_cons, List.filter_append, List.map_append, List.filter_map, List.map_map]
    rcases List.mem_cons.mp he with rfl | he'
    · have hrest : (fields ⟨es⟩).filter (fun f => u.normalized f.1 = e.1) = [] := by
        rw [List.filter_eq_nil_iff]
        intro f hf heq
        have hmem := normalized_fields (u := u) hw.tail hf
        rw [of_decide_eq_true heq] at hmem
        exact hw.head hmem
      have hblock : e.2.filter ((fun f : Field => decide (u.normalized f.1 = e.1)) ∘ fun v => (lower e.1, v)) =
          e.2 := List.filter_eq_self.mpr fun v _ => decide_eq_true (hname v)
      rw [hrest, hblock, List.map_nil, List.append_nil]
      exact List.map_id e.2
    · have hne : e'.1 ≠ e.1 := fun heq => hw.head (by rw [heq]; exact List.mem_map_of_mem he')
      have hblock : e'.2.filter ((fun f : Field => decide (u.normalized f.1 = e.1)) ∘ fun v => (lower e'.1, v)) =
          [] := List.filter_eq_nil_iff.mpr fun v _ => by simpa [hname v] using hne
      rw [hblock, ih hw.tail he']
      rfl

/-- A multimap is what its fields make. -/
theorem ofFields_fields (hw : WellFormed h) : ofFields u h.fields = h.optional := by
  rw [ofFields, names_fields hw, List.map_map, optional]
  refine congrArg mk (List.map_congr_left fun e he => ?_)
  have hvalues : (h.fields.filter fun f => u.normalized f.1 = e.1).map (fun f => some f.2) = e.2.map some := by
    rw [← filter_fields (u := u) hw he, List.map_map]
    rfl
  rw [Function.comp_apply, hvalues]

end HTTPHeaders

/-! A status code is read as it was written. -/

theorem isDigit_ofChar {c : Char} (h : c.isDigit = true) : isDigit (UInt8.ofNat c.toNat) = true ∧
    (UInt8.ofNat c.toNat).toNat = c.toNat := by
  simp only [Char.isDigit, Bool.and_eq_true, decide_eq_true_eq, UInt32.le_iff_toNat_le] at h
  have hc : c.toNat = c.val.toNat := rfl
  have hbyte : (UInt8.ofNat c.toNat).toNat = c.toNat := by
    have hle : c.toNat ≤ 57 := h.2
    exact UInt8.toNat_ofNat_of_lt' (Nat.lt_of_le_of_lt hle (by decide))
  refine ⟨?_, hbyte⟩
  simp only [isDigit, Bool.and_eq_true, decide_eq_true_eq, UInt8.le_iff_toNat_le, hbyte]
  simp at h ⊢
  omega

theorem digitsFrom_chars {cs : List Char} (h : ∀ c ∈ cs, c.isDigit = true) (acc : Nat) :
    digitsFrom acc (cs.map fun c => UInt8.ofNat c.toNat) = some (Nat.ofDigitChars 10 cs acc) := by
  induction cs generalizing acc with
  | nil => rfl
  | cons c cs ih =>
    rw [List.forall_mem_cons] at h
    obtain ⟨hc, hbyte⟩ := isDigit_ofChar h.1
    have hne : UInt8.ofNat c.toNat ≠ 0x5f := fun heq => by simp [heq, isDigit] at hc
    rw [List.map_cons, digitsFrom.eq_3 _ _ _ (by intro _ _ h; exact absurd h hne), if_pos hc, ih h.2, hbyte]
    rfl

theorem digits_repr (n : Nat) : digits (ascii n.repr) = some n ∧ (ascii n.repr).all isDigit = true := by
  have hdigits : ∀ c ∈ Nat.toDigits 10 n, c.isDigit = true := fun c hc =>
    Nat.isDigit_of_mem_toDigits (by decide) (by decide) hc
  have hall : (ascii n.repr).all isDigit = true := by
    rw [ascii, Nat.toList_repr, List.all_map]
    exact List.all_eq_true.mpr fun c hc => (isDigit_ofChar (hdigits c hc)).1
  refine ⟨?_, hall⟩
  have hvalue : Nat.ofDigitChars 10 (Nat.toDigits 10 n) 0 = n := Nat.ofDigitChars_ten_toDigits
  rw [ascii, Nat.toList_repr]
  cases hcs : Nat.toDigits 10 n with
  | nil => exact absurd hcs Nat.toDigits_ne_nil
  | cons c cs =>
    rw [hcs] at hdigits hvalue
    rw [List.forall_mem_cons] at hdigits
    obtain ⟨hc, hbyte⟩ := isDigit_ofChar hdigits.1
    rw [List.map_cons, digits, if_pos hc, digitsFrom_chars hdigits.2, hbyte]
    rw [Nat.ofDigitChars_cons, Nat.mul_zero, Nat.zero_add] at hvalue
    exact congrArg some hvalue

theorem ascii_negSucc (n : Nat) : ascii (toString (Int.negSucc n)) = 0x2d :: ascii (n + 1).repr := by
  simp [ascii, Int.repr, Int.toString_eq_repr]

theorem int_toString (n : Int) : int (ascii (toString n)) = .ok n := by
  cases n with
  | ofNat n => exact int_unsigned (digits_repr n).2 (digits_repr n).1
  | negSucc n =>
    obtain ⟨hdigits, hall⟩ := digits_repr (n + 1)
    have hspace : ∀ c ∈ 0x2d :: ascii (n + 1).repr, isSpace c = false :=
      List.forall_mem_cons.mpr ⟨by decide, fun c hc => not_isSpace (List.all_eq_true.mp hall c hc)⟩
    have hstrip := strip_of_no_space hspace
    rw [ascii_negSucc]
    have hascii : isAscii (0x2d :: ascii (n + 1).repr) = true := isAscii_of_digits (s := ascii (n + 1).repr) hall
    rw [int_of_ascii hascii]
    simp only [asciiInt, hstrip, hdigits]
    rfl

/-! The message as it goes out. -/

/-- A start line that this end can send. -/
def StartLine.SentBy (isClient : Bool) : StartLine Bytes → Prop
  | request method path => isClient = true ∧ IsText (some method) ∧ IsText (some path)
  | response _ => isClient = false

/-- A message that this end can send: names in ASCII, values in UTF-8, and no
content length or TE that the peer cannot take. -/
structure Sendable (isClient : Bool) (startLine : StartLine Bytes) (headers : HTTPHeaders Bytes) : Prop where
  line : startLine.SentBy isClient
  multimap : headers.WellFormed
  names : ∀ e ∈ headers.asList, Stream.isPseudo e.1 = false
  values : ∀ e ∈ headers.asList, ∀ v ∈ e.2, IsText (some v)
  length : headers.values (ascii "content-length") = none ∨
    ∃ v, headers.values (ascii "content-length") = some [v] ∧ v ≠ [] ∧ v.all isDigit = true
  te : headers.values (ascii "te") = none ∨ headers.values (ascii "te") = some [ascii "trailers"]

def sentFields (startLine : StartLine Bytes) (headers : HTTPHeaders Bytes) : List Field :=
  startLine.pseudoHeaders ++ headers.withoutConnection.fields

namespace HTTPHeaders

variable {h : HTTPHeaders Bytes}

theorem WellFormed.withoutConnection (hw : WellFormed h) : h.withoutConnection.WellFormed where
  nodup := hw.nodup.sublist (List.filter_sublist.map _)
  isAscii e he := hw.isAscii e (List.mem_of_mem_filter he)
  normalized e he := hw.normalized e (List.mem_of_mem_filter he)
  nonempty e he := hw.nonempty e (List.mem_of_mem_filter he)

theorem lower_eq_connection {name : Bytes} (hname : normalized name = name) :
    lower name = ascii "connection" ↔ name = ascii "Connection" := by
  constructor
  · intro hlower
    have hnormalized := normalized_lower name
    rw [hlower, hname] at hnormalized
    exact hnormalized.symm.trans (by decide)
  · rintro rfl
    decide

theorem withoutConnection_fields (hw : WellFormed h) : h.withoutConnection.fields =
    (h.getAll.filter fun f => lower f.1 ≠ ascii "connection").map fun f => (lower f.1, f.2) := by
  obtain ⟨es⟩ := h
  induction es with
  | nil => rfl
  | cons e es ih =>
    have hiff := lower_eq_connection (hw.normalized e (.head _))
    have hcons : getAll ⟨e :: es⟩ = (e.2.map fun v => (e.1, v)) ++ getAll ⟨es⟩ := rfl
    rw [hcons, List.filter_append, List.map_append, ← ih hw.tail]
    by_cases hname : e.1 = ascii "Connection"
    · have hdrop : withoutConnection ⟨e :: es⟩ = withoutConnection ⟨es⟩ := by simp [withoutConnection, hname]
      have hlower := hiff.mpr hname
      rw [hdrop]
      simp [List.filter_map, Function.comp_def, hlower]
    · have hkeep : withoutConnection ⟨e :: es⟩ = ⟨e :: (withoutConnection ⟨es⟩).asList⟩ := by
        simp [withoutConnection, hname]
      have hlower := mt hiff.mp hname
      rw [hkeep, fields_cons]
      simp [List.filter_map, Function.comp_def, hlower]

theorem lookup_filter {es : List (Bytes × List Bytes)} {name other : Bytes} (hne : name ≠ other) :
    (es.filter fun e => e.1 ≠ other).lookup name = es.lookup name := by
  induction es with
  | nil => rfl
  | cons e es ih =>
    by_cases he : e.1 = other
    · have hname : (name == e.1) = false := beq_false_of_ne (he ▸ hne)
      rw [List.filter_cons_of_neg (by simpa using he), ih, List.lookup_cons, hname]
    · rw [List.filter_cons_of_pos (by simpa using he), List.lookup_cons, List.lookup_cons, ih]

theorem withoutConnection_values {name : Bytes} (hname : normalized name ≠ ascii "Connection") :
    h.withoutConnection.values name = h.values name := lookup_filter hname

theorem optional_values {name : Bytes} : h.optional.values name = (h.values name).map (List.map some) := by
  obtain ⟨es⟩ := h
  rw [values, values, optional]
  induction es with
  | nil => rfl
  | cons e es ih =>
    rw [List.map_cons, List.lookup_cons, List.lookup_cons, ih]
    cases normalized name == e.1 <;> rfl

end HTTPHeaders

namespace Sendable

open TornadoHttp2.Stream

variable {u : Unicode} {isClient : Bool} {startLine : StartLine Bytes} {headers : HTTPHeaders Bytes}

/-- What the encoder is given. -/
theorem writtenHeaders_eq (h : Sendable isClient startLine headers) :
    writtenHeaders u startLine headers = sentFields startLine headers := by
  have hlower : headers.getAll.map (fun f => (u.lower f.1, f.2)) = headers.getAll.map fun f => (lower f.1, f.2) := by
    refine List.map_congr_left fun f hf => ?_
    obtain ⟨e, he, hfe⟩ := List.mem_flatMap.mp hf
    obtain ⟨v, -, rfl⟩ := List.mem_map.mp hfe
    rw [Unicode.lower, if_pos (h.multimap.isAscii e he)]
  rw [writtenHeaders, sentFields, hlower, HTTPHeaders.withoutConnection_fields h.multimap, List.filter_map]
  rfl

/-- A regular field of the message comes from a header of the multimap. -/
theorem of_mem_fields {f : Field} (hf : f ∈ headers.withoutConnection.fields) :
    ∃ e ∈ headers.asList, f.2 ∈ e.2 ∧ e.1 ≠ ascii "Connection" ∧ f.1 = lower e.1 := by
  obtain ⟨g, hg, rfl⟩ := List.mem_map.mp hf
  obtain ⟨e, he, hge⟩ := List.mem_flatMap.mp hg
  obtain ⟨v, hv, rfl⟩ := List.mem_map.mp hge
  obtain ⟨hmem, hname⟩ := List.mem_filter.mp he
  exact ⟨e, hmem, hv, by simpa using hname, rfl⟩

theorem regular (h : Sendable isClient startLine headers) {f : Field} (hf : f ∈ headers.withoutConnection.fields) :
    isPseudo f.1 = false := by
  obtain ⟨e, he, -, -, hname⟩ := of_mem_fields hf
  rw [hname, isPseudo_lower]
  exact h.names e he

theorem pseudo {f : Field} (hf : f ∈ startLine.pseudoHeaders) : isPseudo f.1 = true ∧ f.1 ≠ ascii ":authority" := by
  cases startLine with
  | request method path =>
    simp only [StartLine.pseudoHeaders, List.mem_cons, List.not_mem_nil, or_false] at hf
    rcases hf with rfl | rfl | rfl <;> dsimp only <;> decide
  | response code =>
    obtain rfl := List.mem_singleton.mp hf
    dsimp only
    decide

/-- The peer's multimap is the one that was written, but for the connection
headers. -/
theorem ofFields_sent (h : Sendable isClient startLine headers) :
    HTTPHeaders.ofFields u (messageFields (sentFields startLine headers)) = headers.withoutConnection.optional := by
  have hpseudo : messageFields startLine.pseudoHeaders = [] := by
    refine List.filterMap_eq_nil_iff.mpr fun f hf => ?_
    rw [if_neg (pseudo hf).2, if_pos (pseudo hf).1]
  have hregular : messageFields headers.withoutConnection.fields = headers.withoutConnection.fields := by
    refine (List.filterMap_congr fun f hf => ?_).trans List.filterMap_some
    have hfalse := h.regular hf
    have hne : f.1 ≠ ascii ":authority" := fun heq => by rw [heq] at hfalse; cases hfalse
    rw [if_neg hne, if_neg (by simp [hfalse])]
  have hmessage : messageFields (sentFields startLine headers) = headers.withoutConnection.fields := by
    rw [sentFields, messageFields, List.filterMap_append]
    exact congrArg₂ List.append hpseudo hregular
  rw [hmessage, HTTPHeaders.ofFields_fields h.multimap.withoutConnection]

/-- The values of a name, as the peer sees them. -/
theorem valuesOf_sent (h : Sendable isClient startLine headers) (name : Bytes)
    (hconnection : normalized name ≠ ascii "Connection") :
    valuesOf u (messageFields (sentFields startLine headers)) (normalized name) = (headers.values name).getD [] := by
  have hvalues := @HTTPHeaders.ofFields_lookup u (messageFields (sentFields startLine headers)) (normalized name)
  have hsent : (HTTPHeaders.ofFields u (messageFields (sentFields startLine headers))).asList.lookup (normalized name) =
      (headers.values name).map (List.map some) := by
    rw [h.ofFields_sent, ← HTTPHeaders.withoutConnection_values hconnection]
    exact HTTPHeaders.optional_values
  rw [hsent] at hvalues
  generalize valuesOf u (messageFields (sentFields startLine headers)) (normalized name) = vs at hvalues
  cases hname : headers.values name with
  | none =>
    rw [hname] at hvalues
    change vs = []
    by_contra hne
    rw [if_neg hne] at hvalues
    cases hvalues
  | some ws =>
    rw [hname] at hvalues
    split at hvalues
    · cases hvalues
    · exact (List.map_injective_iff.mpr (Option.some_injective _) (Option.some.inj hvalues)).symm

theorem ordered (h : Sendable isClient startLine headers) : Ordered (!isClient) (sentFields startLine headers) where
  lower f hf := by
    rcases List.mem_append.mp hf with hf | hf
    · cases startLine with
      | request method path =>
        simp only [StartLine.pseudoHeaders, List.mem_cons, List.not_mem_nil, or_false] at hf
        rcases hf with rfl | rfl | rfl <;> rfl
      | response code =>
        obtain rfl := List.mem_singleton.mp hf
        rfl
    · obtain ⟨e, -, -, -, hname⟩ := of_mem_fields hf
      rw [hname, lower_lower]
  known f hf hpseudo := by
    rcases List.mem_append.mp hf with hf | hf
    · have hline := h.line
      cases startLine with
      | request method path =>
        obtain rfl : isClient = true := hline.1
        simp only [StartLine.pseudoHeaders, List.mem_cons, List.not_mem_nil, or_false] at hf
        rcases hf with rfl | rfl | rfl <;> dsimp only <;> decide
      | response code =>
        obtain rfl : isClient = false := hline
        obtain rfl := List.mem_singleton.mp hf
        dsimp only
        decide
    · rw [h.regular hf] at hpseudo
      cases hpseudo
  once := by
    have hregular : (headers.withoutConnection.fields.map (·.1)).filter isPseudo = [] := by
      refine List.filter_eq_nil_iff.mpr fun k hk => ?_
      obtain ⟨f, hf, rfl⟩ := List.mem_map.mp hk
      simp [h.regular hf]
    rw [sentFields, List.map_append, List.filter_append, hregular, List.append_nil]
    cases startLine with
    | request method path =>
      rw [StartLine.pseudoHeaders, List.map_cons, List.map_cons, List.map_cons, List.map_nil]
      dsimp only
      decide
    | response code =>
      rw [StartLine.pseudoHeaders, List.map_cons, List.map_nil]
      dsimp only
      decide
  first := by
    refine List.pairwise_append.mpr ⟨?_, ?_, fun f hf _ _ _ => (pseudo hf).1⟩
    · exact List.Pairwise.imp_of_mem (fun hf _ _ _ => (pseudo hf).1) (List.pairwise_of_forall fun _ _ => trivial)
    · refine List.Pairwise.imp_of_mem (fun _ hg _ hpseudo => ?_) (List.pairwise_of_forall fun _ _ => trivial)
      rw [h.regular hg] at hpseudo
      cases hpseudo

theorem wellFormed (h : Sendable isClient startLine headers) :
    WellFormedHeaders u (!isClient) (sentFields startLine headers) where
  ordered := h.ordered
  present hserver k hk := by
    have hline := h.line
    cases startLine with
    | request method path =>
      rw [sentFields, List.map_append]
      exact List.mem_append_left _ hk
    | response code =>
      obtain rfl : isClient = false := hline
      cases hserver
  connection := by
    have hnone : headers.withoutConnection.optional.asList.lookup (ascii "Connection") = none := by
      refine List.lookup_eq_none_iff.mpr fun e he => ?_
      obtain ⟨e, hmem, rfl⟩ := List.mem_map.mp he
      have hne : e.1 ≠ ascii "Connection" := of_decide_eq_true (List.mem_filter.mp hmem).2
      exact bne_iff_ne.mpr hne.symm
    rw [← h.ofFields_sent (u := u), HTTPHeaders.ofFields_lookup] at hnone
    by_contra hne
    rw [if_neg hne] at hnone
    cases hnone
  te := by
    have hvalues : valuesOf u (messageFields (sentFields startLine headers)) (ascii "Te") =
        (headers.values (ascii "te")).getD [] := h.valuesOf_sent (ascii "te") (by decide)
    rw [combined, hvalues]
    rcases h.te with hte | hte
    · exact .inl (by rw [hte]; rfl)
    · exact .inr (by rw [hte]; decide)

theorem decimalLength (h : Sendable isClient startLine headers) : DecimalLength u (sentFields startLine headers) := by
  have hvalues : valuesOf u (messageFields (sentFields startLine headers)) (ascii "Content-Length") =
      (headers.values (ascii "content-length")).getD [] := h.valuesOf_sent (ascii "content-length") (by decide)
  rw [DecimalLength, hvalues]
  rcases h.length with hlength | ⟨v, hlength, hne, hdigits⟩
  · exact .inl (by rw [hlength]; rfl)
  · exact .inr ⟨v, by rw [hlength]; rfl, hne, hdigits⟩

theorem isText_of_ascii {s : Bytes} (h : isAscii s = true) : IsText (some s) := by
  rintro _ ⟨⟩
  induction s with
  | nil => rfl
  | cons c s ih =>
    obtain ⟨hc, hs⟩ := Bool.and_eq_true_iff.mp (List.all_cons.symm.trans h)
    rw [decodesFrom, if_pos (of_decide_eq_true hc)]
    exact ih hs

theorem toString_ascii (n : Int) : isAscii (ascii (toString n)) = true := by
  cases n with
  | ofNat n => exact isAscii_of_digits (digits_repr n).2
  | negSucc n =>
    rw [ascii_negSucc]
    exact isAscii_of_digits (s := ascii (n + 1).repr) (digits_repr (n + 1)).2

/-- All names and values are strings at the other end. -/
theorem text (h : Sendable isClient startLine headers) :
    ∀ f ∈ sentFields startLine headers, IsText (some f.1) ∧ IsText (some f.2) := by
  intro f hf
  rcases List.mem_append.mp hf with hf | hf
  · have hline := h.line
    cases startLine with
    | request method path =>
      simp only [StartLine.pseudoHeaders, List.mem_cons, List.not_mem_nil, or_false] at hf
      rcases hf with rfl | rfl | rfl
      · exact ⟨isText_of_ascii rfl, hline.2.1⟩
      · exact ⟨isText_of_ascii rfl, isText_of_ascii rfl⟩
      · exact ⟨isText_of_ascii rfl, hline.2.2⟩
    | response code =>
      obtain rfl := List.mem_singleton.mp hf
      exact ⟨isText_of_ascii rfl, isText_of_ascii (toString_ascii code)⟩
  · obtain ⟨e, he, hv, -, hname⟩ := of_mem_fields hf
    rw [hname]
    exact ⟨isText_of_ascii (lower_ascii (h.multimap.isAscii e he)), h.values e he _ hv⟩

/-- The peer reads the start line that was written. -/
theorem hasStartLine (h : Sendable isClient startLine headers) :
    (parsedFields u (sentFields startLine headers)).HasStartLine (!isClient) startLine.optional := by
  have hpseudo : (sentFields startLine headers).filter (fun f => isPseudo f.1) = startLine.pseudoHeaders := by
    have hregular : headers.withoutConnection.fields.filter (fun f => isPseudo f.1) = [] :=
      List.filter_eq_nil_iff.mpr fun f hf => by simp [h.regular hf]
    rw [sentFields, List.filter_append, hregular, List.append_nil]
    exact List.filter_eq_self.mpr fun f hf => (pseudo hf).1
  have hline := h.line
  cases startLine with
  | request method path =>
    obtain ⟨rfl, -, -⟩ := hline
    refine ⟨rfl, ?_, ?_⟩ <;> rw [parsedFields, hpseudo] <;> rfl
  | response code =>
    obtain rfl : isClient = false := hline
    refine ⟨rfl, ?_⟩
    have hlookup : pseudoHeader (parsedFields u (sentFields (.response code) headers)) (ascii ":status") =
        .ok (some (ascii (toString code))) := by
      rw [pseudoHeader, parsedFields, hpseudo]
      rfl
    rw [statusCode, hlookup]
    exact int_toString code

end Sendable

end TornadoHttp2
