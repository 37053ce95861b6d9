import TornadoHttp2.ErrorMessages

/-! Header fields that `_parse_headers` can take in. A field that it refuses is
answered with a stream error; one that it can neither refuse nor take in raises
whatever the conversion raises. -/

namespace TornadoHttp2

open Prog Ctx

/-- A value that `native_str` takes. -/
def IsText (v : Option Bytes) : Prop := ∀ s, v = some s → decodesFrom 0 0 0 s = true

instance : (v : Option Bytes) → Decidable (IsText v)
  | none => isTrue fun _ h => by cases h
  | some s => decidable_of_iff (decodesFrom 0 0 0 s = true) ⟨fun h _ hs => Option.some.inj hs ▸ h, fun h => h s rfl⟩

theorem nativeStr_of_text {v : Option Bytes} (h : IsText v) : nativeStr v = .ok v := by
  cases v with
  | none => rfl
  | some s => rw [nativeStr, if_pos (h s rfl)]

theorem nativeStr_of_not_text {v : Option Bytes} (h : ¬ IsText v) : nativeStr v = .error .unicodeDecodeError := by
  cases v with
  | none => exact absurd (fun s hs => by cases hs) h
  | some s => rw [nativeStr, if_neg fun hs => h fun s' hs' => by cases hs'; exact hs]

/-- A value that can be added to those of the same name: `None` cannot be joined. -/
def HTTPHeaders.Takes (u : Unicode) (h : HTTPHeaders (Option Bytes)) (name : Bytes)
    (value : Option Bytes) : Prop :=
  ∀ vs, h.asList.lookup (u.normalized name) = some vs →
    vs.all Option.isSome = true ∧ value.isSome = true

section

variable {u : Unicode} {h : HTTPHeaders (Option Bytes)} {name : Bytes} {value : Option Bytes}

theorem HTTPHeaders.add_of_takes (ht : h.Takes u name value) : ∃ h', h.add u name value = .ok h' := by
  cases hvalues : h.asList.lookup (u.normalized name) with
  | none => exact ⟨⟨h.asList ++ [(u.normalized name, [value])]⟩, by simp only [add, hvalues]⟩
  | some vs =>
    refine ⟨⟨h.asList.map fun e => if e.1 = u.normalized name then (e.1, e.2 ++ [value]) else e⟩, ?_⟩
    simp only [add, hvalues, if_pos (ht vs hvalues)]

theorem HTTPHeaders.add_of_not_takes (ht : ¬ h.Takes u name value) :
    h.add u name value = .error .typeError := by
  obtain ⟨vs, hvalues, hnone⟩ : ∃ vs, h.asList.lookup (u.normalized name) = some vs ∧
      ¬ (vs.all Option.isSome = true ∧ value.isSome = true) := by
    simpa [Takes] using ht
  simp only [add, hvalues, if_neg hnone]

end

/-- A content length that `int` takes, if there is one. -/
def HTTPHeaders.HasLength (h : HTTPHeaders (Option Bytes)) : Prop :=
  h.contains (ascii "content-length") = true → ∃ n, h.getInt (ascii "content-length") = .ok n

namespace Stream

/-- The fields that `_parse_headers` refuses with a stream error. -/
def ParsedHeaders.Refuses (isClient : Bool) (p : ParsedHeaders) (k : Bytes) : Prop :=
  k ≠ lower k ∨ (ascii ":").isPrefixOf k = true ∧
    (p.hasRegularHeader = true ∨ k ∉ validPseudoHeaders isClient ∨ (p.pseudoHeaders.lookup k).isSome = true)

/-- The fields that it can take in after those of `p`. -/
structure ParsedHeaders.Reads (u : Unicode) (p : ParsedHeaders) (k : Bytes) (v : Option Bytes) :
    Prop where
  value : IsText v
  pseudo : k = ascii ":authority" → p.headers.Takes u (ascii "Host") v
  regular : (ascii ":").isPrefixOf k = false → IsText (some k) ∧ p.headers.Takes u k v

section

variable {u : Unicode} {isClient : Bool} {i : Nat} {p : ParsedHeaders} {k : Bytes} {v : Option Bytes}
  {mode : HeaderIndexMode}

theorem addHeader_refused (h : p.Refuses isClient k) :
    addHeader u isClient i p (k, v, mode) = .error (.streamError i .protocolError) := by
  rcases h with hlower | ⟨hpseudo, hinvalid⟩
  · simp only [addHeader, if_pos hlower]
  · rw [addHeader, addPseudoHeader, if_pos hpseudo, if_pos hinvalid]
    split <;> rfl

theorem addHeader_read (hrefuses : ¬ p.Refuses isClient k) (h : p.Reads u k v) :
    ∃ p', addHeader u isClient i p (k, v, mode) = .ok p' := by
  obtain ⟨hlower, hpseudo⟩ := not_or.mp hrefuses
  by_cases hcolon : (ascii ":").isPrefixOf k = true
  · have hvalid := (not_and.mp hpseudo) hcolon
    rw [addHeader, if_neg hlower, if_pos hcolon, addPseudoHeader, if_neg hvalid, nativeStr_of_text h.value]
    dsimp only [bind, Except.bind]
    by_cases hauthority : k = ascii ":authority"
    · obtain ⟨headers, hadd⟩ := HTTPHeaders.add_of_takes (h.pseudo hauthority)
      rw [if_pos hauthority, hadd]
      exact ⟨_, rfl⟩
    · rw [if_neg hauthority]
      exact ⟨_, rfl⟩
  · obtain ⟨hname, htakes⟩ := h.regular (Bool.eq_false_iff.mpr hcolon)
    obtain ⟨headers, hadd⟩ := HTTPHeaders.add_of_takes htakes
    rw [addHeader, if_neg hlower, if_neg hcolon, addRegularHeader, nativeStr_of_text hname,
      nativeStr_of_text h.value]
    dsimp only [bind, Except.bind]
    rw [hadd]
    exact ⟨_, rfl⟩

theorem addHeader_unread (hrefuses : ¬ p.Refuses isClient k) (h : ¬ p.Reads u k v) :
    ∃ e, addHeader u isClient i p (k, v, mode) = .error e ∧ e.isLocal := by
  obtain ⟨hlower, hpseudo⟩ := not_or.mp hrefuses
  by_cases hcolon : (ascii ":").isPrefixOf k = true
  · have hvalid := (not_and.mp hpseudo) hcolon
    rw [addHeader, if_neg hlower, if_pos hcolon, addPseudoHeader, if_neg hvalid]
    by_cases htext : IsText v
    · have hauthority : k = ascii ":authority" ∧ ¬ p.headers.Takes u (ascii "Host") v := by
        by_contra hne
        exact h ⟨htext, fun hk => by_contra fun ht => hne ⟨hk, ht⟩, fun hregular => by simp [hcolon] at hregular⟩
      rw [nativeStr_of_text htext]
      dsimp only [bind, Except.bind]
      rw [if_pos hauthority.1, HTTPHeaders.add_of_not_takes hauthority.2]
      exact ⟨_, rfl, trivial⟩
    · rw [nativeStr_of_not_text htext]
      exact ⟨_, rfl, trivial⟩
  · rw [addHeader, if_neg hlower, if_neg hcolon, addRegularHeader]
    by_cases hname : IsText (some k)
    · by_cases htext : IsText v
      · have htakes : ¬ p.headers.Takes u k v := fun ht =>
          h ⟨htext, fun hk => absurd (by rw [hk]; decide) hcolon, fun _ => ⟨hname, ht⟩⟩
        rw [nativeStr_of_text hname, nativeStr_of_text htext]
        dsimp only [bind, Except.bind]
        rw [HTTPHeaders.add_of_not_takes htakes]
        exact ⟨_, rfl, trivial⟩
      · rw [nativeStr_of_text hname, nativeStr_of_not_text htext]
        exact ⟨_, rfl, trivial⟩
    · rw [nativeStr_of_not_text hname]
      exact ⟨_, rfl, trivial⟩

end

/-- Wherever the fields before it can be taken in, a field is refused or taken in. -/
def Readable (u : Unicode) (isClient : Bool) (i : Nat) (p : ParsedHeaders)
    (headers : List (Bytes × Option Bytes × HeaderIndexMode)) : Prop :=
  ∀ before k v mode after p', headers = before ++ (k, v, mode) :: after →
    addHeaders u isClient i p before = .ok p' → p'.Refuses isClient k ∨ p'.Reads u k v

section

variable {u : Unicode} {isClient : Bool} {i : Nat} {p : ParsedHeaders}
  {headers : List (Bytes × Option Bytes × HeaderIndexMode)}

theorem addHeaders_cons {p' : ParsedHeaders} {header : Bytes × Option Bytes × HeaderIndexMode}
    (h : addHeader u isClient i p header = .ok p') :
    addHeaders u isClient i p (header :: headers) = addHeaders u isClient i p' headers := by
  rw [addHeaders, h]

theorem readable_cons {k : Bytes} {v : Option Bytes} {mode : HeaderIndexMode} :
    Readable u isClient i p ((k, v, mode) :: headers) ↔ (p.Refuses isClient k ∨ p.Reads u k v) ∧
      ∀ p', addHeader u isClient i p (k, v, mode) = .ok p' → Readable u isClient i p' headers := by
  constructor
  · intro h
    refine ⟨h [] k v mode headers p rfl rfl, fun p' hp' before k' v' mode' after p'' hsplit hbefore => ?_⟩
    refine h ((k, v, mode) :: before) k' v' mode' after p'' (by rw [hsplit, List.cons_append]) ?_
    rw [addHeaders_cons hp', hbefore]
  · rintro ⟨hfirst, hrest⟩ before k' v' mode' after p'' hsplit hbefore
    cases before with
    | nil =>
      cases hsplit
      cases hbefore
      exact hfirst
    | cons header before =>
      cases hsplit
      cases hheader : addHeader u isClient i p (k, v, mode) with
      | error e => simp [addHeaders, hheader] at hbefore
      | ok p' =>
        rw [addHeaders_cons hheader] at hbefore
        exact hrest p' hheader before k' v' mode' after p'' rfl hbefore

/-- The header loop raises nothing but a stream error exactly on readable fields. -/
theorem readable_iff : Readable u isClient i p headers ↔
    ∀ e, addHeaders u isClient i p headers = .error e → ¬ e.isLocal := by
  induction headers generalizing p with
  | nil => exact ⟨fun _ e h => by simp [addHeaders] at h, fun _ before k v mode after p' h => by simp at h⟩
  | cons header rest ih =>
    obtain ⟨k, v, mode⟩ := header
    rw [readable_cons]
    by_cases hrefuses : p.Refuses isClient k
    · have hheader := @addHeader_refused u isClient i p k v mode hrefuses
      simp [addHeaders, hheader, hrefuses, PyException.isLocal]
    · by_cases hreads : p.Reads u k v
      · obtain ⟨p', hheader⟩ := @addHeader_read u isClient i p k v mode hrefuses hreads
        rw [addHeaders_cons hheader, ← ih]
        simp [hreads, hheader]
      · obtain ⟨e, hheader, hlocal⟩ := @addHeader_unread u isClient i p k v mode hrefuses hreads
        simp [addHeaders, hheader, hrefuses, hreads, hlocal]

end

/-- The checks of `_start_request` that end in an answer. -/
def ParsedHeaders.IsInvalid (isClient : Bool) (p : ParsedHeaders) : Prop :=
  p.headers.contains (ascii "connection") = true ∨
  (p.headers.contains (ascii "te") && p.headers.get (ascii "te") != .ok (some (ascii "trailers"))) = true ∨
  isClient = false ∧ [ascii ":method", ascii ":scheme", ascii ":path"].any
    (fun k => (p.pseudoHeaders.lookup k).isNone) = true

/-- The content of a message can be counted: a response belongs to a request that
has been written, and a length that counts is a number. -/
def Countable (c : Ctx) (startLine : StartLine (Option Bytes)) (headers : HTTPHeaders (Option Bytes)) : Prop :=
  match startLine with
  | .request _ _ => headers.HasLength
  | .response code => ∃ method path, c.self.requestStartLine = some (method, path) ∧
    (method = some (ascii "HEAD") ∨ code = 304 ∨ headers.HasLength)

/-- The end of `_parse_headers`. -/
def endBlock (frame : Frame) : OnStream Unit := do
  let ended ← maybeEndStream frame
  let c ← get
  check (ended = false ∧ c.self.phase = .trailers) (.streamError c.self.streamId .protocolError)

/-- `_parse_headers` from the decoded fields on. -/
def takeFields (frame : Frame) (headers : List (Bytes × Option Bytes × HeaderIndexMode)) : OnStream Unit := do
  let c ← get
  let p ← ofExcept (addHeaders c.conn.params.unicode c.conn.isClient c.self.streamId
    ⟨[], .empty, c.self.phase = .trailers⟩ headers)
  when (c.self.phase = .headers) (startRequest p)
  endBlock frame

theorem parseBlock_eq {frame : Frame} {data : Bytes} : parseBlock frame data =
    stripPriority frame data >>= fun data => decodeHeaders data >>= takeFields frame := rfl

end Stream

end TornadoHttp2
