import TornadoHttp2.Endpoint

/-! Which protocol a server speaks on a stream that it has accepted. TLS decides by
ALPN. In cleartext the first header block decides: tornado takes it out of the
buffer, and it is put back, so that whoever takes over finds every byte. -/

namespace TornadoHttp2

/-- `b'PRI * HTTP/2.0\r\n\r\n'`. -/
def priorKnowledge : Bytes := ascii "PRI * HTTP/2.0\r\n\r\n"

/-- How far `stream.read_until_regex(b'\r?\n\r?\n', max_bytes)` is. -/
inductive HeaderRead
  | waiting
  | result (headerData : Bytes)
  | unsatisfiable
  deriving DecidableEq, Repr

/-- `\r?\n\r?\n` matches the last bytes. -/
def EndsHeader (data : Bytes) : Prop := [0x0a, 0x0a] <:+ data ∨ [0x0a, 0x0d, 0x0a] <:+ data

instance (data : Bytes) : Decidable (EndsHeader data) := inferInstanceAs (Decidable (_ ∨ _))

/-- Everything up to the end of the first match. -/
structure FirstMatch (data buffer : Bytes) : Prop where
  front : data <+: buffer
  ends : EndsHeader data
  first {shorter : Bytes} : shorter <+: data → EndsHeader shorter → shorter = data

/-- What tornado promises of `read_until_regex`: the result is what comes before the
first match and the match, and no more than `max_bytes` are read in vain. -/
structure ReadsHeader (readUntilRegex : Nat → Bytes → HeaderRead) : Prop where
  result {maxBytes : Nat} {buffer data : Bytes} :
    readUntilRegex maxBytes buffer = .result data ↔ FirstMatch data buffer ∧ data.length ≤ maxBytes
  unsatisfiable {maxBytes : Nat} {buffer : Bytes} : readUntilRegex maxBytes buffer = .unsatisfiable ↔
    maxBytes < buffer.length ∧ ∀ data, FirstMatch data buffer → maxBytes < data.length

/-- Who has the stream: `_read_first_line`, which waits or is to be resumed, or the
connection that it has started. -/
inductive ServerStream
  | firstLine (buffer : Bytes)
  | headerRead (headerData buffer : Bytes)
  | http1 (buffer : Bytes)
  | http2 (endpoint : Endpoint)
  | dropped

namespace ServerStream

inductive Action
  | arrive (chunk : Bytes)
  | resume
  /-- The header timeout is over, or the peer is gone. -/
  | giveUp
  | serve (action : Endpoint.Action)
  deriving DecidableEq, Repr

/-- `_start_http2`, with what is in the buffer. -/
def startHttp2 (params : Params) (buffer : Bytes) : ServerStream := http2 { Endpoint.start false params with buffer }

section

variable (readUntilRegex : Nat → Bytes → HeaderRead) (params : Params) (maxBytes : Nat)

/-- The read takes its result out of the buffer as soon as it is there. -/
def readHeader (buffer : Bytes) : ServerStream :=
  match readUntilRegex maxBytes buffer with
  | .waiting => firstLine buffer
  | .result headerData => headerRead headerData (buffer.drop headerData.length)
  | .unsatisfiable => dropped

def step : ServerStream → Action → ServerStream
  | firstLine buffer, .arrive chunk => readHeader readUntilRegex maxBytes (buffer ++ chunk)
  | firstLine _, .giveUp => dropped
  | headerRead headerData buffer, .arrive chunk => headerRead headerData (buffer ++ chunk)
  | headerRead headerData buffer, .resume =>
    let buffer := headerData ++ buffer
    if headerData = priorKnowledge then startHttp2 params buffer else http1 buffer
  | http1 buffer, .arrive chunk => http1 (buffer ++ chunk)
  | http2 endpoint, .arrive chunk => http2 (endpoint.step (.arrive chunk))
  | http2 endpoint, .serve (.read later) => http2 (endpoint.step (.read later))
  | http2 endpoint, .serve (.call a) => http2 (endpoint.step (.call a))
  | stream, _ => stream

def run (stream : ServerStream) (actions : List Action) : ServerStream :=
  actions.foldl (step readUntilRegex params maxBytes) stream

end

/-- `_handle_handshake`: `alpn` is `none` for a stream without TLS, else the protocol
that was selected, if any. Only `CleartextHTTP2Server` looks at the first line. -/
def handleHandshake (params : Params) (cleartext : Bool) (alpn : Option (Option String)) : ServerStream :=
  if alpn = some (some "h2") then startHttp2 params []
  else if cleartext then firstLine []
  else http1 []

def Action.bytes : Action → Bytes
  | .arrive chunk => chunk
  | _ => []

def arrived (actions : List Action) : Bytes := actions.flatMap Action.bytes

end ServerStream

section

variable {data buffer more : Bytes}

theorem EndsHeader.ne_nil (h : EndsHeader data) : data ≠ [] := by
  rintro rfl
  revert h
  decide

theorem FirstMatch.append (h : FirstMatch data buffer) : FirstMatch data (buffer ++ more) :=
  ⟨h.front.trans (List.prefix_append ..), h.ends, h.first⟩

/-- A match within some bytes does not need those that follow. -/
theorem FirstMatch.of_append (h : FirstMatch data (buffer ++ more)) (hlength : data.length ≤ buffer.length) :
    FirstMatch data buffer :=
  ⟨List.prefix_of_prefix_length_le h.front (List.prefix_append ..) hlength, h.ends, h.first⟩

theorem firstMatch_priorKnowledge : FirstMatch priorKnowledge priorKnowledge where
  front := List.prefix_refl _
  ends := by decide
  first hshorter hends := by
    have hfirst : ∀ n ≤ priorKnowledge.length, EndsHeader (priorKnowledge.take n) →
        priorKnowledge.take n = priorKnowledge := by
      decide
    rw [List.prefix_iff_eq_take.mp hshorter] at hends ⊢
    exact hfirst _ hshorter.length_le hends

namespace ReadsHeader

variable {readUntilRegex : Nat → Bytes → HeaderRead} {maxBytes : Nat}

/-- What has been found stays the same whatever follows. -/
theorem result_append (h : ReadsHeader readUntilRegex) (hresult : readUntilRegex maxBytes buffer = .result data) :
    readUntilRegex maxBytes (buffer ++ more) = .result data := by
  obtain ⟨hmatch, hlength⟩ := h.result.mp hresult
  exact h.result.mpr ⟨hmatch.append, hlength⟩

theorem unsatisfiable_append (h : ReadsHeader readUntilRegex)
    (hfails : readUntilRegex maxBytes buffer = .unsatisfiable) :
    readUntilRegex maxBytes (buffer ++ more) = .unsatisfiable := by
  obtain ⟨hlong, hmatches⟩ := h.unsatisfiable.mp hfails
  refine h.unsatisfiable.mpr ⟨?_, fun data hdata => ?_⟩
  · rw [List.length_append]
    omega
  · by_contra hshort
    exact hshort (hmatches data (hdata.of_append (by omega)))

theorem nil (h : ReadsHeader readUntilRegex) : readUntilRegex maxBytes [] = .waiting := by
  cases hread : readUntilRegex maxBytes [] with
  | waiting => rfl
  | result data =>
    have hmatch := (h.result.mp hread).1
    exact absurd (List.prefix_nil.mp hmatch.front) hmatch.ends.ne_nil
  | unsatisfiable => exact absurd (h.unsatisfiable.mp hread).1 (Nat.not_lt_zero _)

theorem priorKnowledge_iff (h : ReadsHeader readUntilRegex) : readUntilRegex maxBytes buffer = .result priorKnowledge ↔
    priorKnowledge <+: buffer ∧ priorKnowledge.length ≤ maxBytes := by
  rw [h.result]
  refine and_congr_left fun _ => ⟨FirstMatch.front, ?_⟩
  rintro ⟨more, rfl⟩
  exact firstMatch_priorKnowledge.append

end ReadsHeader

end

namespace ServerStream

variable {readUntilRegex : Nat → Bytes → HeaderRead} {params : Params}
    {maxBytes : Nat} {stream : ServerStream} {bytes : Bytes}

/-- The stream is with HTTP/2, which gets all of the bytes. -/
def IsHttp2 (params : Params) (bytes : Bytes) (stream : ServerStream) : Prop :=
  ∃ actions, Endpoint.arrived actions = bytes ∧ stream = http2 ((Endpoint.start false params).run actions)

/-- What has become of a stream whose first line decides, if nobody gives up. -/
def Follows (readUntilRegex : Nat → Bytes → HeaderRead) (params : Params) (maxBytes : Nat) (bytes : Bytes)
    (stream : ServerStream) : Prop :=
  match readUntilRegex maxBytes bytes with
  | .waiting => stream = firstLine bytes
  | .unsatisfiable => stream = dropped
  | .result headerData => if headerData = priorKnowledge then IsHttp2 params bytes stream else stream = http1 bytes

/-- The header block is out of the buffer, and `_read_first_line` is to be resumed. -/
def HasHeader (readUntilRegex : Nat → Bytes → HeaderRead)
    (maxBytes : Nat) (bytes : Bytes) (stream : ServerStream) : Prop :=
  ∃ headerData rest, stream = headerRead headerData rest ∧ bytes = headerData ++ rest ∧
    readUntilRegex maxBytes bytes = .result headerData

theorem startHttp2_isHttp2 (params : Params) (bytes : Bytes) : IsHttp2 params bytes (startHttp2 params bytes) :=
  ⟨[.arrive bytes], by simp [Endpoint.arrived, Endpoint.Action.bytes], rfl⟩

theorem IsHttp2.step (h : IsHttp2 params bytes stream) (readUntilRegex : Nat → Bytes → HeaderRead) (maxBytes : Nat)
    (a : Action) : IsHttp2 params (bytes ++ a.bytes) (stream.step readUntilRegex params maxBytes a) := by
  obtain ⟨actions, rfl, rfl⟩ := h
  have hsnoc (b : Endpoint.Action) (hb : b.bytes = a.bytes) : IsHttp2 params (Endpoint.arrived actions ++ a.bytes)
      (http2 (((Endpoint.start false params).run actions).step b)) :=
    ⟨actions ++ [b], by simp [Endpoint.arrived, hb], by simp [Endpoint.run]⟩
  have hsame (ha : a.bytes = []) : IsHttp2 params (Endpoint.arrived actions ++ a.bytes)
      (http2 ((Endpoint.start false params).run actions)) := ⟨actions, by rw [ha, List.append_nil], rfl⟩
  cases a with
  | arrive chunk => exact hsnoc (.arrive chunk) rfl
  | resume => exact hsame rfl
  | giveUp => exact hsame rfl
  | serve b =>
    cases b with
    | arrive chunk => exact hsame rfl
    | read later => exact hsnoc (.read later) rfl
    | call a => exact hsnoc (.call a) rfl

/-- The read stands as the bytes say. -/
theorem readHeader_cases (h : ReadsHeader readUntilRegex) (params : Params) (maxBytes : Nat) (bytes : Bytes) :
    Follows readUntilRegex params maxBytes bytes (readHeader readUntilRegex maxBytes bytes) ∨
      HasHeader readUntilRegex maxBytes bytes (readHeader readUntilRegex maxBytes bytes) := by
  rw [readHeader, Follows]
  cases hread : readUntilRegex maxBytes bytes with
  | waiting => exact .inl rfl
  | unsatisfiable => exact .inl rfl
  | result headerData =>
    obtain ⟨rest, rfl⟩ := (h.result.mp hread).1.front
    exact .inr ⟨headerData, rest, by simp, rfl, hread⟩

/-- The header block is put back in front of what has come since. -/
theorem HasHeader.resume (h : HasHeader readUntilRegex maxBytes bytes stream) (params : Params) :
    Follows readUntilRegex params maxBytes bytes (stream.step readUntilRegex params maxBytes .resume) := by
  obtain ⟨headerData, rest, rfl, rfl, hread⟩ := h
  rw [Follows, hread, ServerStream.step]
  dsimp only
  split
  · exact startHttp2_isHttp2 params _
  · rfl

theorem HasHeader.arrive (h : HasHeader readUntilRegex maxBytes bytes stream) (hreads : ReadsHeader readUntilRegex)
    (params : Params) (chunk : Bytes) :
    HasHeader readUntilRegex maxBytes (bytes ++ chunk)
      (stream.step readUntilRegex params maxBytes (.arrive chunk)) := by
  obtain ⟨headerData, rest, rfl, rfl, hread⟩ := h
  exact ⟨headerData, rest ++ chunk, rfl, List.append_assoc .., hreads.result_append hread⟩

/-- Only a stream that waits for its first line changes with the bytes. -/
theorem Follows.step (h : Follows readUntilRegex params maxBytes bytes stream) (hreads : ReadsHeader readUntilRegex)
    {a : Action} (ha : a ≠ .giveUp) :
    Follows readUntilRegex params maxBytes (bytes ++ a.bytes) (stream.step readUntilRegex params maxBytes a) ∨
      HasHeader readUntilRegex maxBytes (bytes ++ a.bytes) (stream.step readUntilRegex params maxBytes a) := by
  rw [Follows] at h
  cases hread : readUntilRegex maxBytes bytes with
  | waiting =>
    rw [hread] at h
    obtain rfl : stream = firstLine bytes := h
    have hsame : Follows readUntilRegex params maxBytes (bytes ++ []) (firstLine bytes) := by
      rw [List.append_nil, Follows, hread]
    cases a with
    | arrive chunk => exact readHeader_cases hreads params maxBytes (bytes ++ chunk)
    | resume => exact .inl hsame
    | giveUp => exact absurd rfl ha
    | serve => exact .inl hsame
  | unsatisfiable =>
    rw [hread] at h
    obtain rfl : stream = dropped := h
    refine .inl ?_
    rw [Follows, hreads.unsatisfiable_append hread]
    cases a <;> rfl
  | result headerData =>
    rw [hread] at h
    refine .inl ?_
    rw [Follows, hreads.result_append hread]
    dsimp only at h ⊢
    split at h
    · rw [if_pos ‹_›]
      exact h.step readUntilRegex maxBytes a
    · rw [if_neg ‹_›]
      subst h
      cases a <;> simp [ServerStream.step, Action.bytes]

/-- Nothing is left to resume. -/
theorem Follows.resume (h : Follows readUntilRegex params maxBytes bytes stream) :
    stream.step readUntilRegex params maxBytes .resume = stream := by
  rw [Follows] at h
  cases hread : readUntilRegex maxBytes bytes with
  | waiting =>
    rw [hread] at h
    subst h
    rfl
  | unsatisfiable =>
    rw [hread] at h
    subst h
    rfl
  | result headerData =>
    rw [hread] at h
    dsimp only at h
    split at h
    · obtain ⟨_, -, rfl⟩ := h
      rfl
    · subst h
      rfl

theorem run_cases (hreads : ReadsHeader readUntilRegex) (params : Params) (maxBytes : Nat) {actions : List Action}
    (h : .giveUp ∉ actions) :
    Follows readUntilRegex params maxBytes (arrived actions)
      ((firstLine []).run readUntilRegex params maxBytes actions) ∨
      HasHeader readUntilRegex maxBytes (arrived actions)
        ((firstLine []).run readUntilRegex params maxBytes actions) := by
  induction actions using List.reverseRecOn with
  | nil =>
    refine .inl ?_
    rw [Follows, show arrived [] = [] from rfl, hreads.nil]
    rfl
  | append_singleton actions a ih =>
    have hrun : (firstLine []).run readUntilRegex params maxBytes (actions ++ [a]) =
        ((firstLine []).run readUntilRegex params maxBytes actions).step readUntilRegex params maxBytes a :=
          List.foldl_concat ..
    have harrived : arrived (actions ++ [a]) = arrived actions ++ a.bytes := by simp [arrived]
    have ha : a ≠ .giveUp := by
      rintro rfl
      exact h (List.mem_append_right _ (List.mem_singleton_self _))
    rw [hrun, harrived]
    rcases ih fun hmem => h (List.mem_append_left _ hmem) with hfollows | hheader
    · exact hfollows.step hreads ha
    · have hresumed := hheader.resume params
      cases a with
      | arrive chunk => exact .inr (hheader.arrive hreads params chunk)
      | resume => exact .inl ((List.append_nil _).symm ▸ hresumed)
      | giveUp => exact absurd rfl ha
      | serve =>
        refine .inr ?_
        rw [show (Action.serve _).bytes = [] from rfl, List.append_nil]
        obtain ⟨headerData, rest, heq, -⟩ := id hheader
        rw [heq] at hheader ⊢
        exact hheader

theorem Follows.isHttp2_iff (h : Follows readUntilRegex params maxBytes bytes stream) :
    IsHttp2 params bytes stream ↔ readUntilRegex maxBytes bytes = .result priorKnowledge := by
  rw [Follows] at h
  cases hread : readUntilRegex maxBytes bytes with
  | waiting =>
    rw [hread] at h
    subst h
    exact iff_of_false (fun ⟨_, _, heq⟩ => by cases heq) nofun
  | unsatisfiable =>
    rw [hread] at h
    subst h
    exact iff_of_false (fun ⟨_, _, heq⟩ => by cases heq) nofun
  | result headerData =>
    rw [hread] at h
    dsimp only at h
    split at h
    · rename_i heq
      exact iff_of_true h (congrArg _ heq)
    · rename_i hne
      subst h
      exact iff_of_false (fun ⟨_, _, heq⟩ => by cases heq) fun heq => hne (HeaderRead.result.inj heq)

/-- However the bytes of a cleartext stream arrive, they alone say what has become of
it once the read of its first line is resumed; whoever has it then has got all of
them, and that is HTTP/2 exactly if they begin with the first line of its preface. -/
theorem protocol_of_bytes (hreads : ReadsHeader readUntilRegex) (params : Params) (maxBytes : Nat)
    {alpn : Option (Option String)} {actions : List Action} (halpn : alpn ≠ some (some "h2")) (h : .giveUp ∉ actions) :
    let stream := (handleHandshake params true alpn).run readUntilRegex params maxBytes (actions ++ [.resume])
    Follows readUntilRegex params maxBytes (arrived actions) stream ∧
      (IsHttp2 params (arrived actions) stream ↔ priorKnowledge <+: arrived actions ∧
        priorKnowledge.length ≤ maxBytes) := by
  intro stream
  have hfollows : Follows readUntilRegex params maxBytes (arrived actions) stream := by
    have hstart : handleHandshake params true alpn = firstLine [] := by rw [handleHandshake, if_neg halpn, if_pos rfl]
    have hrun : stream = ((firstLine []).run readUntilRegex params maxBytes actions).step
        readUntilRegex params maxBytes .resume := by
      rw [← hstart]
      exact List.foldl_concat ..
    rw [hrun]
    rcases run_cases hreads params maxBytes h with hfollows | hheader
    · rwa [hfollows.resume]
    · exact hheader.resume params
  exact ⟨hfollows, hfollows.isHttp2_iff.trans hreads.priorKnowledge_iff⟩

end ServerStream

/-- The shortest piece of the buffer that ends with a match. -/
def searchHeader (buffer : Bytes) : Option Bytes :=
  ((List.range (buffer.length + 1)).find? fun n => EndsHeader (buffer.take n)).map buffer.take

/-- A read that keeps the promises. -/
def readSearched (maxBytes : Nat) (buffer : Bytes) : HeaderRead :=
  match searchHeader buffer with
  | some data => if data.length > maxBytes then .unsatisfiable else .result data
  | none => if buffer.length > maxBytes then .unsatisfiable else .waiting

theorem searchHeader_eq_some {buffer data : Bytes} : searchHeader buffer = some data ↔ FirstMatch data buffer := by
  simp only [searchHeader, Option.map_eq_some_iff, List.find?_range_eq_some, List.mem_range, Bool.not_eq_true',
    decide_eq_false_iff_not, decide_eq_true_eq]
  constructor
  · rintro ⟨n, ⟨hends, -, hfirst⟩, rfl⟩
    refine ⟨List.take_prefix .., hends, fun {shorter} hshorter hends' => ?_⟩
    have heq := List.prefix_iff_eq_take.mp (hshorter.trans (List.take_prefix n buffer))
    rw [heq] at hends'
    have hn : n ≤ shorter.length := not_lt.mp fun hlt => hfirst _ hlt hends'
    exact hshorter.eq_of_length_le ((List.length_take_le ..).trans hn)
  · intro h
    have heq := List.prefix_iff_eq_take.mp h.front
    refine ⟨data.length, ⟨heq ▸ h.ends, Nat.lt_succ_of_le h.front.length_le, fun n hn hends => ?_⟩, heq.symm⟩
    have hshorter : buffer.take n <+: data := by
      rw [heq]
      exact List.take_prefix_take_left hn.le
    have hlength := congrArg List.length (h.first hshorter hends)
    rw [List.length_take] at hlength
    omega

theorem readSearched_reads : ReadsHeader readSearched where
  result {maxBytes buffer data} := by
    rw [readSearched, ← searchHeader_eq_some]
    cases searchHeader buffer with
    | none => by_cases hlong : buffer.length > maxBytes <;> simp [hlong]
    | some found =>
      by_cases hlong : found.length > maxBytes
      · simp only [if_pos hlong, reduceCtorEq, Option.some.injEq, false_iff]
        rintro ⟨rfl, hshort⟩
        omega
      · simp only [if_neg hlong, HeaderRead.result.injEq, Option.some.injEq]
        refine ⟨?_, And.left⟩
        rintro rfl
        exact ⟨rfl, not_lt.mp hlong⟩
  unsatisfiable {maxBytes buffer} := by
    simp only [readSearched, ← searchHeader_eq_some]
    cases hfound : searchHeader buffer with
    | none => by_cases hlong : buffer.length > maxBytes <;> simp [hlong]
    | some found =>
      have hlength := (searchHeader_eq_some.mp hfound).front.length_le
      by_cases hlong : found.length > maxBytes
      · simp only [if_pos hlong, Option.some.injEq, forall_eq', true_iff]
        omega
      · simp only [if_neg hlong, reduceCtorEq, Option.some.injEq, forall_eq', false_iff]
        omega

namespace ServerStream

/-- The preface, cut in the middle of a line end, and the first bytes of what follows. -/
def prefaceActions : List Action :=
  [.arrive (clientPreface.take 15), .resume, .arrive (clientPreface.drop 15 ++ [0, 0])]

theorem protocol_of_preface :
    let stream := (handleHandshake (.new none .caseless) true none).run readSearched (.new none .caseless) 65536
      (prefaceActions ++ [.resume])
    arrived prefaceActions = clientPreface ++ [0, 0] ∧ IsHttp2 (.new none .caseless) (arrived prefaceActions) stream :=
  ⟨by decide, (@protocol_of_bytes _ readSearched_reads (.new none .caseless) 65536 none prefaceActions
    (by simp) (by decide)).2.mpr (by decide)⟩

end ServerStream

end TornadoHttp2
