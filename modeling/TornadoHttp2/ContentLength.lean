import TornadoHttp2.Delivery

/-! The length that a request declares and the body that its delegate gets. The
counter `_incoming_content_remaining` is what is left of the declared length, and
once a frame has taken it below zero nothing is delivered any more. -/

namespace TornadoHttp2

open Prog Ctx

def Event.delegateCall : Event → Option DelegateCall
  | called _ call => some call
  | _ => none

/-- The calls of the delegates in a log, in order. -/
def delegateCalls (log : List Event) : List DelegateCall := log.filterMap Event.delegateCall

def DelegateCall.bodyLength : DelegateCall → Nat
  | dataReceived chunk => chunk.length
  | _ => 0

/-- The total length passed to `data_received`. -/
def bodyLength (calls : List DelegateCall) : Nat := (calls.map DelegateCall.bodyLength).sum

/-- The length that headers declare, as `_start_request` reads it. -/
def contentLength (headers : HTTPHeaders (Option Bytes)) : Option Int :=
  if headers.contains (ascii "content-length") then (headers.getInt (ascii "content-length")).toOption else none

/-- A delegate gets no more than the declared length, and exactly this much
before its `finish`. -/
def BodyMatches (calls : List DelegateCall) : Prop :=
  ∀ startLine headers n, .headersReceived startLine headers ∈ calls → contentLength headers = some n →
    (bodyLength calls : Int) ≤ max n 0 ∧
    ∀ before after, calls = before ++ .finish :: after → (bodyLength before : Int) = n

section

variable {log log' : List Event} {calls calls' : List DelegateCall}

theorem bodyLength_append : bodyLength (calls ++ calls') = bodyLength calls + bodyLength calls' := by
  simp [bodyLength]

theorem delegateCalls_append : delegateCalls (log ++ log') = delegateCalls log ++ delegateCalls log' :=
  List.filterMap_append ..

theorem delegateCalls_eq_nil (h : ∀ e ∈ log, e.isCalled = false) : delegateCalls log = [] := by
  refine List.filterMap_eq_nil_iff.mpr fun e he => ?_
  have hcalled := h e he
  cases e with
  | called => cases hcalled
  | _ => rfl

theorem Grows.delegateCalls {i : Nat} (h : Grows (fun e => e.isCalled = false) log log') :
    delegateCalls (logOf i log') = delegateCalls (logOf i log) := by
  obtain ⟨es, rfl, hes⟩ := h
  rw [logOf_append, delegateCalls_append, delegateCalls_eq_nil fun e he => hes e (mem_logOf.mp he).1, List.append_nil]

theorem delegateCalls_noise {e : Event} (h : e.isNoise) : delegateCalls (log ++ [e]) = delegateCalls log := by
  have hcalled : e.isCalled = false := by
    cases e with
    | called => exact h.elim
    | _ => rfl
  rw [delegateCalls_append, delegateCalls_eq_nil (List.forall_mem_singleton.mpr hcalled), List.append_nil]

theorem delegateCalls_opened {i : Nat} {size : Int} (h : ∀ e ∈ log, e.isRefusal) :
    delegateCalls (log ++ [.opened i size]) = [] := by
  have hrefused : ∀ e ∈ log, e.isCalled = false := by
    intro e he
    have hrefusal := h e he
    cases e with
    | called => exact hrefusal.elim
    | _ => rfl
  rw [delegateCalls_append, delegateCalls_eq_nil hrefused]
  rfl

end

/-- The counter `r` of a request that declared `n` bytes and has delivered `d`. -/
def Counts (n : Int) (d : Nat) (r : Int) : Prop := (0 ≤ r → (d : Int) = n - r) ∧ (r < 0 → (d : Int) ≤ max n 0)

/-- The attributes of a stream that its calls depend on. -/
def Stream.account (s : Stream) :=
  (s.streamId, s.hasDelegate, s.delegateStarted, s.phase, s.incomingContentRemaining)

/-- How a stream stands with the calls of its delegate. -/
inductive Account (s : Stream) (calls : List DelegateCall) : Prop
  | absent (hdelegate : s.hasDelegate = false) (hcalls : calls = [])
  | idle (hstarted : s.delegateStarted = false) (hcalls : calls = [])
      (hremaining : s.incomingContentRemaining = none)
  | opened {startLine : StartLine (Option Bytes)} {headers : HTTPHeaders (Option Bytes)} {body : List DelegateCall}
      (hdelegate : s.hasDelegate = true) (hstarted : s.delegateStarted = true) (hphase : s.phase ≠ .headers)
      (hcalls : calls = .headersReceived startLine headers :: body)
      (hbody : ∀ call ∈ body, call ≠ .finish ∧ ∀ startLine headers, call ≠ .headersReceived startLine headers)
      (hcounts : ∀ n, contentLength headers = some n →
        ∃ r, s.incomingContentRemaining = some r ∧ Counts n (bodyLength body) r)
  | closed (hphase : s.phase ≠ .headers) (hstarted : s.delegateStarted = false) (hmatches : BodyMatches calls)

namespace Account

variable {s s' : Stream} {calls : List DelegateCall}

theorem bodyMatches (h : Account s calls) : BodyMatches calls := by
  cases h with
  | absent _ hcalls | idle _ hcalls => simp [BodyMatches, hcalls]
  | @opened startLine headers body _ _ _ hcalls hbody hcounts =>
    intro startLine' headers' n hmem hn
    have hfirst : headers' = headers := by
      rw [hcalls, List.mem_cons] at hmem
      rcases hmem with heq | hmem
      · exact (DelegateCall.headersReceived.inj heq).2
      · exact absurd rfl ((hbody _ hmem).2 _ _)
    obtain ⟨r, -, hpos, hneg⟩ := hcounts n (hfirst ▸ hn)
    have hlength : bodyLength calls = bodyLength body := by simp [hcalls, bodyLength, DelegateCall.bodyLength]
    refine ⟨?_, fun before after hsplit => ?_⟩
    · rw [hlength]
      rcases lt_or_ge r 0 with hr | hr
      · exact hneg hr
      · have := hpos hr
        omega
    · have hfinish : DelegateCall.finish ∈ calls := by simp [hsplit]
      rw [hcalls, List.mem_cons] at hfinish
      rcases hfinish with heq | hmem
      · cases heq
      · exact absurd rfl (hbody _ hmem).1
  | closed _ _ hmatches => exact hmatches

theorem congr (h : Account s calls) (hs : s'.account = s.account) : Account s' calls := by
  obtain ⟨-, hdelegate, hstarted, hphase, hremaining⟩ := by simpa only [Stream.account, Prod.mk.injEq] using hs
  cases h with
  | absent hd hcalls => exact .absent (hdelegate.trans hd) hcalls
  | idle hst hcalls hr => exact .idle (hstarted.trans hst) hcalls (hremaining.trans hr)
  | opened hd hst hp hcalls hbody hcounts =>
    exact .opened (hdelegate.trans hd) (hstarted.trans hst) (hphase ▸ hp) hcalls hbody (hremaining ▸ hcounts)
  | closed hp hst hmatches => exact .closed (hphase ▸ hp) (hstarted.trans hst) hmatches

/-- The phase moves on. -/
theorem withPhase (h : Account s calls) {phase : HTTPPhase} (hphase : phase ≠ .headers) :
    Account { s with phase } calls := by
  cases h with
  | absent hd hcalls => exact .absent hd hcalls
  | idle hst hcalls hr => exact .idle hst hcalls hr
  | opened hd hst _ hcalls hbody hcounts => exact .opened hd hst hphase hcalls hbody hcounts
  | closed _ hst hmatches => exact .closed hphase hst hmatches

/-- A frame that takes the counter below zero. -/
theorem overdrawn (h : Account s calls) {remaining r : Int} (hs : s.incomingContentRemaining = some remaining)
    (hr : r < 0) : Account { s with incomingContentRemaining := some r } calls := by
  cases h with
  | absent hd hcalls => exact .absent hd hcalls
  | idle hst hcalls hnone => rw [hs] at hnone; cases hnone
  | opened hd hst hphase hcalls hbody hcounts =>
    refine .opened hd hst hphase hcalls hbody fun n hn => ⟨r, rfl, fun hpos => absurd hr (not_lt.mpr hpos), ?_⟩
    intro _
    obtain ⟨r', hr', hpos', hneg'⟩ := hcounts n hn
    cases hs.symm.trans hr'
    rcases lt_or_ge remaining 0 with hlt | hge
    · exact hneg' hlt
    · have := hpos' hge
      omega
  | closed hphase hst hmatches => exact .closed hphase hst hmatches

/-- What is counted while no request is open is not delivered. -/
theorem uncalled (h : Account s calls) (hstarted : s.delegateStarted = false ∨ s.hasDelegate = false) {k : Int} :
    Account { s with incomingContentRemaining := s.incomingContentRemaining.map (· - k) } calls := by
  cases h with
  | absent hd hcalls => exact .absent hd hcalls
  | idle hst hcalls hr => exact .idle hst hcalls (by simp [hr])
  | opened hd hst => simp [hd, hst] at hstarted
  | closed hphase hst hmatches => exact .closed hphase hst hmatches

/-- A piece of the body is counted and delivered. -/
theorem delivers (h : Account s calls) (hstarted : s.delegateStarted = true) (hdelegate : s.hasDelegate = true)
    {chunk : Bytes} (hpos : ∀ r, s.incomingContentRemaining = some r → 0 ≤ r - chunk.length) :
    Account { s with incomingContentRemaining := s.incomingContentRemaining.map (· - (chunk.length : Int)) }
      (calls ++ [.dataReceived chunk]) := by
  cases h with
  | absent hd => rw [hd] at hdelegate; cases hdelegate
  | idle hst => rw [hst] at hstarted; cases hstarted
  | closed _ hst => rw [hst] at hstarted; cases hstarted
  | @opened startLine headers body _ _ hphase hcalls hbody hcounts =>
    have hlength : bodyLength (body ++ [.dataReceived chunk]) = bodyLength body + chunk.length := by
      simp [bodyLength, DelegateCall.bodyLength]
    refine @Account.opened _ _ startLine headers (body ++ [.dataReceived chunk]) hdelegate hstarted hphase
      (by rw [hcalls, List.cons_append])
      (List.forall_mem_append.mpr ⟨hbody, List.forall_mem_singleton.mpr (by simp)⟩) fun n hn => ?_
    obtain ⟨r, hr, hcount, -⟩ := hcounts n hn
    have hge := hpos r hr
    refine ⟨r - chunk.length, by rw [hr, Option.map_some], fun _ => ?_, fun hlt => absurd hlt (not_lt.mpr hge)⟩
    have := hcount (by omega)
    rw [hlength]
    push_cast
    omega

/-- A request whose counter is at zero is finished. -/
theorem finishes (h : Account s calls) (hstarted : s.delegateStarted = true) (hdelegate : s.hasDelegate = true)
    (hzero : ∀ r, s.incomingContentRemaining = some r → r = 0) :
    Account { s with delegateStarted := false } (calls ++ [.finish]) := by
  cases h with
  | absent hd => rw [hd] at hdelegate; cases hdelegate
  | idle hst => rw [hst] at hstarted; cases hstarted
  | closed _ hst => rw [hst] at hstarted; cases hstarted
  | @opened startLine headers body _ _ hphase hcalls hbody hcounts =>
    refine .closed hphase rfl fun startLine' headers' n hmem hn => ?_
    have hfirst : headers' = headers := by
      simp only [hcalls, List.cons_append, List.mem_cons, List.mem_append, List.not_mem_nil, or_false] at hmem
      rcases hmem with heq | hmem | heq
      · exact (DelegateCall.headersReceived.inj heq).2
      · exact absurd rfl ((hbody _ hmem).2 _ _)
      · cases heq
    obtain ⟨r, hr, hcount, -⟩ := hcounts n (hfirst ▸ hn)
    obtain rfl := hzero r hr
    have hlength : bodyLength calls = bodyLength body := by simp [hcalls, bodyLength, DelegateCall.bodyLength]
    have hbodyLength := hcount (le_refl 0)
    refine ⟨?_, fun before after hsplit => ?_⟩
    · rw [bodyLength_append, hlength]
      simp only [bodyLength, DelegateCall.bodyLength, List.map_cons, List.map_nil, List.sum_cons, List.sum_nil]
      simp only [bodyLength] at hbodyLength
      omega
    · have hfinish : DelegateCall.finish ∉ calls := by
        rw [hcalls, List.mem_cons]
        rintro (heq | hmem)
        · cases heq
        · exact (hbody _ hmem).1 rfl
      obtain ⟨rfl, -⟩ := (List.append_cons_inj_of_notMem hfinish (List.not_mem_nil)).mp hsplit
      rw [hlength]
      omega

/-- The application is told that the peer has reset the stream. -/
theorem closes (h : Account s calls) (hstarted : s.delegateStarted = true) (hdelegate : s.hasDelegate = true) :
    Account s (calls ++ [.onConnectionClose]) := by
  cases h with
  | absent hd => rw [hd] at hdelegate; cases hdelegate
  | idle hst => rw [hst] at hstarted; cases hstarted
  | closed _ hst => rw [hst] at hstarted; cases hstarted
  | @opened startLine headers body _ _ hphase hcalls hbody hcounts =>
    have hlength : bodyLength (body ++ [.onConnectionClose]) = bodyLength body := by
      simp [bodyLength, DelegateCall.bodyLength]
    refine @Account.opened _ _ startLine headers (body ++ [.onConnectionClose]) hdelegate hstarted hphase
      (by rw [hcalls, List.cons_append])
      (List.forall_mem_append.mpr ⟨hbody, List.forall_mem_singleton.mpr (by simp)⟩) fun n hn => ?_
    rw [hlength]
    exact hcounts n hn

/-- A stream without a delegate is started only when its call has failed. -/
theorem nil (h : Account s calls) (hstarted : s.delegateStarted = true) (hdelegate : s.hasDelegate = false) :
    calls = [] := by
  cases h with
  | absent _ hcalls => exact hcalls
  | idle hst | closed _ hst => rw [hst] at hstarted; cases hstarted
  | opened hd => rw [hd] at hdelegate; cases hdelegate

end Account

/-- A step of a server's stream without calls of its delegate. -/
structure Uncalling (c c' : Ctx) : Prop where
  self : c'.self.account = c.self.account
  log : c.Uncalled c'
  client : c'.conn.isClient = c.conn.isClient

instance : Std.Refl Uncalling := ⟨fun _ => ⟨rfl, .refl, rfl⟩⟩

instance : IsTrans Ctx Uncalling :=
  ⟨fun _ _ _ h h' => ⟨h'.self.trans h.self, h.log.trans h'.log, h'.client.trans h.client⟩⟩

/-- A stream of a server and the calls of its delegate so far. -/
def Accounted (c : Ctx) : Prop :=
  Account c.self (delegateCalls (logOf c.self.streamId c.conn.log)) ∧ c.conn.isClient = false

theorem Accounted.uncalling {c c' : Ctx} (h : Accounted c) (hc : Uncalling c c') : Accounted c' := by
  have hid : c'.self.streamId = c.self.streamId := congrArg (fun t => t.1) hc.self
  refine ⟨?_, hc.client.trans h.2⟩
  rw [hid, hc.log.delegateCalls]
  exact h.1.congr hc.self

theorem SendsOnly.uncalling {i : Nat} {c c' : Ctx} (h : SendsOnly i c c') : Uncalling c c' where
  self := congrArg (fun t => (t.1, t.2.1, t.2.2.2.2.1, t.2.2.2.2.2.2.1, t.2.2.2.1)) h.self
  log := h.log.mono fun e he => by
    cases e with
    | called => exact he.elim
    | _ => rfl
  client := congrArg (fun t => t.1) h.conn

namespace Stream

variable {c : Ctx} {frame : Frame} {calls : List DelegateCall}

/-- A program without calls of the delegate. -/
abbrev Uncalls {α : Type} (m : OnStream α) : Prop := Keeps (fun _ => True) Uncalling m

theorem setSelf_uncalls {f : Stream → Stream} (h : ∀ s, (f s).account = s.account) : Uncalls (setSelf f) :=
  fun c _ => ⟨trivial, h c.self, .refl, rfl⟩

theorem writeFrame_uncalls : Uncalls (writeFrame frame) := by
  refine Keeps.iff_wp.mpr fun c _ => ?_
  rw [writeFrame_wp]
  split
  · exact ⟨trivial, refl c⟩
  · split
    · exact ⟨trivial, refl c⟩
    · exact ⟨trivial, rfl, .snoc rfl, rfl⟩

theorem sendWindowUpdate_uncalls {amount : Nat} : Uncalls (sendWindowUpdate amount) :=
  .get_bind fun _ _ => .bind .check fun _ => .bind writeFrame_uncalls fun _ => writeFrame_uncalls

theorem decodeHeaders_uncalls {data : Bytes} : Uncalls (decodeHeaders data) :=
  .bind (fun _ _ => ⟨trivial, rfl, .snoc rfl, rfl⟩) fun _ => .get_bind fun c _ => by
    rcases c.conn.hpackDecoder.decode c.conn.huffmanTree data with ⟨_ | _, _, _⟩
    · exact .bind (fun _ _ => ⟨trivial, rfl, .refl, rfl⟩) fun _ => .raise _
    · exact .bind (fun _ _ => ⟨trivial, rfl, .refl, rfl⟩) fun _ => .pure _

theorem checkHeaderLength_accounted (h : Accounted c) :
    wp checkHeaderLength (fun _ => Accounted) (fun _ => Accounted) c := by
  rw [checkHeaderLength, wp_bind, wp_get, wp_when]
  refine ⟨fun _ => ?_, fun _ => h⟩
  rw [if_neg (by simp [h.2])]
  exact wp_state.mpr (h.uncalling (refuse_sends c rfl).2.uncalling)

theorem callDelegate_accounted {call : DelegateCall} (hclient : c.conn.isClient = false)
    (habsent : c.self.hasDelegate = false → delegateCalls (logOf c.self.streamId c.conn.log) = [])
    (hcalled : c.self.hasDelegate = true →
      Account c.self (delegateCalls (logOf c.self.streamId c.conn.log) ++ [call])) :
    wp (callDelegate call) (fun _ => Accounted) (fun _ => Accounted) c := by
  rw [callDelegate, wp_bind, wp_get, wp_bind, wp_check]
  refine ⟨fun hd => ⟨.absent hd (habsent hd), hclient⟩, fun hd => ⟨?_, hclient⟩⟩
  have hself : logOf c.self.streamId [.called c.self.streamId call] = [.called c.self.streamId call] := logOf_self rfl
  have hlog : delegateCalls (logOf c.self.streamId (c.conn.log ++ [.called c.self.streamId call])) =
      delegateCalls (logOf c.self.streamId c.conn.log) ++ [call] := by
    rw [logOf_append, delegateCalls_append, hself]
    rfl
  exact hlog ▸ hcalled (by simpa using hd)

theorem maybeEndStream_accounted (h : Accounted c) :
    wp (maybeEndStream frame) (fun _ => Accounted) (fun _ => Accounted) c := by
  rw [maybeEndStream, wp_ite]
  refine ⟨fun _ => ?_, fun _ => h⟩
  rw [wp_bind, wp_get, wp_bind, wp_check]
  refine ⟨fun _ => h, fun hzero => ?_⟩
  have hzero (r : Int) (hr : c.self.incomingContentRemaining = some r) : r = 0 := by
    simpa [hr] using hzero
  rw [wp_bind, wp_when]
  have finished {c' : Ctx} (h' : Accounted c') :
      wp (do
        setSelf fun s => { s with finished := true }
        pure true) (fun _ => Accounted) (fun _ => Accounted) c' := h'.uncalling ⟨rfl, .refl, rfl⟩
  refine ⟨fun hstarted => ?_, fun _ => finished h⟩
  rw [setSelf, wp_bind, wp_modify]
  have hcall : wp (callDelegate .finish) (fun _ => Accounted) (fun _ => Accounted)
      ⟨c.conn, { c.self with delegateStarted := false }⟩ :=
    callDelegate_accounted h.2 (fun hd => h.1.nil hstarted hd) fun hd => h.1.finishes hstarted hd hzero
  exact wp_mono hcall (fun _ _ h' => finished h') fun _ _ h' => h'

theorem readStartLine_wp {p : ParsedHeaders} (hclient : c.conn.isClient = false) :
    wp (readStartLine p) (fun startLine c' => (∃ method path, startLine = .request method path) ∧ Uncalling c c')
      (fun _ => Uncalling c) c := by
  rw [readStartLine, wp_bind, wp_get, if_neg (by simp [hclient]), wp_bind, wp_check]
  refine ⟨fun _ => refl c, fun _ => ?_⟩
  cases pseudoHeader p (ascii ":method") with
  | error => exact refl c
  | ok method =>
    cases pseudoHeader p (ascii ":path") with
    | error => exact refl c
    | ok path => exact ⟨⟨method, path, rfl⟩, rfl, .refl, rfl⟩

theorem setIncomingContent_wp {method path : Option Bytes} {headers : HTTPHeaders (Option Bytes)} :
    wp (setIncomingContent (.request method path) headers)
      (fun _ c' => c' = ⟨c.conn, { c.self with
        incomingContentRemaining := (contentLength headers).or c.self.incomingContentRemaining }⟩)
      (fun _ c' => c' = c) c := by
  have hbodiless : (isBodilessResponse (.request method path)).run c = (.ok false, c) := rfl
  rw [setIncomingContent, wp_bind, wp_of_ok hbodiless, if_neg (by simp), wp_ite, contentLength]
  refine ⟨fun hcontains => ?_, fun hcontains => ?_⟩
  · rw [if_pos hcontains]
    cases hint : headers.getInt (ascii "content-length") with
    | error => rfl
    | ok n => rfl
  · rw [if_neg hcontains]
    rfl

theorem startRequest_accounted {p : ParsedHeaders} (h : Accounted c) (hphase : c.self.phase = .headers) :
    wp (startRequest p) (fun _ => Accounted) (fun _ => Accounted) c := by
  rw [startRequest, wp_bind, wp_get, wp_bind, wp_check]
  refine ⟨fun _ => h, fun _ => ?_⟩
  rw [wp_bind, wp_check]
  refine ⟨fun _ => h, fun _ => ?_⟩
  rw [wp_bind]
  refine wp_mono (readStartLine_wp h.2) ?_ fun _ _ h' => h.uncalling h'
  rintro _ c₁ ⟨⟨method, path, rfl⟩, hc₁⟩
  have h₁ := h.uncalling hc₁
  have hphase₁ : c₁.self.phase = .headers := (congrArg (fun t => t.2.2.2.1) hc₁.self).trans hphase
  rw [wp_bind]
  refine wp_mono setIncomingContent_wp ?_ fun _ c' h' => h' ▸ h₁
  rintro _ _ rfl
  rw [wp_bind, wp_when]
  refine ⟨fun _ => ?_, fun hfinal => absurd rfl hfinal⟩
  rw [setSelf, wp_modify, setSelf, wp_bind, wp_modify]
  have hnil : delegateCalls (logOf c₁.self.streamId c₁.conn.log) = [] := by
    cases h₁.1 with
    | absent _ hcalls | idle _ hcalls => exact hcalls
    | opened _ _ hne | closed hne => exact absurd hphase₁ hne
  refine callDelegate_accounted h₁.2 (fun _ => hnil) fun hdelegate => ?_
  refine .opened hdelegate rfl (by simp) (by rw [hnil, List.nil_append]) (fun _ hmem => absurd hmem List.not_mem_nil)
    fun n hn => ?_
  refine ⟨n, by simp [hn], fun hge => ?_, fun hlt => ?_⟩
  · simp [bodyLength]
  · simp [bodyLength]

theorem parseBlock_accounted (h : Accounted c) (data : Bytes) :
    wp (parseBlock frame data) (fun _ => Accounted) (fun _ => Accounted) c := by
  have step {α : Type} {m : OnStream α} {c : Ctx} (hm : Uncalls m) (h : Accounted c) :
      wp m (fun _ => Accounted) (fun _ => Accounted) c := wp_state.mpr (h.uncalling (hm c trivial).2)
  rw [parseBlock, wp_bind]
  refine wp_mono (step stripPriority_keeps h) (fun data c₁ h₁ => ?_) fun _ _ h' => h'
  rw [wp_bind]
  refine wp_mono (step decodeHeaders_uncalls h₁) (fun headerList c₂ h₂ => ?_) fun _ _ h' => h'
  rw [wp_bind, wp_get, wp_bind]
  cases addHeaders c₂.conn.params.unicode c₂.conn.isClient c₂.self.streamId
    ⟨[], .empty, c₂.self.phase = .trailers⟩ headerList with
  | error => exact h₂
  | ok p =>
    have hstart : wp (when (c₂.self.phase = .headers) (startRequest p))
        (fun _ => Accounted) (fun _ => Accounted) c₂ := by
      rw [wp_when]
      exact ⟨startRequest_accounted h₂, fun _ => h₂⟩
    refine wp_bind.mpr (wp_mono hstart (fun _ c₃ h₃ => ?_) fun _ _ h' => h')
    rw [wp_bind]
    refine wp_mono (maybeEndStream_accounted h₃) (fun _ c₄ h₄ => ?_) fun _ _ h' => h'
    rw [wp_bind, wp_get, wp_check]
    exact ⟨fun _ => h₄, fun _ => h₄⟩

theorem appendHeaderFrame_accounted (h : Accounted c) :
    wp (appendHeaderFrame frame) (fun _ => Accounted) (fun _ => Accounted) c := by
  rw [appendHeaderFrame, setSelf, wp_bind, wp_modify, wp_bind]
  refine wp_mono (checkHeaderLength_accounted (h.uncalling ⟨rfl, .refl, rfl⟩)) (fun _ c₁ h₁ => ?_) fun _ _ h' => h'
  rw [wp_when]
  refine ⟨fun _ => ?_, fun _ => h₁⟩
  rw [parseHeaders, wp_bind, wp_get]
  cases c₁.self.headerFrames with
  | nil => exact h₁
  | cons first rest =>
    dsimp only
    rw [setSelf, wp_bind, wp_modify]
    exact parseBlock_accounted (c := ⟨c₁.conn, { c₁.self with headerFrames := [] }⟩)
      (h₁.uncalling ⟨rfl, .refl, rfl⟩) _

theorem countIncoming_wp {data : Bytes} :
    wp (countIncoming data)
      (fun _ c' => (∀ r, c.self.incomingContentRemaining = some r → 0 ≤ r - data.length) ∧
        c' = ⟨c.conn, { c.self with incomingContentRemaining :=
          c.self.incomingContentRemaining.map (· - (data.length : Int)) }⟩)
      (fun _ c' => ∃ remaining r, c.self.incomingContentRemaining = some remaining ∧ r < 0 ∧
        c' = ⟨c.conn, { c.self with incomingContentRemaining := some r }⟩) c := by
  rw [countIncoming, wp_bind, wp_get]
  cases hremaining : c.self.incomingContentRemaining with
  | none =>
    dsimp only
    rw [wp_pure]
    exact ⟨nofun, by rw [Option.map_none, ← hremaining]⟩
  | some remaining =>
    dsimp only
    rw [setSelf, wp_bind, wp_modify, wp_check]
    refine ⟨fun hlt => ⟨remaining, _, rfl, hlt, rfl⟩, fun hge => ⟨fun r hr => ?_, rfl⟩⟩
    cases hr
    omega

theorem deliverData_accounted {later : Bool} {data : Bytes} (h : Account c.self calls)
    (hclient : c.conn.isClient = false) (hcalls : calls = delegateCalls (logOf c.self.streamId c.conn.log))
    (hstarted : c.self.delegateStarted = true)
    (hpos : ∀ r, c.self.incomingContentRemaining = some r → 0 ≤ r - data.length) :
    wp (deliverData later data) (fun _ => Accounted) (fun _ => Accounted)
      ⟨c.conn, { c.self with incomingContentRemaining :=
        c.self.incomingContentRemaining.map (· - (data.length : Int)) }⟩ := by
  subst hcalls
  rw [deliverData, wp_bind]
  refine wp_mono (callDelegate_accounted hclient (h.nil hstarted) fun hd => h.delivers hstarted hd hpos)
    (fun _ c₁ h₁ => ?_) fun _ _ h' => h'
  have hcredit : Uncalls (if later then
      setSelf fun s => { s with pendingCredits := s.pendingCredits ++ [data.length] }
      else sendWindowUpdate data.length) :=
    .ite (fun _ => setSelf_uncalls fun _ => rfl) fun _ => sendWindowUpdate_uncalls
  exact wp_state.mpr (h₁.uncalling (hcredit c₁ trivial).2)

theorem handleDataFrame_accounted {later : Bool} (h : Accounted c) :
    wp (handleDataFrame frame later) (fun _ => Accounted) (fun _ => Accounted) c := by
  rw [handleDataFrame, wp_bind, wp_get, wp_bind, wp_check]
  refine ⟨fun _ => h, fun _ => ?_⟩
  rw [wp_bind, wp_check]
  refine ⟨fun _ => h, fun _ => ?_⟩
  rw [setSelf, wp_bind, wp_modify]
  have h₁ : Accounted ⟨c.conn, { c.self with phase := .body }⟩ := ⟨h.1.withPhase (by simp), h.2⟩
  cases frame.withoutPadding with
  | error e => exact h₁
  | ok f =>
    rw [show (Prog.ofExcept (.ok f) : OnStream Frame) = pure f from rfl, wp_bind, wp_pure, wp_bind]
    refine wp_mono countIncoming_wp ?_ ?_
    · rintro _ _ ⟨hpos, rfl⟩
      rw [wp_bind, wp_when]
      refine ⟨fun hdeliver => ?_, fun hkeep => ?_⟩
      · refine wp_mono (deliverData_accounted h₁.1 h₁.2 rfl hdeliver.2 hpos) (fun _ c₂ h₂ => ?_) fun _ _ h' => h'
        exact wp_bind.mpr (wp_mono (maybeEndStream_accounted h₂) (fun _ _ h' => h') fun _ _ h' => h')
      · refine wp_bind.mpr (wp_mono (maybeEndStream_accounted ⟨?_, h.2⟩) (fun _ _ h' => h') fun _ _ h' => h')
        rcases not_and_or.mp hkeep with hnil | hstarted
        · rw [not_not] at hnil
          exact h₁.1.congr (by simp [hnil, Stream.account])
        · exact h₁.1.uncalled (.inl (by simpa using hstarted))
    · rintro _ _ ⟨remaining, r, hremaining, hlt, rfl⟩
      exact ⟨h₁.1.overdrawn hremaining hlt, h.2⟩

theorem handleFrame_accounted {later : Bool} (h : Accounted c) :
    Accounted ((handleFrame frame later).run c).2 := by
  have uncalled {m : OnStream Unit} (hm : Uncalls m) : Accounted (m.run c).2 := h.uncalling (hm c trivial).2
  have unfinished {m : OnStream Unit} (hm : wp m (fun _ => Accounted) (fun _ => Accounted) c) :
      wp (do
        check (c.self.finished = true) (.streamError c.self.streamId .streamClosed)
        m) (fun _ => Accounted) (fun _ => Accounted) c := by
    rw [wp_bind, wp_check]
    exact ⟨fun _ => h, fun _ => hm⟩
  rw [handleFrame, run_get_bind]
  cases frame.type with
  | priority => exact uncalled handlePriorityFrame_keeps
  | rstStream =>
    refine wp_state.mp ?_
    rw [handleRstStreamFrame, wp_bind, wp_get, wp_bind, wp_check]
    refine ⟨fun _ => h, fun _ => ?_⟩
    rw [wp_when]
    exact ⟨fun hstarted => callDelegate_accounted h.2 (h.1.nil hstarted) (h.1.closes hstarted), fun _ => h⟩
  | windowUpdate =>
    refine uncalled (.get_bind fun _ _ => .bind (fun _ _ => ⟨trivial, rfl, .refl, rfl⟩) fun _ => ?_)
    exact fun _ _ => ⟨trivial, rfl, .snoc rfl, rfl⟩
  | settings | goaway | pushPromise => exact h
  | ping | unknown => exact wp_state.mp (unfinished h)
  | data => exact wp_state.mp (unfinished (handleDataFrame_accounted h))
  | continuation =>
    refine wp_state.mp (unfinished ?_)
    rw [handleContinuationFrame, wp_bind, wp_get, wp_bind, wp_check]
    exact ⟨fun _ => h, fun _ => appendHeaderFrame_accounted h⟩
  | headers =>
    refine wp_state.mp (unfinished ?_)
    have append {c : Ctx} (h : Accounted c) :
        wp (ofExcept frame.withoutPadding >>= appendHeaderFrame) (fun _ => Accounted) (fun _ => Accounted) c := by
      cases frame.withoutPadding with
      | error e => exact h
      | ok f => exact @appendHeaderFrame_accounted c f h
    rw [handleHeadersFrame, wp_bind, wp_get, wp_bind, wp_when]
    exact ⟨fun _ => append ⟨h.1.withPhase (by simp), h.2⟩, fun _ => append h⟩

theorem method_accounted {a : System.Action} {i : Nat} {m : OnStream Unit} (ha : a.method = some (i, m))
    (h : Accounted c) : Accounted (m.run c).2 := by
  rcases method_sends ha with hm | ⟨k, rfl⟩
  · exact h.uncalling (hm c.self.streamId c rfl).2.uncalling
  · have hresolve : Uncalls (resolveData k) :=
      .get_bind fun c _ => match c.self.pendingCredits[k]? with
        | none => .pure _
        | some _ => .bind (setSelf_uncalls fun _ => rfl) fun _ => sendWindowUpdate_uncalls
    exact h.uncalling (hresolve c trivial).2

end Stream

namespace System

theorem stable_account :
    Stable (fun self log => Account self (delegateCalls log)) (fun conn => conn.isClient = false) where
  quiet := by
    rintro c _ ⟨es, n, closed, rfl, -⟩ hserver
    exact hserver
  noise he h := by
    rw [delegateCalls_noise he]
    exact h
  new _ _ hlog := .idle rfl (delegateCalls_opened hlog) rfl

theorem step_accounted {s : System} (a : Action) (hw : WellFormed s)
    (h : s.All (fun self log => Account self (delegateCalls log)) ∧ s.conn.isClient = false) :
    (s.step a).All (fun self log => Account self (delegateCalls log)) ∧ (s.step a).conn.isClient = false :=
  h.1.step stable_account hw h.2
    (fun frame _ c _ _ _ _ hc => (congrArg Prod.fst (Conn.handleFrame_connOnly frame c trivial).2.same).trans hc)
    (fun _ _ _ _ _ _ _ _ hown => Stream.handleFrame_accounted hown)
    fun _ _ _ ha _ _ hown => Stream.method_accounted ha hown

theorem WellFormed.delegateCalls_absent {s : System} (hw : WellFormed s) {i : Nat} (hself : s.streams i = none) :
    delegateCalls (logOf i s.conn.log) = [] := by
  refine List.filterMap_eq_nil_iff.mpr fun e he => ?_
  obtain ⟨hmem, hid⟩ := mem_logOf.mp he
  cases e with
  | called =>
    by_cases hi : i = 0
    · exact (hw.ofConn _ hmem (hid.trans hi)).elim
    · exact (hw.absent hi hself _ hmem hid).elim
  | _ => rfl

/-- The delegate of a request never gets more body than the request declares,
and has got all of it when it is told that the request is complete. -/
theorem body_matches (params : Params) (actions : List Action) (i : Nat) :
    BodyMatches (delegateCalls (logOf i ((start false params).run actions).conn.log)) := by
  obtain ⟨hw, hall, -⟩ := List.foldlRecOn
    (motive := fun s => WellFormed s ∧ s.All (fun self log => Account self (delegateCalls log)) ∧
      s.conn.isClient = false) actions step ⟨.start false params, by simp [All, start], rfl⟩
    fun _ h a _ => ⟨h.1.step a, step_accounted a h.1 h.2⟩
  cases hself : ((start false params).run actions).streams i with
  | some self => exact (hall hself).bodyMatches
  | none => simp [run, hw.delegateCalls_absent hself, BodyMatches]

/-- `GET / HTTP/2.0` with `content-length: -5`, which `int` accepts. -/
def negativeLength : List Action :=
  [.receive ⟨.headers, 0x4, 1, [0x82, 0x84, 0x87, 0x0f, 0x0d, 0x02, 0x2d, 0x35]⟩ false]

theorem not_body_within_length : ¬ ∀ params actions i startLine headers n,
    let calls := delegateCalls (logOf i ((start false params).run actions).conn.log)
    .headersReceived startLine headers ∈ calls → contentLength headers = some n →
      (bodyLength calls : Int) ≤ n ∧
      ∀ before after, calls = before ++ .finish :: after → (bodyLength before : Int) = n := by
  intro h
  have hcalls : delegateCalls (logOf 1 ((start false (.new none .caseless)).run negativeLength).conn.log) =
      [.headersReceived (.request (some (ascii "GET")) (some (ascii "/")))
        ⟨[(ascii "Content-Length", [some (ascii "-5")])]⟩] := by decide +kernel
  have hle := (h (.new none .caseless) negativeLength 1 _ _ (-5) (hcalls ▸ List.mem_singleton_self _) (by decide)).1
  rw [hcalls] at hle
  exact absurd hle (by decide)

end System

end TornadoHttp2
