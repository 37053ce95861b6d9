import TornadoHttp2.ContentLength
import TornadoHttp2.Histories

/-! The body that a delegate gets. The DATA frames of its stream bring it piece by
piece, and from the first piece that the stream refuses nothing more is delivered. -/

namespace TornadoHttp2

open Prog Ctx

/-- The payload of a DATA frame without its padding. -/
def Frame.dataBody (f : Frame) : Bytes :=
  if f.type = .data then
    match f.withoutPadding with
    | .ok f => f.data
    | .error _ => []
  else []

def bodyIn (frames : List Frame) : Bytes := frames.flatMap Frame.dataBody

def DelegateCall.body : DelegateCall → Bytes
  | dataReceived chunk => chunk
  | _ => []

/-- What has been passed to `data_received`. -/
def delivered (calls : List DelegateCall) : Bytes := calls.flatMap DelegateCall.body

/-- The flags of a frame that ends its stream. -/
def Frame.Ends (f : Frame) : Prop := f.has .endStream = true ∧ (f.type = .headers ∨ f.type = .data)

section

variable {frames frames' : List Frame} {frame f : Frame} {calls : List DelegateCall} {call : DelegateCall}

theorem bodyIn_append : bodyIn (frames ++ frames') = bodyIn frames ++ bodyIn frames' := List.flatMap_append

theorem bodyIn_snoc : bodyIn (frames ++ [frame]) = bodyIn frames ++ frame.dataBody := by simp [bodyIn]

theorem delivered_snoc : delivered (calls ++ [call]) = delivered calls ++ call.body := by simp [delivered]

theorem Frame.dataBody_of_ne (h : frame.type ≠ .data) : frame.dataBody = [] := if_neg h

theorem Frame.dataBody_ok (h : frame.type = .data) (hf : frame.withoutPadding = .ok f) : frame.dataBody = f.data := by
  rw [dataBody, if_pos h, hf]

theorem Frame.dataBody_error {e : PyException} (h : frame.withoutPadding = .error e) : frame.dataBody = [] := by
  rw [dataBody, h]
  exact ite_self _

end

namespace Stream

/-- How far a stream has got with the frames that it has been handed. -/
inductive Receipt (s : Stream) (calls : List DelegateCall) (handed : List Frame) : Prop
  | idle (hstarted : s.delegateStarted = false) (hphase : s.phase = .headers) (hopen : s.finished = false)
      (hbody : delivered calls = []) (hnone : bodyIn handed = []) (hfinish : .finish ∉ calls)
  | live (hstarted : s.delegateStarted = true) (hopen : s.finished = false) (hbody : delivered calls = bodyIn handed)
      (hfinish : .finish ∉ calls)
  | stuck (hphase : s.phase ≠ .headers)
      (hmute : s.delegateStarted = false ∨ ∃ r < 0, s.incomingContentRemaining = some r)
      (hbody : delivered calls <+: bodyIn handed) (hfinish : .finish ∉ calls)
  | done (hdone : s.finished = true) (hstarted : s.delegateStarted = false) (hbody : delivered calls <+: bodyIn handed)
      (hfinish : .finish ∈ calls → ∃ before after, handed = before ++ after ∧ delivered calls = bodyIn before ∧
        ∃ f ∈ before, f.Ends)

/-- The attributes of a stream that this depends on. -/
def intake (s : Stream) :=
  (s.streamId, s.hasDelegate, s.finished, s.incomingContentRemaining, s.delegateStarted, s.headerFrames, s.phase)

/-- A stream, the calls of its delegate and the frames that it has been handed. -/
structure Heard (s : Stream) (calls : List DelegateCall) (handed : List Frame) : Prop where
  block : ∀ first, s.headerFrames.head? = some first → first.has .endStream = true → ∃ f ∈ handed, f.Ends
  absent : s.hasDelegate = false → calls = []
  receipt : s.hasDelegate = true → s.Receipt calls handed

namespace Receipt

variable {s s' : Stream} {calls : List DelegateCall} {handed : List Frame} {frame : Frame}

theorem congr (h : s.Receipt calls handed) (hs : s'.intake = s.intake) : s'.Receipt calls handed := by
  obtain ⟨-, -, hfinished, hremaining, hstarted, -, hphase⟩ := by simpa only [intake, Prod.mk.injEq] using hs
  cases h with
  | idle hst hp ho hb hn hf => exact .idle (hstarted.trans hst) (hphase.trans hp) (hfinished.trans ho) hb hn hf
  | live hst ho hb hf => exact .live (hstarted.trans hst) (hfinished.trans ho) hb hf
  | stuck hp hm hb hf => exact .stuck (hphase ▸ hp) (by rwa [hstarted, hremaining]) hb hf
  | done hd hst hb hf => exact .done (hfinished.trans hd) (hstarted.trans hst) hb hf

theorem congr_frames (h : s.Receipt calls handed) {headerFrames : List Frame} :
    { s with headerFrames }.Receipt calls handed := by
  cases h with
  | idle hst hp ho hb hn hf => exact .idle hst hp ho hb hn hf
  | live hst ho hb hf => exact .live hst ho hb hf
  | stuck hp hm hb hf => exact .stuck hp hm hb hf
  | done hd hst hb hf => exact .done hd hst hb hf

/-- A frame without body is handed on. -/
theorem more (h : s.Receipt calls handed) (hbody : frame.dataBody = []) : s.Receipt calls (handed ++ [frame]) := by
  have hsame : bodyIn (handed ++ [frame]) = bodyIn handed := by rw [bodyIn_snoc, hbody, List.append_nil]
  cases h with
  | idle hst hp ho hb hn hf => exact .idle hst hp ho hb (hsame.trans hn) hf
  | live hst ho hb hf => exact .live hst ho (hb.trans hsame.symm) hf
  | stuck hp hm hb hf => exact .stuck hp hm (hsame ▸ hb) hf
  | done hd hst hb hf =>
    refine .done hd hst (hsame ▸ hb) fun hfinish => ?_
    obtain ⟨before, after, rfl, hbefore, hends⟩ := hf hfinish
    exact ⟨before, after ++ [frame], List.append_assoc .., hbefore, hends⟩

/-- What a stream that is done is handed makes no difference. -/
theorem late (h : s.Receipt calls handed) (hdone : s.finished = true) : s.Receipt calls (handed ++ [frame]) := by
  have hgrows : bodyIn handed <+: bodyIn (handed ++ [frame]) := bodyIn_snoc ▸ List.prefix_append ..
  cases h with
  | idle _ _ ho | live _ ho => exact absurd (ho.symm.trans hdone) nofun
  | stuck hp hm hb hf => exact .stuck hp hm (hb.trans hgrows) hf
  | done hd hst hb hf =>
    refine .done hd hst (hb.trans hgrows) fun hfinish => ?_
    obtain ⟨before, after, rfl, hbefore, hends⟩ := hf hfinish
    exact ⟨before, after ++ [frame], List.append_assoc .., hbefore, hends⟩

/-- A call that neither delivers nor ends anything. -/
theorem call {call : DelegateCall} (h : s.Receipt calls handed) (hbody : call.body = []) (hcall : call ≠ .finish) :
    s.Receipt (calls ++ [call]) handed := by
  have hsame : delivered (calls ++ [call]) = delivered calls := by rw [delivered_snoc, hbody, List.append_nil]
  have hmem : DelegateCall.finish ∈ calls ++ [call] ↔ .finish ∈ calls := by simp [hcall.symm]
  cases h with
  | idle hst hp ho hb hn hf => exact .idle hst hp ho (hsame.trans hb) hn (hmem.not.mpr hf)
  | live hst ho hb hf => exact .live hst ho (hsame.trans hb) (hmem.not.mpr hf)
  | stuck hp hm hb hf => exact .stuck hp hm (hsame ▸ hb) (hmem.not.mpr hf)
  | done hd hst hb hf => exact .done hd hst (hsame ▸ hb) (hsame ▸ fun hfinish => hf (hmem.mp hfinish))

/-- The phase moves on. -/
theorem withPhase (h : s.Receipt calls handed) {phase : HTTPPhase} (hphase : phase ≠ .headers) :
    { s with phase }.Receipt calls handed := by
  cases h with
  | idle hst _ _ hb _ hf => exact .stuck hphase (.inl hst) (hb ▸ List.nil_prefix) hf
  | live hst ho hb hf => exact .live hst ho hb hf
  | stuck _ hm hb hf => exact .stuck hphase hm hb hf
  | done hd hst hb hf => exact .done hd hst hb hf

/-- Headers may declare another length. -/
theorem declares (h : s.Receipt calls handed) (hphase : s.phase = .headers) (remaining : Option Int) :
    { s with incomingContentRemaining := remaining }.Receipt calls handed := by
  cases h with
  | idle hst hp ho hb hn hf => exact .idle hst hp ho hb hn hf
  | live hst ho hb hf => exact .live hst ho hb hf
  | stuck hp => exact absurd hphase hp
  | done hd hst hb hf => exact .done hd hst hb hf

/-- Headers have been read. -/
theorem starts (h : s.Receipt calls handed) (hphase : s.phase = .headers)
    (hopen : s.finished = false) (phase : HTTPPhase)
    {call : DelegateCall} (hbody : call.body = []) (hcall : call ≠ .finish) :
    { s with phase, delegateStarted := true }.Receipt (calls ++ [call]) handed := by
  have hlive : { s with phase, delegateStarted := true }.Receipt calls handed := by
    cases h with
    | idle _ _ ho hb hn hf => exact .live rfl ho (hb.trans hn.symm) hf
    | live _ ho hb hf => exact .live rfl ho hb hf
    | stuck hp => exact absurd hphase hp
    | done hd => exact absurd (hopen.symm.trans hd) nofun
  exact hlive.call hbody hcall

/-- The peer ends its side. -/
theorem finishes (h : s.Receipt calls handed) (hopen : s.finished = false) (hstarted : s.delegateStarted = true)
    (hzero : ∀ r, s.incomingContentRemaining = some r → r = 0) (hends : ∃ f ∈ handed, f.Ends) :
    { s with delegateStarted := false, finished := true }.Receipt (calls ++ [DelegateCall.finish]) handed := by
  have hsame : delivered (calls ++ [DelegateCall.finish]) = delivered calls := delivered_snoc.trans (List.append_nil _)
  cases h with
  | idle hst => exact absurd (hst.symm.trans hstarted) nofun
  | live _ _ hb =>
    have hall : delivered (calls ++ [DelegateCall.finish]) = bodyIn handed := hsame.trans hb
    exact .done rfl rfl (hall ▸ List.prefix_refl _) fun _ => ⟨handed, [], (List.append_nil _).symm, hall, hends⟩
  | stuck _ hm =>
    rcases hm with hst | ⟨r, hneg, hr⟩
    · exact absurd (hst.symm.trans hstarted) nofun
    · have := hzero r hr
      omega
  | done hd => exact absurd (hopen.symm.trans hd) nofun

/-- The peer ends a side of which the delegate has not been told. -/
theorem passes (h : s.Receipt calls handed) (hopen : s.finished = false) (hstarted : s.delegateStarted = false) :
    { s with finished := true }.Receipt calls handed := by
  cases h with
  | idle _ _ _ hb _ hf => exact .done rfl hstarted (hb ▸ List.nil_prefix) fun hfinish => absurd hfinish hf
  | live hst => exact absurd (hstarted.symm.trans hst) nofun
  | stuck _ _ hb hf => exact .done rfl hstarted hb fun hfinish => absurd hfinish hf
  | done hd => exact absurd (hopen.symm.trans hd) nofun

/-- More body than declared. -/
theorem overdrawn (h : s.Receipt calls handed) (hopen : s.finished = false)
    (hphase : s.phase ≠ .headers) {r : Int} (hr : r < 0) :
    { s with incomingContentRemaining := some r }.Receipt calls (handed ++ [frame]) := by
  have hgrows : bodyIn handed <+: bodyIn (handed ++ [frame]) := bodyIn_snoc ▸ List.prefix_append ..
  cases h with
  | idle _ hp => exact absurd hp hphase
  | live _ _ hb hf => exact .stuck hphase (.inr ⟨r, hr, rfl⟩) (hb ▸ hgrows) hf
  | stuck _ _ hb hf => exact .stuck hphase (.inr ⟨r, hr, rfl⟩) (hb.trans hgrows) hf
  | done hd => exact absurd (hopen.symm.trans hd) nofun

/-- A piece of the body that fits the declared length. -/
theorem counts (h : s.Receipt calls handed) (hopen : s.finished = false) (hphase : s.phase ≠ .headers) {data : Bytes}
    (hbody : frame.dataBody = data) (hpos : ∀ r, s.incomingContentRemaining = some r → 0 ≤ r - data.length) :
    let s' := { s with incomingContentRemaining := s.incomingContentRemaining.map (· - (data.length : Int)) }
    (s.delegateStarted = true → s'.Receipt (calls ++ [.dataReceived data]) (handed ++ [frame])) ∧
      (data = [] ∨ s.delegateStarted = false → s'.Receipt calls (handed ++ [frame])) := by
  have hgrows : bodyIn handed <+: bodyIn (handed ++ [frame]) := bodyIn_snoc ▸ List.prefix_append ..
  have hmuted {r : Int} (hneg : r < 0) (hr : s.incomingContentRemaining = some r) : False := by
    have := hpos r hr
    omega
  cases h with
  | idle _ hp => exact absurd hp hphase
  | live hst ho hb hf =>
    refine ⟨fun _ => .live hst ho ?_ (by simp [hf]), fun hskip => .live hst ho ?_ hf⟩
    · rw [delivered_snoc, bodyIn_snoc, hb, hbody, DelegateCall.body]
    · rcases hskip with hnil | hskip
      · rw [bodyIn_snoc, hbody, hnil, List.append_nil, hb]
      · exact absurd (hskip.symm.trans hst) nofun
  | stuck hp hm hb hf =>
    rcases hm with hst | ⟨r, hneg, hr⟩
    · exact ⟨fun h => absurd (hst.symm.trans h) nofun, fun _ => .stuck hp (.inl hst) (hb.trans hgrows) hf⟩
    · exact (hmuted hneg hr).elim
  | done hd => exact absurd (hopen.symm.trans hd) nofun

theorem in_order (h : s.Receipt calls handed) : delivered calls <+: bodyIn handed := by
  cases h with
  | idle _ _ _ hb => exact hb ▸ List.nil_prefix
  | live _ _ hb => exact hb ▸ List.prefix_refl _
  | stuck _ _ hb => exact hb
  | done _ _ hb => exact hb

/-- The delegate is told of the end after the body that it has got. -/
theorem complete (h : s.Receipt calls handed) (hfinish : .finish ∈ calls) :
    ∃ before after, handed = before ++ after ∧ delivered calls = bodyIn before ∧ ∃ f ∈ before, f.Ends := by
  cases h with
  | idle _ _ _ _ _ hf | live _ _ _ hf | stuck _ _ _ hf => exact absurd hfinish hf
  | done _ _ _ hf => exact hf hfinish

end Receipt

end Stream

/-- A step of a stream that its receipt does not depend on. -/
structure Ctx.Passes (c c' : Ctx) : Prop where
  self : c'.self.intake = c.self.intake
  log : c.Uncalled c'

instance : Std.Refl Passes := ⟨fun _ => ⟨rfl, .refl⟩⟩

instance : IsTrans Ctx Passes := ⟨fun _ _ _ h h' => ⟨h'.self.trans h.self, h.log.trans h'.log⟩⟩

theorem SendsOnly.passes {i : Nat} {c c' : Ctx} (h : SendsOnly i c c') : Passes c c' where
  self := congrArg (fun t => (t.1, t.2.1, t.2.2.1, t.2.2.2.1, t.2.2.2.2.1, t.2.2.2.2.2.1, t.2.2.2.2.2.2.1)) h.self
  log := h.uncalling.log

/-- A stream that has taken data off the length that it expects. -/
def Ctx.charged (c : Ctx) (data : Bytes) : Ctx :=
  { c with self := { c.self with
    incomingContentRemaining := c.self.incomingContentRemaining.map (· - (data.length : Int)) } }

/-- The calls of the delegate of a stream. -/
def Ctx.calls (c : Ctx) : List DelegateCall := delegateCalls (logOf c.self.streamId c.conn.log)

abbrev Ctx.Listens (handed : List Frame) (c : Ctx) : Prop := c.self.Heard c.calls handed

namespace Ctx

variable {c c' : Ctx} {handed : List Frame} {frame : Frame}

theorem Listens.passes (h : c.Listens handed) (hp : Passes c c') : c'.Listens handed := by
  obtain ⟨hid, hdelegate, -, -, -, hframes, -⟩ := by simpa only [Stream.intake, Prod.mk.injEq] using hp.self
  have hcalls : c'.calls = c.calls := by rw [calls, calls, hid, hp.log.delegateCalls]
  refine ⟨fun first hfirst => h.block first (hframes ▸ hfirst),
    fun hnone => hcalls ▸ h.absent (hdelegate ▸ hnone), fun hsome => ?_⟩
  rw [hcalls]
  exact (h.receipt (hdelegate ▸ hsome)).congr hp.self

theorem Listens.block_more (h : c.Listens handed) (first : Frame) (hfirst : c.self.headerFrames.head? = some first)
    (hends : first.has .endStream = true) : ∃ f ∈ handed ++ [frame], f.Ends := by
  obtain ⟨f, hf, hfends⟩ := h.block first hfirst hends
  exact ⟨f, List.mem_append_left _ hf, hfends⟩

theorem Listens.more (h : c.Listens handed) (hbody : frame.dataBody = []) : c.Listens (handed ++ [frame]) where
  block := h.block_more
  absent := h.absent
  receipt hd := (h.receipt hd).more hbody

/-- The stream changes, but neither its block nor its delegate. -/
theorem Listens.with (h : c.Listens handed) {self : Stream} (hid : self.streamId = c.self.streamId)
    (hdelegate : self.hasDelegate = c.self.hasDelegate) (hframes : self.headerFrames = c.self.headerFrames)
    (hreceipt : c.self.hasDelegate = true → self.Receipt c.calls handed) : (⟨c.conn, self⟩ : Ctx).Listens handed := by
  have hcalls : (⟨c.conn, self⟩ : Ctx).calls = c.calls := by rw [calls, calls, hid]
  refine ⟨fun first hfirst => h.block first (hframes ▸ hfirst), fun hnone => ?_, fun hsome => ?_⟩
  · exact hcalls.trans (h.absent (hdelegate.symm.trans hnone))
  · exact hcalls ▸ hreceipt (hdelegate.symm.trans hsome)

theorem calls_called {call : DelegateCall} : (c.logged (.called c.self.streamId call)).calls = c.calls ++ [call] := by
  have hself : logOf c.self.streamId [.called c.self.streamId call] = [.called c.self.streamId call] := logOf_self rfl
  change delegateCalls (logOf c.self.streamId (c.conn.log ++ [.called c.self.streamId call])) = _
  rw [logOf_append, delegateCalls_append, hself]
  rfl

end Ctx

namespace Stream

variable {c : Ctx} {handed : List Frame} {frame : Frame}

/-- A program that the receipt of a stream does not depend on. -/
abbrev Passing {α : Type} (m : OnStream α) : Prop := Keeps (fun _ => True) Passes m

theorem setSelf_passing {f : Stream → Stream} (h : ∀ s, (f s).intake = s.intake) : Passing (setSelf f) :=
  fun c _ => ⟨trivial, h c.self, .refl⟩

theorem sendWindowUpdate_passing {amount : Nat} : Passing (sendWindowUpdate amount) := by
  have hframe {f : Frame} : Passing (writeFrame f) := fun c _ => by
    have hlog : Uncalls (writeFrame f) := writeFrame_uncalls
    exact ⟨trivial, rfl, (hlog c trivial).2.log⟩
  exact .get_bind fun _ _ => .bind .check fun _ => .bind hframe fun _ => hframe

theorem decodeHeaders_passing {data : Bytes} : Passing (decodeHeaders data) :=
  .bind (fun _ _ => ⟨trivial, rfl, .snoc rfl⟩) fun _ => .get_bind fun c _ => by
    rcases c.conn.hpackDecoder.decode c.conn.huffmanTree data with ⟨_ | _, _, _⟩
    · exact .bind (fun _ _ => ⟨trivial, rfl, .refl⟩) fun _ => .raise _
    · exact .bind (fun _ _ => ⟨trivial, rfl, .refl⟩) fun _ => .pure _

theorem readStartLine_passing {p : ParsedHeaders} : Passing (readStartLine p) :=
  .get_bind fun _ _ => .ite (fun _ => .bind (.ofExcept _) fun _ => .pure _) fun _ =>
    .bind .check fun _ => .bind (.ofExcept _) fun _ => .bind (.ofExcept _) fun _ =>
      .bind (setSelf_passing fun _ => rfl) fun _ => .pure _

theorem callDelegate_wp {call : DelegateCall} {Q : Unit → Ctx → Prop} {E : PyException → Ctx → Prop}
    (hcalled : c.self.hasDelegate = true → Q () (c.logged (.called c.self.streamId call)))
    (habsent : c.self.hasDelegate = false → ∀ e, E e c) : wp (callDelegate call) Q E c := by
  rw [callDelegate, wp_bind, wp_get, wp_bind, wp_check]
  exact ⟨fun hd => habsent hd _, fun hd => hcalled (by simpa using hd)⟩

/-- A call that is neither a piece of the body nor its end. -/
theorem callDelegate_heard {call : DelegateCall} (h : c.Listens handed)
    (hbody : call.body = []) (hcall : call ≠ .finish) :
    wp (callDelegate call) (fun _ => Listens handed) (fun _ => Listens handed) c := by
  refine callDelegate_wp (fun hd => ⟨h.block, fun hnone => absurd (hd.symm.trans hnone) nofun, fun _ => ?_⟩)
    fun _ _ => h
  rw [calls_called]
  exact (h.receipt hd).call hbody hcall

theorem checkHeaderLength_heard (h : c.Listens handed) :
    wp checkHeaderLength (fun _ => Listens handed) (fun _ => Listens handed) c := by
  rw [checkHeaderLength, wp_bind, wp_get, wp_when]
  refine ⟨fun _ => ?_, fun _ => h⟩
  split
  · exact callDelegate_heard h rfl fun hcall => by cases hcall
  · exact wp_state.mpr (h.passes (refuse_sends c rfl).2.passes)

theorem checkHeaderLength_finished (h : c.self.finished = false) :
    wp checkHeaderLength (fun _ c' => c'.self.finished = false) (fun _ _ => True) c := by
  rw [checkHeaderLength, wp_bind, wp_get, wp_when]
  refine ⟨fun _ => ?_, fun _ => h⟩
  split
  · exact callDelegate_wp (fun _ => h) fun _ _ => trivial
  · have hrefuse := (refuse_sends c rfl).2.passes.self
    have hkept : wp refuse (fun _ c' => c'.self.finished = false) (fun _ c' => c'.self.finished = false) c :=
      wp_state.mpr ((congrArg (fun t => t.2.2.1) hrefuse).trans h)
    exact wp_mono hkept (fun _ _ h' => h') fun _ _ _ => trivial

theorem maybeEndStream_heard (h : c.Listens handed) (hopen : c.self.finished = false)
    (hends : frame.has .endStream = true → ∃ f ∈ handed, f.Ends) :
    wp (maybeEndStream frame) (fun _ => Listens handed) (fun _ => Listens handed) c := by
  rw [maybeEndStream, wp_ite]
  refine ⟨fun hflag => ?_, fun _ => h⟩
  rw [wp_bind, wp_get, wp_bind, wp_check]
  refine ⟨fun _ => h, fun hzero => ?_⟩
  have hzero (r : Int) (hr : c.self.incomingContentRemaining = some r) : r = 0 := by
    simpa [hr] using hzero
  rw [wp_bind, wp_when]
  refine ⟨fun hstarted => ?_, fun hstarted => ?_⟩
  · rw [setSelf, wp_bind, wp_modify]
    refine callDelegate_wp (fun hd => ?_) fun hd _ => ?_
    · refine ⟨h.block, fun hnone => Bool.noConfusion (hd.symm.trans hnone), fun _ => ?_⟩
      have hcalls : (Ctx.logged ⟨c.conn, { c.self with delegateStarted := false }⟩
          (.called c.self.streamId .finish)).calls = c.calls ++ [.finish] := calls_called
      exact hcalls ▸ (h.receipt hd).finishes hopen hstarted hzero (hends hflag)
    · exact h.with rfl rfl rfl fun hsome => Bool.noConfusion (hd.symm.trans hsome)
  · exact h.with rfl rfl rfl fun hd => (h.receipt hd).passes hopen (by simpa using hstarted)

theorem setIncomingContent_heard {startLine : StartLine (Option Bytes)} {headers : HTTPHeaders (Option Bytes)} :
    Keeps (fun c => c.Listens handed ∧ c.self.phase = .headers ∧ c.self.finished = false) Anything
      (setIncomingContent startLine headers) := by
  have hset (remaining : Option Int) : Keeps (fun c => c.Listens handed ∧
    c.self.phase = .headers ∧ c.self.finished = false)
      Anything (setSelf fun s => { s with incomingContentRemaining := remaining }) := fun c hc =>
    ⟨⟨hc.1.with rfl rfl rfl fun hd => (hc.1.receipt hd).declares hc.2.1 remaining, hc.2⟩, trivial⟩
  exact .bind isBodilessResponse_keeps fun _ => .ite (fun _ => hset _) fun _ =>
    .ite (fun _ => .bind (.ofExcept _) fun _ => hset _) fun _ => .pure _

theorem startRequest_heard {p : ParsedHeaders} (h : c.Listens handed) (hphase : c.self.phase = .headers)
    (hopen : c.self.finished = false) :
    wp (startRequest p) (fun _ c' => c'.Listens handed ∧ c'.self.finished = false) (fun _ => Listens handed) c := by
  rw [startRequest, wp_bind, wp_get, wp_bind, wp_check]
  refine ⟨fun _ => h, fun _ => ?_⟩
  rw [wp_bind, wp_check]
  refine ⟨fun _ => h, fun _ => ?_⟩
  rw [wp_bind]
  refine readStartLine_passing.wp trivial (fun startLine c₁ _ hc₁ => ?_) fun _ _ _ hc₁ => h.passes hc₁
  have hphase₁ : c₁.self.phase = .headers := (congrArg (fun t => t.2.2.2.2.2.2) hc₁.self).trans hphase
  have hopen₁ : c₁.self.finished = false := (congrArg (fun t => t.2.2.1) hc₁.self).trans hopen
  rw [wp_bind]
  refine setIncomingContent_heard.wp ⟨h.passes hc₁, hphase₁, hopen₁⟩ ?_ fun _ _ h' _ => h'.1
  rintro _ c₂ ⟨h₂, hphase₂, hopen₂⟩ -
  have started (phase : HTTPPhase) : wp (do
      setSelf fun s => { s with delegateStarted := true }
      callDelegate (.headersReceived startLine p.headers)) (fun _ c' => c'.Listens handed ∧ c'.self.finished = false)
      (fun _ => Listens handed) ⟨c₂.conn, { c₂.self with phase }⟩ := by
    rw [setSelf, wp_bind, wp_modify]
    refine callDelegate_wp
      (fun hd => ⟨⟨h₂.block, fun hnone => Bool.noConfusion (hd.symm.trans hnone), fun _ => ?_⟩, hopen₂⟩)
      fun hd _ => h₂.with rfl rfl rfl fun hsome => Bool.noConfusion (hd.symm.trans hsome)
    have hcalls : (Ctx.logged ⟨c₂.conn, { c₂.self with phase, delegateStarted := true }⟩
        (.called c₂.self.streamId (.headersReceived startLine p.headers))).calls =
          c₂.calls ++ [.headersReceived startLine p.headers] := calls_called
    exact hcalls ▸ (h₂.receipt hd).starts hphase₂ hopen₂ phase rfl fun hcall => by cases hcall
  rw [wp_bind, wp_when]
  refine ⟨fun _ => ?_, fun _ => started c₂.self.phase⟩
  rw [setSelf, wp_modify]
  exact started .body

theorem parseBlock_heard (h : c.Listens handed) (hopen : c.self.finished = false)
    (hends : frame.has .endStream = true → ∃ f ∈ handed, f.Ends) (data : Bytes) :
    wp (parseBlock frame data) (fun _ => Listens handed) (fun _ => Listens handed) c := by
  have passing {α : Type} {m : OnStream α} (hm : Passing m)
    {c : Ctx} (h : c.Listens handed) (hopen : c.self.finished = false) :
      wp m (fun _ c' => c'.Listens handed ∧ c'.self.finished = false) (fun _ => Listens handed) c :=
    hm.wp trivial (fun _ _ _ hp => ⟨h.passes hp, (congrArg (fun t => t.2.2.1) hp.self).trans hopen⟩)
      fun _ _ _ hp => h.passes hp
  rw [parseBlock, wp_bind]
  refine wp_mono (passing stripPriority_keeps h hopen) ?_ fun _ _ h' => h'
  rintro data c₁ ⟨h₁, hopen₁⟩
  rw [wp_bind]
  refine wp_mono (passing decodeHeaders_passing h₁ hopen₁) ?_ fun _ _ h' => h'
  rintro headerList c₂ ⟨h₂, hopen₂⟩
  rw [wp_bind, wp_get, wp_bind]
  cases addHeaders c₂.conn.params.unicode c₂.conn.isClient c₂.self.streamId
    ⟨[], .empty, c₂.self.phase = .trailers⟩ headerList with
  | error => exact h₂
  | ok p =>
    have hstart : wp (when (c₂.self.phase = .headers) (startRequest p))
        (fun _ c' => c'.Listens handed ∧ c'.self.finished = false) (fun _ => Listens handed) c₂ := by
      rw [wp_when]
      exact ⟨fun hphase => startRequest_heard h₂ hphase hopen₂, fun _ => ⟨h₂, hopen₂⟩⟩
    refine wp_bind.mpr (wp_mono hstart ?_ fun _ _ h' => h')
    rintro _ c₃ ⟨h₃, hopen₃⟩
    rw [wp_bind]
    refine wp_mono (maybeEndStream_heard h₃ hopen₃ hends) (fun _ c₄ h₄ => ?_) fun _ _ h' => h'
    rw [wp_bind, wp_get, wp_check]
    exact ⟨fun _ => h₄, fun _ => h₄⟩

/-- A header frame whose flags are those of one that has been handed on. -/
theorem appendHeaderFrame_heard (h : c.Listens handed) (hopen : c.self.finished = false)
    (hends : c.self.headerFrames = [] → frame.has .endStream = true → ∃ f ∈ handed, f.Ends) :
    wp (appendHeaderFrame frame) (fun _ => Listens handed) (fun _ => Listens handed) c := by
  have happended : (⟨c.conn, { c.self with headerFrames := c.self.headerFrames ++ [frame] }⟩ : Ctx).Listens handed := by
    refine ⟨fun first hfirst => ?_, h.absent, fun hd => (h.receipt hd).congr_frames⟩
    cases hframes : c.self.headerFrames with
    | nil =>
      dsimp only at hfirst
      rw [hframes, List.nil_append, List.head?_cons, Option.some.injEq] at hfirst
      exact hfirst ▸ hends hframes
    | cons first' rest =>
      dsimp only at hfirst
      rw [hframes, List.cons_append, List.head?_cons] at hfirst
      exact h.block first (by rwa [hframes, List.head?_cons])
  rw [appendHeaderFrame, setSelf, wp_bind, wp_modify, wp_bind]
  have hkept : wp checkHeaderLength (fun _ c' => c'.self.finished = false) (fun _ _ => True)
      ⟨c.conn, { c.self with headerFrames := c.self.headerFrames ++ [frame] }⟩ := checkHeaderLength_finished hopen
  refine wp_mono (wp_and (checkHeaderLength_heard happended) hkept) ?_ fun _ _ h' => h'.1
  rintro _ c₁ ⟨h₁, hopen₁⟩
  rw [wp_when]
  refine ⟨fun _ => ?_, fun _ => h₁⟩
  rw [parseHeaders, wp_bind, wp_get]
  cases hframes : c₁.self.headerFrames with
  | nil => exact h₁
  | cons first rest =>
    dsimp only
    rw [setSelf, wp_bind, wp_modify]
    refine parseBlock_heard (c := ⟨c₁.conn, { c₁.self with headerFrames := [] }⟩)
      ⟨fun _ hfirst => (by cases hfirst), h₁.absent, fun hd => ?_⟩ hopen₁
        (h₁.block first (by rw [hframes, List.head?_cons])) _
    exact (h₁.receipt hd).congr_frames

/-- What remains to be said of a frame that a stream has been handed: unless an error
ends the loop, it counts. -/
def Counted (handed : List Frame) (frame : Frame) (e : PyException) (c : Ctx) : Prop :=
  c.Listens (handed ++ [frame]) ∨ c.Listens handed ∧ Fatal (.error e)

theorem deliverData_heard {later : Bool} {data : Bytes} (h : c.Listens handed) (hopen : c.self.finished = false)
    (hphase : c.self.phase ≠ .headers) (hstarted : c.self.delegateStarted = true) (hbody : frame.dataBody = data)
    (hpos : ∀ r, c.self.incomingContentRemaining = some r → 0 ≤ r - data.length) :
    wp (deliverData later data) (fun _ c' => c'.Listens (handed ++ [frame]) ∧ c'.self.finished = false)
      (fun e => Counted handed frame e)
      (c.charged data) := by
  rw [deliverData, wp_bind]
  refine callDelegate_wp (fun hd => ?_) fun hd e => .inl ?_
  · have hcalled : ((c.charged data).logged (.called c.self.streamId (.dataReceived data))).Listens
        (handed ++ [frame]) := by
      refine ⟨h.block_more, fun hnone => Bool.noConfusion (hd.symm.trans hnone), fun _ => ?_⟩
      have hcalls : ((c.charged data).logged (.called c.self.streamId (.dataReceived data))).calls =
          c.calls ++ [.dataReceived data] := calls_called
      exact hcalls ▸ ((h.receipt hd).counts hopen hphase hbody hpos).1 hstarted
    have hcredit : Passing (if later then
        setSelf fun s => { s with pendingCredits := s.pendingCredits ++ [data.length] }
        else sendWindowUpdate data.length) :=
      .ite (fun _ => setSelf_passing fun _ => rfl) fun _ => sendWindowUpdate_passing
    exact hcredit.wp trivial
      (fun _ _ _ hp => ⟨hcalled.passes hp, (congrArg (fun t => t.2.2.1) hp.self).trans hopen⟩)
      fun _ _ _ hp => .inl (hcalled.passes hp)
  · exact ⟨h.block_more, h.absent, fun hsome => Bool.noConfusion (hd.symm.trans hsome)⟩

theorem handleDataFrame_heard {later : Bool} (h : c.Listens handed)
    (hopen : c.self.finished = false) (htype : frame.type = .data) :
    wp (handleDataFrame frame later) (fun _ => Listens (handed ++ [frame])) (fun e => Counted handed frame e) c := by
  rw [handleDataFrame, wp_bind, wp_get, wp_bind, wp_check]
  refine ⟨fun _ => .inr ⟨h, _, rfl, fun _ _ he => by cases he⟩, fun _ => ?_⟩
  rw [wp_bind, wp_check]
  refine ⟨fun _ => .inr ⟨h, _, rfl, fun _ _ he => by cases he⟩, fun _ => ?_⟩
  rw [setSelf, wp_bind, wp_modify]
  have hphase : HTTPPhase.body ≠ .headers := by decide
  have h₁ : (⟨c.conn, { c.self with phase := .body }⟩ : Ctx).Listens handed :=
    h.with rfl rfl rfl fun hd => (h.receipt hd).withPhase hphase
  cases hpadding : frame.withoutPadding with
  | error e => exact .inl (h₁.more (Frame.dataBody_error hpadding))
  | ok f =>
    have hbody : frame.dataBody = f.data := Frame.dataBody_ok htype hpadding
    obtain ⟨hftype, hflags, -⟩ := Frame.withoutPadding_same hpadding
    have hends : f.has .endStream = true → ∃ g ∈ handed ++ [frame], g.Ends := fun hflag =>
      ⟨frame, by simp, by rwa [← Frame.has_congr hflags], .inr htype⟩
    have ends {c : Ctx} (h : c.Listens (handed ++ [frame])) (hopen : c.self.finished = false) :
        wp (do
          let _ ← maybeEndStream f
          pure ()) (fun _ => Listens (handed ++ [frame])) (fun e => Counted handed frame e) c := by
      rw [wp_bind]
      exact wp_mono (maybeEndStream_heard h hopen hends) (fun _ _ h' => h') fun _ _ h' => .inl h'
    rw [show (Prog.ofExcept (.ok f) : OnStream Frame) = pure f from rfl, wp_bind, wp_pure, wp_bind]
    refine wp_mono countIncoming_wp ?_ ?_
    · rintro _ _ ⟨hpos, rfl⟩
      rw [wp_bind, wp_when]
      refine ⟨fun hdeliver => ?_, fun hkeep => ?_⟩
      · refine wp_mono (deliverData_heard h₁ hopen hphase hdeliver.2 hbody hpos) ?_ fun _ _ h' => h'
        rintro _ c₂ ⟨h₂, hopen₂⟩
        exact ends h₂ hopen₂
      · have hskip : f.data = [] ∨ c.self.delegateStarted = false := by
          rcases not_and_or.mp hkeep with hnil | hstarted
          · exact .inl (not_not.mp hnil)
          · exact .inr (Bool.eq_false_iff.mpr hstarted)
        exact ends ⟨h.block_more, h.absent, fun hd => ((h₁.receipt hd).counts hopen hphase hbody hpos).2 hskip⟩ hopen
    · rintro _ _ ⟨remaining, r, -, hlt, rfl⟩
      exact .inl ⟨h.block_more, h.absent, fun hd => (h₁.receipt hd).overdrawn hopen hphase hlt⟩

theorem handleHeadersFrame_heard (h : c.Listens handed) (hopen : c.self.finished = false)
    (hends : frame.has .endStream = true → ∃ f ∈ handed, f.Ends) :
    wp (handleHeadersFrame frame) (fun _ => Listens handed) (fun _ => Listens handed) c := by
  have append {c : Ctx} (h : c.Listens handed) (hopen : c.self.finished = false) :
      wp (ofExcept frame.withoutPadding >>= appendHeaderFrame)
        (fun _ => Listens handed) (fun _ => Listens handed) c := by
    cases hpadding : frame.withoutPadding with
    | error e => exact h
    | ok f =>
      refine @appendHeaderFrame_heard c handed f h hopen fun _ hflag => hends ?_
      rwa [← Frame.has_congr (Frame.withoutPadding_same hpadding).2.1]
  rw [handleHeadersFrame, wp_bind, wp_get, wp_bind, wp_when]
  refine ⟨fun _ => append (h.with rfl rfl rfl fun hd => (h.receipt hd).withPhase (by decide)) hopen,
    fun _ => append h hopen⟩

/-- What a stream has got of the body after one more frame. -/
theorem handleFrame_heard {later : Bool} (h : c.Listens handed) :
    wp (handleFrame frame later) (fun _ => Listens (handed ++ [frame])) (fun e => Counted handed frame e) c := by
  have other (htype : frame.type ≠ .data) {m : OnStream Unit}
      (hm : c.Listens (handed ++ [frame]) →
        wp m (fun _ => Listens (handed ++ [frame])) (fun _ => Listens (handed ++ [frame])) c) :
      wp m (fun _ => Listens (handed ++ [frame])) (fun e => Counted handed frame e) c :=
    wp_mono (hm (h.more (Frame.dataBody_of_ne htype))) (fun _ _ h' => h') fun _ _ h' => .inl h'
  have passing (htype : frame.type ≠ .data) {m : OnStream Unit} (hm : Passing m) :
      wp m (fun _ => Listens (handed ++ [frame])) (fun e => Counted handed frame e) c :=
    other htype fun h' => hm.wp trivial (fun _ _ _ hp => h'.passes hp) fun _ _ _ hp => h'.passes hp
  have unfinished {m : OnStream Unit} (hm : c.self.finished = false →
      wp m (fun _ => Listens (handed ++ [frame])) (fun e => Counted handed frame e) c) :
      wp (do
        check (c.self.finished = true) (.streamError c.self.streamId .streamClosed)
        m) (fun _ => Listens (handed ++ [frame])) (fun e => Counted handed frame e) c := by
    rw [wp_bind, wp_check]
    exact ⟨fun hdone => .inl ⟨h.block_more, h.absent, fun hd => (h.receipt hd).late hdone⟩,
      fun hopen => hm (Bool.eq_false_iff.mpr hopen)⟩
  rw [handleFrame, wp_bind, wp_get]
  cases htype : frame.type with
  | priority => exact passing (by simp [htype]) handlePriorityFrame_keeps
  | rstStream =>
    refine other (by simp [htype]) fun h' => ?_
    rw [handleRstStreamFrame, wp_bind, wp_get, wp_bind, wp_check]
    refine ⟨fun _ => h', fun _ => ?_⟩
    rw [wp_when]
    exact ⟨fun _ => callDelegate_heard h' rfl fun hcall => (by cases hcall), fun _ => h'⟩
  | windowUpdate =>
    refine passing (by simp [htype]) (.get_bind fun _ _ => .bind (fun _ _ => ⟨trivial, rfl, .refl⟩) fun _ => ?_)
    exact fun _ _ => ⟨trivial, rfl, .snoc rfl⟩
  | settings | goaway | pushPromise => exact .inl (h.more (Frame.dataBody_of_ne (by simp [htype])))
  | ping | unknown => exact unfinished fun _ => h.more (Frame.dataBody_of_ne (by simp [htype]))
  | data => exact unfinished fun hopen => handleDataFrame_heard h hopen htype
  | continuation =>
    refine unfinished fun hopen => other (by simp [htype]) fun h' => ?_
    rw [handleContinuationFrame, wp_bind, wp_get, wp_bind, wp_check]
    exact ⟨fun _ => h', fun hframes => appendHeaderFrame_heard h' hopen fun hnil => absurd hnil hframes⟩
  | headers =>
    refine unfinished fun hopen => other (by simp [htype]) fun h' => ?_
    exact handleHeadersFrame_heard h' hopen fun hflag => ⟨frame, by simp, hflag, .inl htype⟩

theorem handleFrame_hasDelegate {later : Bool} :
    ((handleFrame frame later).run c).2.self.hasDelegate = c.self.hasDelegate := by
  have sends {c' c'' : Ctx} {i : Nat} (h : SendsOnly i c' c'') (hc : c'.self.hasDelegate = c.self.hasDelegate) :
      c''.self.hasDelegate = c.self.hasDelegate := (congrArg (fun t => t.2.1) h.self).trans hc
  refine handleFrame_preserves (I := fun c' => c'.self.hasDelegate = c.self.hasDelegate)
    (fun _ _ hc hr => (congrArg (fun t => t.2.1) hr.self).trans hc)
      (fun c' hc => sends (writeHeaders_sends c' rfl).2 hc)
    (fun c' hc => sends (finish_sends c' rfl).2 hc) (fun _ c' hc => ?_) rfl
  have hkept : Keeps (fun c' : Ctx => c'.self.hasDelegate = c.self.hasDelegate) Anything
      (handleWindowUpdateFrame frame) :=
    .get_bind fun _ _ => .bind (fun _ hc => ⟨hc, trivial⟩) fun _ => fun _ hc => ⟨hc, trivial⟩
  exact (hkept c' hc).1

theorem method_passes {a : System.Action} {i : Nat} {m : OnStream Unit} (ha : a.method = some (i, m)) (c : Ctx) :
    Passes c (m.run c).2 := by
  rcases method_sends ha with hm | ⟨k, rfl⟩
  · exact (hm c.self.streamId c rfl).2.passes
  · have hresolve : Passing (resolveData k) :=
      .get_bind fun c _ => match c.self.pendingCredits[k]? with
        | none => .pure _
        | some _ => .bind (setSelf_passing fun _ => rfl) fun _ => sendWindowUpdate_passing
    exact (hresolve c trivial).2

end Stream

end TornadoHttp2
