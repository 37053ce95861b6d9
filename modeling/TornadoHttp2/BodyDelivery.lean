import TornadoHttp2.BodyOrder
import TornadoHttp2.Network
import TornadoHttp2.ReceivedBodies
import TornadoHttp2.SentFrames

/-! The body that the application writes at one end and the body that the delegate
gets at the other. -/

namespace TornadoHttp2

open Prog Ctx

/-- No body has been written before the header block. -/
def HeadersFirst (log : List Event) : Prop :=
  ∀ before frame after, log = before ++ .wrote frame :: after → frame.type = .headers → bodyOf before = []

section

variable {log log' es : List Event} {i : Nat} {frame : Frame}

theorem HeadersFirst.of_empty (h : bodyOf log = []) : HeadersFirst log := by
  rintro before frame after rfl -
  rw [bodyOf_append, List.append_eq_nil_iff] at h
  exact h.1

theorem HeadersFirst.append (h : HeadersFirst log) (hes : ∀ e ∈ es, e.writes fun f => f.type ≠ .headers) :
    HeadersFirst (log ++ es) := by
  intro before frame after hlog htype
  have other (hmem : .wrote frame ∈ es) : bodyOf before = [] := absurd htype (hes _ hmem frame rfl)
  rcases List.append_eq_append_iff.mp hlog with ⟨mid, -, hes'⟩ | ⟨mid, hlog', hmid⟩
  · exact other (by simp [hes'])
  · cases mid with
    | nil => exact other ((show .wrote frame :: after = es from hmid) ▸ List.mem_cons_self)
    | cons e mid =>
      obtain ⟨rfl, -⟩ := List.cons.inj hmid
      exact h before frame mid hlog' htype

/-- Nothing but `write_headers` writes a header block. -/
theorem HeadersFirst.plain (h : HeadersFirst log) (hes : ∀ e ∈ es, e.writes Frame.Plain) :
    HeadersFirst (log ++ logOf i es) :=
  h.append fun e he f hf => (hes e (mem_logOf.mp he).1 f hf).type

end

/-- What a stream writes when its calls come in order. -/
structure Heading (s : Stream) (log : List Event) : Prop where
  sends : SendsInOrder s log
  heads : CallsInOrder log → HeadersFirst log

abbrev HeadsBody (c : Ctx) : Prop := Own Heading (fun _ => True) c

namespace HeadsBody

variable {c c' : Ctx}

theorem sends (h : HeadsBody c) : SendsBody c := ⟨h.1.sends, trivial⟩

theorem plain (h : HeadsBody c) (hs : SendsBody c') (hid : c'.self.streamId = c.self.streamId)
    (hlog : c.WritesOnly Frame.Plain c') : HeadsBody c' := by
  refine ⟨⟨hs.1, fun hcalls => ?_⟩, trivial⟩
  obtain ⟨es, hlog, hes⟩ := hlog.conn.log
  rw [hid, hlog, logOf_append] at hcalls ⊢
  exact (h.1.heads hcalls.of_append).plain hes

/-- The block comes before everything else of the stream. -/
theorem heads (h : HeadsBody c) (hs : SendsBody c') (hid : c'.self.streamId = c.self.streamId) (heads rest : List Event)
    (hlog : c'.conn.log = c.conn.log ++ .issued c.self.streamId .writeHeaders :: heads ++ rest)
    (hheads : bodyOf heads = []) (hrest : ∀ e ∈ rest, e.writes Frame.Plain) : HeadsBody c' := by
  refine ⟨⟨hs.1, fun hcalls => ?_⟩, trivial⟩
  have hissued : logOf c.self.streamId (.issued c.self.streamId .writeHeaders :: heads) =
      .issued c.self.streamId .writeHeaders :: logOf c.self.streamId heads :=
        List.filter_cons_of_pos (decide_eq_true rfl)
  rw [hid, hlog, List.append_assoc, logOf_append, logOf_append, hissued] at hcalls ⊢
  rw [← List.append_assoc] at hcalls ⊢
  refine HeadersFirst.plain (.of_empty ?_) hrest
  have hbefore : CallsInOrder (logOf c.self.streamId c.conn.log ++ [.issued c.self.streamId .writeHeaders]) := by
    rw [← List.singleton_append, ← List.append_assoc] at hcalls
    exact hcalls.of_append.of_append
  obtain ⟨phase, hsending⟩ := h.1.sends hbefore.of_append
  have hidle : phase = .idle := by
    by_contra hne
    rw [CallsInOrder, callPhase_append, hsending.calls] at hbefore
    simp [CallPhase.next, hne] at hbefore
  have hnone : bodyOf (logOf c.self.streamId c.conn.log) = [] :=
    List.prefix_nil.mp ((hsending.idle hidle).1 ▸ hsending.sent)
  have hown : bodyOf (logOf c.self.streamId heads) = [] :=
    List.flatMap_eq_nil_iff.mpr fun e he => List.flatMap_eq_nil_iff.mp hheads e (mem_logOf.mp he).1
  rw [bodyOf_append, hnone, List.nil_append]
  exact hown

theorem writeHeaders {startLine : StartLine Bytes} {headers : HTTPHeaders Bytes}
    {chunk : Bytes} {callback : Option Nat} (h : HeadsBody c) :
    HeadsBody ((Stream.writeHeaders startLine headers chunk callback).run c).2 := by
  have hsends : SendsBody ((Stream.writeHeaders startLine headers chunk callback).run c).2 := h.sends.writeHeaders
  have hid : ((Stream.writeHeaders startLine headers chunk callback).run c).2.self.streamId = c.self.streamId :=
    (Stream.writeHeaders_sends c rfl).1
  have hw : WritesHeaders c startLine headers chunk callback
      ((Stream.writeHeaders startLine headers chunk callback).run c).2 :=
    wp_state.mp Stream.writeHeaders_wp
  revert hsends hid hw
  generalize ((Stream.writeHeaders startLine headers chunk callback).run c).2 = c'
  intro hsends hid hw
  cases hw with
  | failed hp hr =>
    have hissued : c.WritesOnly Frame.Plain (c.issued .writeHeaders) := .logged nofun
    exact h.plain hsends hid ((hissued.trans (.prepared hp)).trans (.resets hr))
  | written hheads hr =>
    cases hheads with
    | @mk data c₁ _ _ hp _ hwrite =>
      obtain ⟨rest, hrest, hplain⟩ := ((Ctx.WritesOnly.writes hwrite).trans (.resets hr)).conn.log
      have hblock : (Event.wrote (c.headersFrame data)).body = [] := rfl
      have hlog : ∃ declared, c₁.conn.log = c.conn.log ++ .issued c.self.streamId .writeHeaders :: declared ∧
          bodyOf declared = [] := by
        cases hp with
        | undeclared => exact ⟨[], rfl, rfl⟩
        | declared length =>
            exact ⟨[.declared c.self.streamId length],
              by simp [Ctx.prepared, Ctx.declared, Ctx.issued, Ctx.logged], rfl⟩
      obtain ⟨declared, hlog, hbody⟩ := hlog
      refine h.heads hsends hid (declared ++ [.wrote (c.headersFrame data)]) rest ?_ ?_ hplain
      · rw [hrest, Ctx.logged, hlog]
        simp
      · rw [bodyOf_append, hbody]
        exact hblock

theorem receives (h : HeadsBody c) {i : Nat} (hr : ReceivesOnly i c c') : HeadsBody c' :=
  h.plain (h.sends.receives hr) (congrArg Prod.fst hr.self) (.receives hr)

theorem finish (h : HeadsBody c) : HeadsBody (Stream.finish.run c).2 :=
  h.plain h.sends.finish (Stream.finish_sends c rfl).1 (.finishes (wp_state.mp Stream.finish_wp))

theorem method (h : HeadsBody c) {a : System.Action} {i : Nat} {m : OnStream Unit} (ha : a.method = some (i, m)) :
    HeadsBody (m.run c).2 := by
  refine Stream.method_preserves (I := HeadsBody) (fun _ _ hc hr => hc.receives hr)
    (fun _ _ _ _ _ hc => hc.writeHeaders)
    (fun _ _ c hc => hc.plain hc.sends.write (Stream.write_sends c rfl).1 (.writes (wp_state.mp Stream.write_wp)))
    (fun _ hc => hc.finish) (fun c hc => hc.plain hc.sends.reset (Stream.reset_sends c rfl).1 (.resets ?_))
    (fun _ c hc => hc.plain hc.sends.resume (Stream.resume_sends c rfl).1 (.slice (wp_state.mp ?_))) ha h
  · exact wp_state.mp (Stream.reset_wp (fun _ => .inl rfl) (.inr rfl))
  · exact Stream.resume_wp (E := fun _ c' => Slice c c')

theorem handleFrame (h : HeadsBody c) {frame : Frame} {later : Bool} :
    HeadsBody ((Stream.handleFrame frame later).run c).2 := by
  refine Stream.handleFrame_preserves (I := HeadsBody) (fun _ _ hc hr => hc.receives hr) (fun _ hc => hc.writeHeaders)
    (fun _ hc => hc.finish) (fun _ c hc => ?_) h
  refine hc.plain hc.sends.handleWindowUpdateFrame (Stream.handleWindowUpdateFrame_acts frame c rfl).1 ?_
  have hwrites : Keeps (fun _ : Ctx => True) (WritesOnly Frame.Plain) (Stream.handleWindowUpdateFrame frame) :=
    .get_bind fun _ _ => .bind (fun _ _ => ⟨trivial, ⟨⟨.refl⟩⟩⟩) fun _ => Ctx.emit_writes (fun _ _ _ => trivial) nofun
  exact (hwrites c trivial).2

end HeadsBody

theorem stable_heading : Stable Heading fun _ => True where
  quiet _ _ := trivial
  noise he h := by
    refine ⟨stable_sendsInOrder.noise he h.sends, fun hcalls => (h.heads hcalls.of_append).append fun _ he' f hf => ?_⟩
    obtain rfl := hf.symm.trans (List.mem_singleton.mp he')
    rcases he with he | he <;> rw [he] <;> exact nofun
  new requestStartLine hQ hlog := by
    refine ⟨stable_sendsInOrder.new requestStartLine hQ hlog, fun _ => .of_empty (bodyOf_silent fun e he => ?_)⟩
    rcases List.mem_append.mp he with he | he
    · exact (hlog e he).isSilent
    · exact List.mem_singleton.mp he ▸ ⟨rfl, rfl⟩

/-- Every stream writes its header block before its body. -/
structure HeadingInvariant (s : System) : Prop where
  wellFormed : s.WellFormed
  streams : s.All Heading

theorem HeadingInvariant.run (isClient : Bool) (params : Params) (actions : List System.Action) :
    HeadingInvariant ((System.start isClient params).run actions) := by
  refine actions.foldlRecOn System.step ⟨.start isClient params, by simp [System.All, System.start]⟩ fun s hs a _ => ?_
  have hstep := System.All.step (a := a) stable_heading hs.wellFormed hs.streams trivial
    (fun _ _ _ _ _ _ _ _ => trivial) (fun _ _ _ _ _ _ _ _ hc => HeadsBody.handleFrame hc)
    (fun _ _ _ ha _ _ hc => HeadsBody.method hc ha)
  exact ⟨hs.wellFormed.step a, hstep.1⟩

/-! The frames of a body. -/

section

variable {log : List Event} {i : Nat} {f : Frame}

theorem Frame.Regular.dataBody (h : f.Regular) : f.dataBody = (Event.wrote f).body := by
  rw [Event.body]
  split
  · rename_i htype
    refine dataBody_ok htype ?_
    have hpadded : f.has .padded = false := by
      rw [Regular, htype] at h
      rcases h with h | ⟨h, -⟩ <;> rw [has, h] <;> decide
    rw [withoutPadding, hpadded]
    rfl
  · exact dataBody_of_ne ‹_›

theorem Frame.Ends.isEnd (h : f.Ends) : (Event.wrote f).isEnd = true := by
  obtain ⟨hflag, htype⟩ := h
  rcases htype with htype | htype <;> simp [Event.isEnd, htype, hflag]

theorem framesOf_logOf (log : List Event) (i : Nat) :
    framesOf (logOf i log) = (framesOf log).filter fun f => f.streamId = i := by
  induction log with
  | nil => rfl
  | cons e log ih =>
    have hone : framesOf (logOf i [e]) = (framesOf [e]).filter fun f => f.streamId = i := by
      by_cases hid : e.streamId = i
      · rw [logOf_self hid]
        cases e with
        | wrote frame => simp [framesOf, Event.frame, show frame.streamId = i from hid]
        | _ => rfl
      · rw [logOf_other hid]
        cases e with
        | wrote frame => simp [framesOf, Event.frame, show frame.streamId ≠ i from hid]
        | _ => rfl
    rw [← List.singleton_append, logOf_append, framesOf_append, framesOf_append, List.filter_append, ih, hone]

theorem bodyIn_framesOf (h : ∀ f ∈ framesOf log, f.Regular) : bodyIn (framesOf log) = bodyOf log := by
  induction log with
  | nil => rfl
  | cons e log ih =>
    rw [← List.singleton_append, framesOf_append] at h ⊢
    rw [bodyIn_append, bodyOf_append, ih fun f hf => h f (List.mem_append_right _ hf)]
    congr 1
    cases e with
    | wrote frame => simp [bodyIn, bodyOf, framesOf, Event.frame, (h frame (by simp [framesOf, Event.frame])).dataBody]
    | _ => rfl

/-- What has been written when a frame is. -/
theorem framesOf_split {before after : List Frame} (h : framesOf log = before ++ f :: after) :
    ∃ log₁ log₂, log = log₁ ++ .wrote f :: log₂ ∧ framesOf log₁ = before := by
  obtain ⟨log₁, rest, rfl, hbefore, hrest⟩ := List.filterMap_eq_append_iff.mp h
  obtain ⟨silent, e, log₂, rfl, hsilent, he, -⟩ := List.filterMap_eq_cons_iff.mp hrest
  have hwrote : e = .wrote f := by cases e <;> simp_all [Event.frame]
  have hnone : framesOf silent = [] := List.filterMap_eq_nil_iff.mpr hsilent
  refine ⟨log₁ ++ silent, log₂, by rw [hwrote, List.append_assoc], ?_⟩
  rw [framesOf_append, hnone, List.append_nil]
  exact hbefore

end

/-- What an end has written of the body of a stream. -/
structure Source (log : List Event) : Prop where
  sent : bodyOf log <+: acceptedOf log
  heads : HeadersFirst log
  complete {before after : List Event} {e : Event} : log = before ++ e :: after → e.isEnd = true →
    bodyOf before = acceptedOf log ∧ ∃ j, .issued j .finish ∈ log

theorem callPhase_closed {log : List Event} (h : callPhase log = some .closed) : ∃ j, .issued j .finish ∈ log := by
  induction log using List.reverseRecOn with
  | nil => cases h
  | append_singleton log e ih =>
    rw [callPhase_append] at h
    obtain ⟨phase, hphase, hnext⟩ := Option.bind_eq_some_iff.mp h
    replace hnext : phase.next e = some .closed := by simpa using hnext
    have earlier (hsame : phase = .closed) : ∃ j, .issued j .finish ∈ log ++ [e] := by
      obtain ⟨j, hj⟩ := ih (hsame ▸ hphase)
      exact ⟨j, List.mem_append_left _ hj⟩
    cases e with
    | issued j call =>
      cases call with
      | writeHeaders => simp [CallPhase.next] at hnext
      | finish => exact ⟨j, by simp⟩
    | accepted => simp [CallPhase.next] at hnext
    | _ => exact earlier (Option.some.inj hnext)

theorem HeadingInvariant.source {s : System} (h : HeadingInvariant s) {i : Nat} (hi : i ≠ 0)
    (hcalls : CallsInOrder (logOf i s.conn.log)) : Source (logOf i s.conn.log) := by
  cases hself : s.streams i with
  | none =>
    have hsilent : ∀ e ∈ logOf i s.conn.log, e.isSilent := fun e he =>
      (h.wellFormed.absent hi hself e (mem_logOf.mp he).1 (mem_logOf.mp he).2).isSilent
    refine ⟨?_, .of_empty (bodyOf_silent hsilent), fun hlog hend => ?_⟩
    · rw [bodyOf_silent hsilent]
      exact List.nil_prefix
    · have hopen := (hsilent _ (hlog.symm ▸ List.mem_append_right _ List.mem_cons_self)).parts.2.2.2
      exact absurd (hend.symm.trans hopen) nofun
  | some self =>
    have hheading := h.streams hself
    obtain ⟨phase, hs⟩ := hheading.sends hcalls
    refine ⟨hs.sent, hheading.heads hcalls, fun hlog hend => ?_⟩
    rcases hs.ended with hopen | ⟨rfl, hlock, hlast⟩
    · exact absurd (hend.symm.trans (hopen _ (hlog.symm ▸ List.mem_append_right _ List.mem_cons_self))) nofun
    · have horder := hs.order (by simp [hlock])
      rw [hlock] at horder
      have hall : bodyOf (logOf i s.conn.log) = acceptedOf (logOf i s.conn.log) := by
        simpa [WriteLock.pending, WriteLock.jobs] using horder
      exact ⟨(hlast.split hlog hend).1.trans hall, callPhase_closed hs.calls⟩

section

variable {log : List Event} {before after frames : List Frame} {f : Frame}

theorem bodyIn_extends (h : before <+: after) : bodyIn before <+: bodyIn after := prefix_flatMap h

/-- What has been read when a frame is. -/
theorem Source.read (h : Source log) (hregular : ∀ f ∈ framesOf log, f.Regular)
    (hread : before ++ f :: after <+: framesOf log) :
    (f.type = .headers → bodyIn before = []) ∧
      (f.Ends → bodyIn before = acceptedOf log ∧ ∃ j, .issued j .finish ∈ log) := by
  obtain ⟨more, hmore⟩ := hread
  rw [List.append_assoc, List.cons_append] at hmore
  obtain ⟨log₁, log₂, rfl, hbefore⟩ := framesOf_split hmore.symm
  have hbody : bodyIn before = bodyOf log₁ := by
    rw [← hbefore, bodyIn_framesOf fun f hf => hregular f (by rw [framesOf_append]; exact List.mem_append_left _ hf)]
  rw [hbody]
  exact ⟨fun htype => h.heads log₁ f log₂ rfl htype, fun hends => h.complete rfl hends.isEnd⟩

/-- What a stream hands on of what the source has written. -/
theorem System.HearsOn.of_source {s : System} {i : Nat} {self : Stream} (h : s.HearsOn i self) (hsource : Source log)
    (hregular : ∀ f ∈ framesOf log, f.Regular) (hread : s.readOn i <+: framesOf log) :
    delivered (s.callsOn i) <+: acceptedOf log ∧
      (.finish ∈ s.callsOn i → delivered (s.callsOn i) = acceptedOf log ∧ ∃ j, .issued j .finish ∈ log) := by
  obtain ⟨refused, handed, rest, hsplit, -, hdelegate, hheard⟩ := h
  rw [hsplit] at hread
  by_cases hd : self.hasDelegate = true
  · have hreceipt := hheard.receipt hd
    have hrefused : bodyIn refused = [] := by
      rcases (hdelegate hd).2 with hnone | ⟨f, hf, htype⟩
      · exact hnone
      · obtain ⟨before, after, rfl⟩ := List.append_of_mem hf
        have hheads :=
          (hsource.read hregular (by simpa using hread : (refused ++ before) ++ f :: (after ++ rest) <+: _)).1 htype
        exact List.prefix_nil.mp (hheads ▸ bodyIn_extends (List.prefix_append ..))
    have hin : delivered (s.callsOn i) <+: acceptedOf log := by
      have hall : bodyIn (refused ++ handed) <+: acceptedOf log := by
        refine (bodyIn_extends ((List.prefix_append ..).trans hread)).trans ?_
        rw [bodyIn_framesOf hregular]
        exact hsource.sent
      rw [bodyIn_append, hrefused, List.nil_append] at hall
      exact hreceipt.in_order.trans hall
    refine ⟨hin, fun hfinish => ?_⟩
    obtain ⟨before, after, rfl, hbody, f, hf, hends⟩ := hreceipt.complete hfinish
    obtain ⟨before', after', rfl⟩ := List.append_of_mem hf
    have hread' : (refused ++ before') ++ f :: (after' ++ after ++ rest) <+: framesOf log := by simpa using hread
    obtain ⟨hcomplete, hcalled⟩ := (hsource.read hregular hread').2 hends
    rw [bodyIn_append, hrefused, List.nil_append] at hcomplete
    have hall : acceptedOf log <+: delivered (s.callsOn i) := by
      rw [← hcomplete, hbody]
      exact bodyIn_extends (List.prefix_append ..)
    exact ⟨hin.eq_of_length_le hall.length_le, hcalled⟩
  · rw [hheard.absent (Bool.eq_false_iff.mpr hd)]
    refine ⟨?_, nofun⟩
    exact List.nil_prefix

end

namespace Network

/-- What a stream hands on of what the other end has written. -/
theorem handed_on (params : Bool → Params) (actions : List Action) (b : Bool) {i : Nat} {self : Stream}
    (hself : (((start params).run actions).ends b).streams i = some self)
    (hcalls : CallsInOrder (logOf i (((start params).run actions).ends !b).conn.log)) :
    let receiver := ((start params).run actions).ends b
    let log := logOf i (((start params).run actions).ends !b).conn.log
    delivered (receiver.callsOn i) <+: acceptedOf log ∧
      (.finish ∈ receiver.callsOn i → delivered (receiver.callsOn i) = acceptedOf log ∧
        ∃ j, .issued j .finish ∈ log) := by
  intro receiver log
  obtain ⟨steps, hsteps⟩ := ends_run params actions b
  obtain ⟨steps', hsteps'⟩ := ends_run params actions !b
  have hhears : receiver.Hears := by
    rw [show receiver = _ from hsteps]
    exact .run ..
  have hread : receiver.readOn i <+: framesOf log := by
    rw [framesOf_logOf]
    exact (received_in_order params actions b).filter _
  have hi : i ≠ 0 := by
    rintro rfl
    cases hhears.wellFormed.zero.symm.trans hself
  have hregular : ∀ f ∈ framesOf log, f.Regular := fun f hf => by
    rw [framesOf_logOf] at hf
    have hproper := System.written_proper (!b) (params !b) steps' f
    rw [← hsteps'] at hproper
    exact (hproper (List.mem_filter.mp hf).1).regular
  have hheading : HeadingInvariant (((start params).run actions).ends !b) := hsteps' ▸ .run ..
  exact (hhears.known hself).of_source (hheading.source hi hcalls) hregular hread

/-- Nothing is handed on of a stream that there is not. -/
theorem handed_absent (params : Bool → Params) (actions : List Action) (b : Bool) {i : Nat}
    (hself : (((start params).run actions).ends b).streams i = none) :
    (((start params).run actions).ends b).callsOn i = [] := by
  obtain ⟨steps, hsteps⟩ := ends_run params actions b
  have hhears : (((start params).run actions).ends b).Hears := by
    rw [hsteps]
    exact .run ..
  exact hhears.wellFormed.delegateCalls_absent hself

/-- What the application writes to a stream at one end reaches the delegate of the
stream at the other end in order and without gaps, and the delegate is told of the
end only after `finish` was called and all of the body has been delivered. -/
theorem body_delivered (params : Bool → Params) (actions : List Action) (b : Bool) (i : Nat) :
    let receiver := ((start params).run actions).ends b
    let log := logOf i (((start params).run actions).ends !b).conn.log
    CallsInOrder log → delivered (receiver.callsOn i) <+: acceptedOf log ∧
      (.finish ∈ receiver.callsOn i → delivered (receiver.callsOn i) = acceptedOf log ∧ .issued i .finish ∈ log) := by
  intro receiver log hcalls
  cases hself : receiver.streams i with
  | none =>
    have hnone : receiver.callsOn i = [] := handed_absent params actions b hself
    rw [hnone]
    refine ⟨?_, nofun⟩
    exact List.nil_prefix
  | some self =>
    obtain ⟨hin, hfinish⟩ := handed_on params actions b hself hcalls
    refine ⟨hin, fun h => ⟨(hfinish h).1, ?_⟩⟩
    obtain ⟨-, j, hj⟩ := hfinish h
    obtain rfl : j = i := (mem_logOf.mp hj).2
    exact hj

/-- A request with a body in two pieces, of which the second waits until the first is flushed. -/
def postActions : List Action :=
  [.act true .createStream,
    .act true (.writeHeaders 1 (.request (ascii "POST") (ascii "/")) .empty [1, 2] none),
    .act true (.resume 1 true), .act true (.resume 1 true), .act true (.write 1 [3] none), .act true (.finish 1)] ++
    List.replicate 6 (.act true (.resume 1 true)) ++ List.replicate 5 (.deliver false false)

theorem body_delivered_post :
    let receiver := ((start fun _ => .new none .caseless).run postActions).ends false
    let log := logOf 1 (((start fun _ => .new none .caseless).run postActions).ends true).conn.log
    .finish ∈ receiver.callsOn 1 ∧ acceptedOf log = [1, 2, 3] ∧ delivered (receiver.callsOn 1) = [1, 2, 3] := by
  intro receiver log
  have hfinish : .finish ∈ receiver.callsOn 1 := by decide +kernel
  have hbody : acceptedOf log = [1, 2, 3] := by decide +kernel
  have hdelivered := body_delivered (fun _ => .new none .caseless) postActions false 1 (by decide +kernel)
  exact ⟨hfinish, hbody, (hdelivered.2 hfinish).1.trans hbody⟩

end Network

end TornadoHttp2
