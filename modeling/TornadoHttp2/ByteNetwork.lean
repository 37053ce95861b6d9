import TornadoHttp2.Endpoint
import TornadoHttp2.Network
import TornadoHttp2.SentFrames

/-! The two ends of a connection with bytes between them. However these are cut up
on their way, the ends do what they would do if whole frames were exchanged. -/

namespace TornadoHttp2

open Duplex

theorem sentBytes_eq (log : List Event) : sentBytes log = (framesOf log).flatMap Frame.encoded := by
  induction log with
  | nil => rfl
  | cons e log ih =>
    cases e with
    | wrote frame => exact congrArg (frame.encoded ++ ·) ih
    | _ => exact ih

theorem prefix_sentBytes {log log' : List Event} (h : log <+: log') :
    sentBytes log <+: sentBytes log' := prefix_flatMap h

/-- What is taken off encoded frames leaves the encoding of the others. -/
theorem takes_encoded {limit : Nat} {frames more : List Frame} {rest : Bytes} (hframed : ∀ f ∈ frames, f.Framed)
    (h : frameReader.Takes limit ((frames ++ more).flatMap Frame.encoded) frames rest) :
    rest = more.flatMap Frame.encoded := by
  induction frames generalizing limit with
  | nil =>
    cases h
    rfl
  | cons f frames ih =>
    obtain ⟨hf, hframes⟩ := List.forall_mem_cons.mp hframed
    rw [List.cons_append, List.flatMap_cons] at h
    cases h with
    | cons htake hrest =>
      obtain ⟨-, hmid⟩ :=
        Prod.mk.inj (Option.some.inj ((Option.filter_eq_some_iff.mp htake).1.symm.trans (Frame.read_encoded hf _)))
      exact ih hframes (hmid ▸ hrest)

/-- The header of the first frame, and the frame once its payload is there. -/
theorem first_frame {frames : List Frame} {rest more : Bytes} {header : FrameHeader} (hframed : ∀ f ∈ frames, f.Framed)
    (hbytes : frames.flatMap Frame.encoded = rest ++ more) (hheader : FrameHeader.unpack (rest.take 9) = some header) :
    ∃ f frames', frames = f :: frames' ∧ f.data.length = header.dataLen ∧
      (header.dataLen ≤ (rest.drop 9).length → f = header.frame ((rest.drop 9).take header.dataLen)) := by
  have hnine := FrameHeader.unpack_length hheader
  rw [List.length_take] at hnine
  cases frames with
  | nil =>
    have hempty := congrArg List.length hbytes
    rw [List.flatMap_nil, List.length_nil, List.length_append] at hempty
    omega
  | cons f frames =>
    have hread := Frame.read_encoded (hframed f List.mem_cons_self) (frames.flatMap Frame.encoded)
    rw [List.flatMap_cons] at hbytes
    rw [hbytes, Frame.read_eq, List.take_append_of_le_length (by omega), hheader, Option.bind_some] at hread
    split at hread
    · cases hread
    · rename_i hroom
      obtain ⟨hf, -⟩ := Prod.mk.inj (Option.some.inj hread)
      refine ⟨f, frames, rfl, ?_, fun hlength => ?_⟩
      · rw [← hf, FrameHeader.frame, List.length_take]
        omega
      · rw [← hf, List.drop_append_of_le_length (by omega), List.take_append_of_le_length hlength]

namespace Endpoint

variable {isClient : Bool} {params : Params} {e : Endpoint} {bytes : Bytes}

/-- After the preface an endpoint takes the steps of its connection. -/
theorem step_greeted (hreading : e.reading ≠ .preface) (a : Action) : (e.step a).reading ≠ .preface ∧
    ((e.step a).system = e.system ∨ ∃ a', (e.step a).system = e.system.step a') := by
  cases a with
  | arrive chunk => exact ⟨hreading, .inl rfl⟩
  | call a =>
    cases a with
    | receive => exact ⟨hreading, .inl rfl⟩
    | disconnect => exact ⟨hreading, .inr ⟨_, rfl⟩⟩
    | upgrade =>
      simp only [step, call, if_neg hreading]
      exact ⟨hreading, .inr ⟨_, rfl⟩⟩
    | _ =>
      simp only [step, call, if_neg hreading]
      exact ⟨hreading, .inr ⟨_, rfl⟩⟩
  | read later =>
    rw [step]
    by_cases hloop : e.system.loop = .running
    · have hread := read_cases hloop hreading later
      generalize e.read later = e' at hread ⊢
      cases hread with
      | waits => exact ⟨hreading, .inl rfl⟩
      | header => exact ⟨Reading.payload_ne _, .inl rfl⟩
      | @tooLong header _ _ _ _ hstep =>
        obtain ⟨frame, hlength⟩ := header.exists_frame
        exact ⟨Reading.header_ne, .inr ⟨_, (hstep frame hlength).symm⟩⟩
      | payload => exact ⟨Reading.header_ne, .inr ⟨_, rfl⟩⟩
    · rw [read, if_pos hloop]
      exact ⟨hreading, .inl rfl⟩

theorem Tracks.step (h : Tracks isClient params e bytes) (a : Action) :
    Tracks isClient params (e.step a) (bytes ++ a.bytes) := by
  cases a with
  | arrive chunk => exact h.arrive chunk
  | read later => simpa [Action.bytes, Endpoint.step] using h.read later
  | call a => simpa [Action.bytes, Endpoint.step] using h.call a

/-- A server that waits has written nothing. -/
theorem Tracks.log_waiting (h : Tracks isClient params e bytes) (hreading : e.reading = .preface) :
    isClient = false ∧ e.system.conn.log = [] := by
  cases h with
  | waiting closed loop hserver _ hsystem => exact ⟨hserver, congrArg (fun s => s.conn.log) hsystem⟩
  | greeted rest as hgreeted => exact absurd hreading hgreeted

theorem Tracks.isClient_eq (h : Tracks isClient params e bytes) : e.system.conn.isClient = isClient := by
  cases h with
  | waiting closed loop hserver _ hsystem =>
    have hclient : e.system.conn.isClient = (System.startUpgraded params e.request).conn.isClient :=
      congrArg (fun s => s.conn.isClient) hsystem
    rw [hclient, hserver, System.startUpgraded_isClient]
  | greeted rest as _ hrun => rw [hrun, System.run_isClient]

theorem Tracks.log_step (h : Tracks isClient params e bytes) (a : Action) :
    e.system.conn.log <+: (e.step a).system.conn.log := by
  by_cases hreading : e.reading = .preface
  · rw [(h.log_waiting hreading).2]
    exact List.nil_prefix
  · cases h with
    | waiting closed loop _ hwaiting => exact absurd hwaiting hreading
    | greeted rest as _ hrun =>
      rcases (step_greeted hreading a).2 with hsame | ⟨a', hstep⟩
      · exact hsame.symm ▸ List.prefix_refl _
      · rw [hstep]
        exact System.log_extends (hrun ▸ wellFormed_run isClient params as) a'

theorem Tracks.sent_eq (h : Tracks isClient params e bytes) :
    e.sent = (if isClient then clientPreface else []) ++ sentBytes e.system.conn.log := by
  rw [sent, h.isClient_eq]

/-- An endpoint as a party, with the bytes that have reached it. -/
def party : Duplex.Party (Endpoint × Bytes) Action UInt8 Unit where
  step e a := (e.1.step a, e.2 ++ a.bytes)
  isOwn
    | .arrive _ => false
    | _ => true
  arrival byte _ := .arrive [byte]
  sent e := e.1.sent
  taken e := e.2
  listens _ := true
  Inv e := ∃ isClient params, Tracks isClient params e.1 e.2
  inv_step a h := by
    obtain ⟨isClient, params, htracks⟩ := h
    exact ⟨isClient, params, htracks.step a⟩
  sent_step a h := by
    obtain ⟨isClient, params, htracks⟩ := h
    rw [htracks.sent_eq, (htracks.step a).sent_eq]
    exact (List.prefix_append_right_inj _).mpr (prefix_sentBytes (htracks.log_step a))
  taken_own h ha := by
    rename_i e a
    cases a with
    | arrive => cases ha
    | _ => exact List.append_nil _
  taken_arrival byte _ _ _ := .inl rfl
  listens_step _ _ _ := rfl

/-- What an endpoint does compared with a connection that gets whole frames: that
one has sent its SETTINGS even while the endpoint still waits for the preface. -/
def Matches (isClient : Bool) (params : Params) (e : Endpoint) (s : System) : Prop :=
  if e.reading = .preface then
    s = (System.start isClient params).run (e.request.toList.map fun request => .upgrade request.1 request.2)
  else e.system = s

theorem Matches.of_greeted {s : System} (h : e.Matches isClient params s) (hreading : e.reading ≠ .preface) :
    e.system = s := (if_neg hreading).mp h

end Endpoint

abbrev ByteNetwork := Duplex.Net (Endpoint × Bytes) UInt8

/-- Frames for the ends of a network, as the bytes that an endpoint has still to
read hold them. -/
def Network.Offers (n : Network) (b : Bool) (e : Endpoint) : Prop :=
  ∃ rest, e.Ahead rest ∧ ∀ header, FrameHeader.unpack (rest.take 9) = some header →
    ∃ frame frames, n.wire b = frame :: frames ∧ frame.data.length = header.dataLen ∧
      (header.dataLen ≤ (rest.drop 9).length → frame = header.frame ((rest.drop 9).take header.dataLen))

namespace Endpoint

variable {params : Params} {e : Endpoint} {bytes : Bytes} {n : Network} {b : Bool}

/-- A server that has got the preface is where it would have started. -/
theorem matches_step_waiting (h : Tracks b params e bytes) (hreading : e.reading = .preface)
    (hmatches : e.Matches b params (n.ends b)) (a : Action) :
    ∃ s, Moved System.party n b s ∧ (e.step a).Matches b params s := by
  have hends : n.ends b = _ := (if_pos hreading).mp hmatches
  have same {e' : Endpoint} (hreading' : e'.reading = .preface) (hsystem : e'.system.streams = e.system.streams) :
      ∃ s, Moved System.party n b s ∧ e'.Matches b params s := by
    refine ⟨_, .still, (if_pos hreading').mpr ?_⟩
    rw [hends, request, request, hsystem]
  cases h with
  | greeted rest as hgreeted => exact absurd hreading hgreeted
  | waiting closed loop hserver _ hsystem =>
    subst hserver
    have hends : n.ends false = System.startUpgraded params e.request := hends
    cases a with
    | arrive => exact same hreading rfl
    | call a =>
      cases a with
      | receive => exact same hreading rfl
      | disconnect => exact same hreading rfl
      | upgrade method path =>
        have hmoved : Moved System.party n false (System.party.step (n.ends false) (.upgrade method path)) := .acted rfl
        refine ⟨_, hmoved, (if_pos hreading).mpr ?_⟩
        rw [hends, step, request_eq (call_upgrade hreading hsystem method path)]
        exact System.startUpgraded_step method path
      | _ =>
        simp only [step, call, if_pos hreading]
        exact same hreading rfl
    | read later =>
      rw [step, read]
      split
      · exact same hreading rfl
      · rename_i hloop
        rw [not_not] at hloop
        rw [hreading]
        dsimp only
        split
        · exact same hreading rfl
        · have hgreet := System.greet_run (e.buffer.take clientPreface.length) e.system
          have hclosed : e.system.conn.closed = closed := congrArg (fun s => s.conn.closed) hsystem
          rw [hgreet, hclosed]
          by_cases hbad : e.buffer.take clientPreface.length ≠ clientPreface ∨ closed = true
          · simp only [if_pos hbad]
            exact same rfl rfl
          · simp only [if_neg hbad]
            obtain rfl : closed = false := Bool.eq_false_iff.mpr (not_or.mp hbad).2
            obtain rfl : loop = .running := (congrArg System.loop hsystem).symm.trans hloop
            have hgreeted : e.system.greeted = System.startUpgraded params e.request :=
              (congrArg System.greeted hsystem).trans (System.greeted_start params e.request)
            have hrunning : e.system.greeted.loop = .running := hloop
            refine ⟨_, .still, ?_⟩
            rw [if_pos hrunning]
            exact (if_neg Reading.header_ne).mpr (hgreeted.trans hends.symm)

/-- The end that gets whole frames does the same. -/
theorem matches_step_greeted (hreading : e.reading ≠ .preface) (h : e.system = n.ends b)
    (hoffers : e.system.loop = .running → n.Offers b e) (a : Action) :
    ∃ s, Moved System.party n b s ∧ (e.step a).Matches b params s := by
  have still {e' : Endpoint} (hreading' : e'.reading ≠ .preface) (hsame : e'.system = n.ends b) :
      ∃ s, Moved System.party n b s ∧ e'.Matches b params s := ⟨_, .still, (if_neg hreading').mpr hsame⟩
  cases a with
  | arrive => exact still hreading h
  | call a =>
    have acts (ha : a.isOwn = true) (hcall : e.call a = { e with system := e.system.step a }) :
        ∃ s, Moved System.party n b s ∧ (e.call a).Matches b params s := by
      have hmoved : Moved System.party n b (System.party.step (n.ends b) a) := .acted ha
      refine ⟨_, hmoved, ?_⟩
      rw [hcall]
      exact (if_neg hreading).mpr (congrArg (System.step · a) h)
    cases a with
    | receive => exact still hreading h
    | disconnect => exact acts rfl rfl
    | upgrade => exact acts rfl (by simp only [call, if_neg hreading])
    | _ => exact acts rfl (if_neg hreading)
  | read later =>
    rw [step]
    by_cases hloop : e.system.loop = .running
    swap
    · rw [read, if_pos hloop]
      exact still hreading h
    have hlistens : System.party.listens (n.ends b) = true := decide_eq_true (h ▸ hloop)
    have reads {frame : Frame} {frames : List Frame} (hwire : n.wire b = frame :: frames) :
        Moved System.party n b (e.system.step (.receive frame later)) := by
      have hmoved : Moved System.party n b (System.party.step (n.ends b) (System.party.arrival frame later)) :=
        .delivered later hwire hlistens
      rw [h]
      exact hmoved
    obtain ⟨rest, hahead, hframe⟩ := hoffers hloop
    rw [Ahead] at hahead
    have hread := read_cases hloop hreading later
    generalize e.read later = e' at hread ⊢
    cases hread with
    | waits => exact still hreading h
    | header => exact still (Reading.payload_ne _) h
    | tooLong hat hheader _ hstep =>
      rw [hat] at hahead
      subst hahead
      obtain ⟨frame, frames, hwire, hlength, -⟩ := hframe _ hheader
      exact ⟨_, reads hwire, (if_neg Reading.header_ne).mpr (hstep frame hlength).symm⟩
    | @payload header hat hroom =>
      rw [hat] at hahead
      obtain ⟨nine, hheader, -, rfl⟩ := hahead
      have hnine := FrameHeader.unpack_length hheader
      obtain ⟨frame, frames, hwire, -, heq⟩ := hframe header (by rwa [List.take_left' hnine])
      rw [List.drop_left' hnine] at heq
      refine ⟨_, reads hwire, (if_neg Reading.header_ne).mpr ?_⟩
      rw [heq hroom]

end Endpoint

namespace ByteNetwork

abbrev Action := Duplex.Action Endpoint.Action Unit

def start (params : Bool → Params) : ByteNetwork :=
  Duplex.Net.start Endpoint.party fun b => (Endpoint.start b (params b), [])

def step (n : ByteNetwork) (a : Action) : ByteNetwork := Duplex.Net.step Endpoint.party n a

def run (n : ByteNetwork) (actions : List Action) : ByteNetwork := Duplex.Net.run Endpoint.party n actions

/-- What one end has written. -/
def written (n : ByteNetwork) (b : Bool) : List Frame := framesOf (n.ends b).1.system.conn.log

section

variable (params : Bool → Params) (actions : List Action) (b : Bool)

theorem sound : Duplex.Sound Endpoint.party ((start params).run actions) := by
  have hinv (b : Bool) : Endpoint.party.Inv (Endpoint.start b (params b), []) := ⟨b, params b, .start b (params b)⟩
  exact Duplex.Sound.run (.start hinv fun _ => rfl) actions

theorem tracks : Endpoint.Tracks b (params b)
    (((start params).run actions).ends b).1 (((start params).run actions).ends b).2 := by
  obtain ⟨steps, hsteps⟩ := @Duplex.run_ends _ _ _ _ Endpoint.party (start params) actions b
  rw [show ((start params).run actions).ends b = steps.foldl Endpoint.party.step ((start params).ends b) from hsteps]
  have hstart : Endpoint.Tracks b (params b) ((start params).ends b).1 ((start params).ends b).2 := .start b (params b)
  exact steps.foldlRecOn (motive := fun e => Endpoint.Tracks b (params b) e.1 e.2) Endpoint.party.step hstart
    fun _ h a _ => h.step a

/-- The bytes that have reached an end, and those on their way to it. -/
theorem bytes_eq : (((start params).run actions).ends b).2 ++ ((start params).run actions).wire b =
    Endpoint.greeting b ++ sentBytes (((start params).run actions).ends !b).1.system.conn.log := by
  have hall := ((sound params actions).carries b).all rfl
  have hsent := (tracks params actions !b).sent_eq
  cases b <;> exact hall.trans hsent

theorem written_step (a : Action) (n : ByteNetwork) (h : ∀ b, Endpoint.Tracks b (params b) (n.ends b).1 (n.ends b).2) :
    n.written b <+: (n.step a).written b := by
  have hmoved := @Duplex.moved_step _ _ _ _ Endpoint.party n a b
  change framesOf (n.ends b).1.system.conn.log <+:
    framesOf ((Duplex.Net.step Endpoint.party n a).ends b).1.system.conn.log
  generalize (Duplex.Net.step Endpoint.party n a).ends b = e at hmoved
  cases hmoved with
  | still => exact List.prefix_refl _
  | acted => exact ((h b).log_step _).filterMap _
  | delivered => exact ((h b).log_step _).filterMap _

/-- What an end has in its hands is what the frames on their way look like. -/
theorem offers {exchanged : List Network.Action}
    (hmatches : ∀ b, (((start params).run actions).ends b).1.Matches b
      (params b) (((Network.start params).run exchanged).ends b))
    (hshort : ∀ b, ∀ frame ∈ ((start params).run actions).written b, frame.data.length < 2 ^ 24)
    (hreading : (((start params).run actions).ends b).1.reading ≠ .preface)
    (hloop : (((start params).run actions).ends b).1.system.loop = .running) :
    ((Network.start params).run exchanged).Offers b (((start params).run actions).ends b).1 := by
  have hbytes := bytes_eq params actions b
  have htracks := tracks params actions b
  have hself := (hmatches b).of_greeted hreading
  revert hbytes htracks
  generalize (((start params).run actions).ends b).2 = arrived
  generalize ((start params).run actions).wire b = wire
  intro hbytes htracks
  cases htracks with
  | waiting closed loop _ hwaiting => exact absurd hwaiting hreading
  | @greeted stream rest as _ hrun htakes hahead =>
    refine ⟨rest, (hahead hloop).1, fun header hheader => ?_⟩
    rw [List.append_assoc, List.append_cancel_left_eq, sentBytes_eq] at hbytes
    by_cases hother : (((start params).run actions).ends !b).1.reading = .preface
    · rw [((tracks params actions !b).log_waiting hother).2] at hbytes
      obtain ⟨rfl, -⟩ := List.append_eq_nil_iff.mp hbytes
      have hrest := htakes.length_le
      have hnine := FrameHeader.unpack_length hheader
      rw [List.length_take] at hnine
      rw [List.length_nil] at hrest
      omega
    · have hpeer := (hmatches !b).of_greeted hother
      obtain ⟨steps, hsteps⟩ := Network.ends_run params exchanged !b
      have hframed : ∀ f ∈ framesOf (((Network.start params).run exchanged).ends !b).conn.log, f.Framed := by
        intro f hf
        have hproper := System.written_proper (!b) (params !b) steps f (hsteps ▸ hf)
        have hlength := hshort (!b) f (by rw [written, hpeer]; exact hf)
        exact ⟨hproper.regular.isMember.framed.1, hproper.regular.isMember.framed.2, hlength, hproper.packs.streamId⟩
      have hlistens : System.party.listens (((Network.start params).run exchanged).ends b) = true :=
        decide_eq_true (hself ▸ hloop)
      have hsent : receivedFrames (((Network.start params).run exchanged).ends b).conn.log ++
          ((Network.start params).run exchanged).wire b =
            framesOf (((Network.start params).run exchanged).ends !b).conn.log :=
        ((Network.sound params exchanged).carries b).all hlistens
      rw [hpeer, ← hsent] at hbytes
      rw [← hsent] at hframed
      have htaken := htakes.arrive wire
      rw [hbytes, hself] at htaken
      have hrest := takes_encoded (fun f hf => hframed f (List.mem_append_left _ hf)) htaken
      exact first_frame (fun f hf => hframed f (List.mem_append_right _ hf)) hrest.symm hheader

end

/-- Two ends with bytes between them do what two ends do that exchange whole frames,
as long as the lengths of all payloads have three bytes: the fourth is not sent. -/
theorem refines_frames (params : Bool → Params) (actions : List Action)
    (hshort : ∀ b, ∀ frame ∈ ((start params).run actions).written b, frame.data.length < 2 ^ 24) :
    ∃ exchanged, ∀ b, (((start params).run actions).ends b).1.Matches b (params b)
      (((Network.start params).run exchanged).ends b) := by
  induction actions using List.reverseRecOn with
  | nil =>
    refine ⟨[], fun b => ?_⟩
    cases b with
    | false => exact (if_pos rfl).mpr rfl
    | true => exact (if_neg nofun).mpr rfl
  | append_singleton actions a ih =>
    have hrun : (start params).run (actions ++ [a]) = ((start params).run actions).step a := List.foldl_concat ..
    rw [hrun] at hshort ⊢
    have hbefore : ∀ b, ∀ frame ∈ ((start params).run actions).written b, frame.data.length < 2 ^ 24 :=
      fun b frame hframe =>
      hshort b frame ((written_step params b a _ (tracks params actions)).subset hframe)
    obtain ⟨exchanged, hmatches⟩ := ih hbefore
    obtain ⟨c, hmoved, hother⟩ := @Duplex.step_moved _ _ _ _ Endpoint.party ((start params).run actions) a
    change Moved Endpoint.party ((start params).run actions) c ((((start params).run actions).step a).ends c) at hmoved
    change (((start params).run actions).step a).ends (!c) = _ at hother
    have takes (a : Endpoint.Action) : ∃ s, Moved System.party ((Network.start params).run exchanged) c s ∧
        ((((start params).run actions).ends c).1.step a).Matches c (params c) s := by
      by_cases hreading : (((start params).run actions).ends c).1.reading = .preface
      · exact Endpoint.matches_step_waiting (tracks params actions c) hreading (hmatches c) a
      · exact Endpoint.matches_step_greeted hreading ((hmatches c).of_greeted hreading)
          (offers params actions c hmatches hbefore hreading) a
    obtain ⟨s, hs, hsame⟩ : ∃ s, Moved System.party ((Network.start params).run exchanged) c s ∧
        ((((start params).run actions).step a).ends c).1.Matches c (params c) s := by
      generalize (((start params).run actions).step a).ends c = e at hmoved
      cases hmoved with
      | still => exact ⟨_, .still, hmatches c⟩
      | acted => exact takes _
      | delivered => exact takes _
    obtain ⟨more, hmore, hkept⟩ := hs.run
    have hends : (Network.start params).run (exchanged ++ more) = ((Network.start params).run exchanged).run more :=
      Duplex.run_append ..
    refine ⟨exchanged ++ more, fun b => ?_⟩
    rw [hends]
    rcases Bool.eq_or_eq_not b c with rfl | rfl
    · rw [show (((Network.start params).run exchanged).run more).ends b = s from hmore]
      exact hsame
    · rw [show (((Network.start params).run exchanged).run more).ends (!c) = _ from hkept, hother]
      exact hmatches !c

/-- The preface and the SETTINGS of a client reach a server byte by byte, and it
reads them and acknowledges the SETTINGS. -/
def greetingActions : List Action :=
  List.replicate 39 (.deliver false ()) ++ List.replicate 3 (.act false (.read false))

theorem refines_frames_greeting :
    let n := (start fun _ => .new none .caseless).run greetingActions
    receivedFrames (n.ends false).1.system.conn.log = [settingsFrame true] ∧
      n.written false = [settingsFrame false, settingsAckFrame] ∧
      ∃ exchanged, ∀ b, (n.ends b).1.Matches b (.new none .caseless)
        (((Network.start fun _ => .new none .caseless).run exchanged).ends b) :=
  ⟨by decide +kernel, by decide +kernel,
    refines_frames (fun _ => .new none .caseless) greetingActions (by decide +kernel)⟩

end ByteNetwork

end TornadoHttp2
