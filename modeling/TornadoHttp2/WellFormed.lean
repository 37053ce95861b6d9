import TornadoHttp2.Steps

/-! Every method of a stream adds to the log only events of its stream or of the
connection, and every reachable system keeps its streams under their ids. -/

namespace TornadoHttp2

open Prog

/-- The attributes of the connection that no method of a stream changes. -/
def Conn.fixed (c : Conn) := (c.isClient, c.params, c.settings, c.nextStreamId, c.closed)

structure Acts (streamId : Nat) (c c' : Ctx) : Prop where
  self : c'.self.streamId = c.self.streamId
  conn : c'.conn.fixed = c.conn.fixed
  log : Grows (·.concerns streamId) c.conn.log c'.conn.log

instance (i : Nat) : Std.Refl (Acts i) := ⟨fun _ => ⟨rfl, rfl, .refl⟩⟩

instance (i : Nat) : IsTrans Ctx (Acts i) :=
  ⟨fun _ _ _ h h' => ⟨h'.self.trans h.self, h'.conn.trans h.conn, h.log.trans h'.log⟩⟩

theorem ReceivesOnly.acts {i : Nat} {c c' : Ctx} (h : ReceivesOnly i c c') : Acts i c c' where
  self := congrArg (fun t => t.1) h.self
  conn := congrArg (fun t => (t.1, t.2.1, t.2.2.1, t.2.2.2.1, t.2.2.2.2.2.2)) h.conn
  log := h.log.mono fun _ he => he.concerns

theorem SendsOnly.acts {i : Nat} {c c' : Ctx} (h : SendsOnly i c c') : Acts i c c' where
  self := congrArg (fun t => t.1) h.self
  conn := congrArg (fun t => (t.1, t.2.1, t.2.2.1, t.2.2.2.1, t.2.2.2.2.2.2)) h.conn
  log := h.log.mono fun _ he => he.concerns

namespace Stream

theorem handleWindowUpdateFrame_acts {i : Nat} (frame : Frame) :
    Keeps (fun c : Ctx => c.self.streamId = i) (Acts i) (handleWindowUpdateFrame frame) :=
  .get_bind fun _ hc => .bind (fun _ hc' => ⟨hc', rfl, rfl, .refl⟩) fun _ =>
    fun _ hc' => ⟨hc', rfl, rfl, .snoc ⟨.inr hc, id⟩⟩

theorem handleFrame_acts {i : Nat} (frame : Frame) (later : Bool) :
    Keeps (fun c : Ctx => c.self.streamId = i) (Acts i) (handleFrame frame later) :=
  handleFrame_keeps (fun _ h => h)
    (fun _ _ hc h => ⟨h.acts.self.trans hc, h.acts⟩)
    (writeHeaders_sends.mono fun _ _ => SendsOnly.acts)
    (finish_sends.mono fun _ _ => SendsOnly.acts)
    (fun _ => handleWindowUpdateFrame_acts frame)

/-- The methods that the application or the event loop calls send, but for the
callback of a `data_received` future. -/
theorem method_sends {a : System.Action} {i : Nat} {m : OnStream Unit} (ha : a.method = some (i, m)) :
    (∀ j, Sends j m) ∨ ∃ k, m = resolveData k := by
  cases a <;> simp only [System.Action.method, reduceCtorEq, Option.some.injEq, Prod.mk.injEq] at ha <;>
    obtain ⟨-, rfl⟩ := ha
  case writeHeaders => exact .inl fun _ => writeHeaders_sends
  case write => exact .inl fun _ => write_sends
  case finish => exact .inl fun _ => finish_sends
  case reset => exact .inl fun _ => reset_sends
  case resume => exact .inl fun _ => resume_sends
  case resolve => exact .inr ⟨_, rfl⟩

theorem method_acts {a : System.Action} {i : Nat} {m : OnStream Unit} (ha : a.method = some (i, m)) :
    Keeps (fun c : Ctx => c.self.streamId = i) (Acts i) m := by
  rcases method_sends ha with h | ⟨k, rfl⟩
  · exact (h i).mono fun _ _ => SendsOnly.acts
  · exact resolveData_receives.mono fun _ _ => ReceivesOnly.acts

/-! What the receiving half and the methods of the sending half keep, every
frame handler and every action of the application keeps. -/

section

variable {I : Ctx → Prop} {c : Ctx}

theorem handleFrame_preserves {frame : Frame} {later : Bool}
    (hreceives : ∀ c c', I c → ReceivesOnly c.self.streamId c c' → I c')
    (hwrite : ∀ c, I c → I ((writeHeaders (.response 431) .empty [] none).run c).2)
    (hfinish : ∀ c, I c → I (finish.run c).2)
    (hupdate : frame.type = .windowUpdate → ∀ c, I c → I ((handleWindowUpdateFrame frame).run c).2)
    (h : I c) : I ((handleFrame frame later).run c).2 := by
  have keeps {m : OnStream Unit} (hm : ∀ c, I c → I (m.run c).2)
      (hid : Keeps (fun c' => c'.self.streamId = c.self.streamId) (Acts c.self.streamId) m) :
      Keeps (fun c' => I c' ∧ c'.self.streamId = c.self.streamId) Anything m :=
    fun c' hc' => ⟨⟨hm c' hc'.1, (hid c' hc'.2).1⟩, trivial⟩
  have hkeeps : Keeps _ Anything (handleFrame frame later) := handleFrame_keeps (R := Anything)
    (fun _ hc => hc.2)
    (fun _ _ hc hr => ⟨⟨hreceives _ _ hc.1 (hc.2.symm ▸ hr), hr.acts.self.trans hc.2⟩, trivial⟩)
    (keeps hwrite (writeHeaders_sends.mono fun _ _ => SendsOnly.acts))
    (keeps hfinish (finish_sends.mono fun _ _ => SendsOnly.acts))
    (fun htype => keeps (hupdate htype) (handleWindowUpdateFrame_acts frame))
  exact (hkeeps c ⟨h, rfl⟩).1.1

theorem method_preserves (hreceives : ∀ c c', I c → ReceivesOnly c.self.streamId c c' → I c')
    (hwriteHeaders : ∀ startLine headers chunk callback c, I c →
      I ((writeHeaders startLine headers chunk callback).run c).2)
    (hwrite : ∀ chunk callback c, I c → I ((write chunk callback).run c).2)
    (hfinish : ∀ c, I c → I (finish.run c).2) (hreset : ∀ c, I c → I (reset.run c).2)
    (hresume : ∀ flushed c, I c → I ((resume flushed).run c).2) {a : System.Action} {i : Nat}
    {m : OnStream Unit} (ha : a.method = some (i, m)) (h : I c) : I (m.run c).2 := by
  cases a <;> simp only [System.Action.method, reduceCtorEq, Option.some.injEq, Prod.mk.injEq] at ha <;>
    obtain ⟨-, rfl⟩ := ha
  case writeHeaders => exact hwriteHeaders _ _ _ _ c h
  case write => exact hwrite _ _ c h
  case finish => exact hfinish c h
  case reset => exact hreset c h
  case resume => exact hresume _ c h
  case resolve => exact hreceives c _ h (resolveData_receives c rfl).2

end

end Stream

/-- What a frame of stream 0 can change. -/
structure ConnOnly (c c' : Conn) : Prop where
  same : (c'.isClient, c'.params, c'.nextStreamId, c'.hpackDecoder, c'.hpackEncoder, c'.huffmanTree) =
    (c.isClient, c.params, c.nextStreamId, c.hpackDecoder, c.hpackEncoder, c.huffmanTree)
  log : Grows (fun e => (e.streamId = 0 ∧ e.ofConn) ∧ ¬ e.ofLoop) c.log c'.log

instance : Std.Refl ConnOnly := ⟨fun _ => ⟨rfl, .refl⟩⟩

instance : IsTrans Conn ConnOnly := ⟨fun _ _ _ h h' => ⟨h'.same.trans h.same, h.log.trans h'.log⟩⟩

namespace Conn

variable {I : Conn → Prop}

theorem writeFrame_keeps {R : Conn → Conn → Prop} [Std.Refl R] {frame : Frame}
    (h : ∀ c, I c → I { c with log := c.log ++ [.wrote frame] } ∧
      R c { c with log := c.log ++ [.wrote frame] }) : Keeps I R (writeFrame frame) := by
  rw [Keeps.iff_wp]
  intro c hc
  simp only [writeFrame, emit, wp_bind, wp_check, wp_get, wp_modify]
  refine ⟨fun _ => ⟨hc, refl c⟩, fun _ => ⟨fun _ => ⟨hc, refl c⟩, fun _ => h c hc⟩⟩

theorem setting_congr {c c' : Conn} (h : c'.settings = c.settings) (setting : Setting) :
    c'.setting setting = c.setting setting := by rw [Conn.setting, Conn.setting, h]

theorem setting_cons {c : Conn} {code value : Nat} {setting : Setting} :
    Conn.setting { c with settings := (code, value) :: c.settings } setting =
      if code = setting.code then value else c.setting setting := by
  rw [Conn.setting, Conn.setting, List.lookup_cons]
  by_cases hcode : code = setting.code
  · simp [hcode]
  · rw [if_neg hcode, beq_false_of_ne (Ne.symm hcode)]

theorem applySettings_keeps {R : Conn → Conn → Prop} [Std.Refl R] [IsTrans Conn R]
    (h : ∀ c code value, I c → refusedSetting code value = none →
      I { c with settings := (code, value) :: c.settings } ∧
        R c { c with settings := (code, value) :: c.settings }) :
    ∀ data, Keeps I R (applySettings data)
  | [] => .pure _
  | b₀ :: b₁ :: b₂ :: b₃ :: b₄ :: b₅ :: data => by
    unfold applySettings
    cases hrefused : refusedSetting (unpackBytes [b₀, b₁]) (unpackBytes [b₂, b₃, b₄, b₅]) with
    | some e =>
      simp only [hrefused]
      exact .raise _
    | none =>
      simp only [hrefused]
      exact .bind (.modify fun c hc => h c _ _ hc hrefused) fun _ => applySettings_keeps h data
  | [_] | [_, _] | [_, _, _] | [_, _, _, _] | [_, _, _, _, _] => .raise _

/-- A frame of stream 0 changes a setting, adds credit, is answered or closes the
connection. -/
theorem handleFrame_keeps {R : Conn → Conn → Prop} [Std.Refl R] [IsTrans Conn R] {frame : Frame}
    (hwrite : ∀ c f, f.streamId = 0 → f.type = .settings ∨ f.type = .ping → f.data.length ≤ 8 → I c →
      I { c with log := c.log ++ [.wrote f] } ∧ R c { c with log := c.log ++ [.wrote f] })
    (hset : ∀ c code value, I c → refusedSetting code value = none →
      I { c with settings := (code, value) :: c.settings } ∧ R c { c with settings := (code, value) :: c.settings })
    (hclose : ∀ c, I c → I { c with closed := true } ∧ R c { c with closed := true })
    (hupdate : frame.type = .windowUpdate → Keeps I R (handleWindowUpdateFrame frame)) :
    Keeps I R (handleFrame frame) := by
  unfold handleFrame
  cases htype : frame.type with
  | settings =>
    exact .ite (fun _ => .check) fun _ => .bind (applySettings_keeps hset _) fun _ =>
      writeFrame_keeps fun c => hwrite c _ rfl (.inl rfl) (Nat.zero_le _)
  | windowUpdate => exact hupdate htype
  | ping =>
    refine .ite (fun _ => .pure _) fun _ => Keeps.iff_wp.mpr fun c hc => ?_
    rw [wp_bind, wp_check]
    refine ⟨fun _ => ⟨hc, refl c⟩, fun hlength => ?_⟩
    exact Keeps.iff_wp.mp (writeFrame_keeps fun c => 
      hwrite c ⟨.ping, FrameFlag.ack.value, 0, frame.data⟩ rfl (.inr rfl) (not_not.mp hlength).le) c hc
  | goaway => exact .bind (.modify hclose) fun _ => .raise _
  | unknown => exact .pure _
  | _ => exact .raise _

/-- What every value that is not refused satisfies, the setting goes on to satisfy. -/
theorem handleFrame_allowed {setting : Setting} {p : Nat → Prop}
    (h : ∀ value, refusedSetting setting.code value = none → p value) (frame : Frame) :
    Keeps (fun c => p (c.setting setting)) Anything (handleFrame frame) := by
  refine handleFrame_keeps (fun _ _ _ _ _ hc => ⟨hc, trivial⟩) (fun c code value hc hrefused => ⟨?_, trivial⟩)
    (fun _ hc => ⟨hc, trivial⟩) fun _ => .bind (fun _ hc => ⟨hc, trivial⟩) fun _ => fun _ hc => ⟨hc, trivial⟩
  rw [setting_cons]
  split
  · rename_i hcode
    exact h value (hcode ▸ hrefused)
  · exact hc

theorem handleFrame_connOnly (frame : Frame) : Keeps (fun _ => True) ConnOnly (handleFrame frame) := by
  refine handleFrame_keeps (fun _ f hid htype _ _ => ⟨trivial, rfl, .snoc ⟨⟨hid, ?_⟩, id⟩⟩)
    (fun _ _ _ _ _ => ⟨trivial, rfl, .refl⟩) (fun _ _ => ⟨trivial, rfl, .refl⟩)
    fun _ => .bind (fun _ _ => ⟨trivial, rfl, .refl⟩) fun _ => fun _ _ => ⟨trivial, rfl, .snoc ⟨⟨rfl, trivial⟩, id⟩⟩
  change f.type ≠ .headers ∧ f.type ≠ .data
  rcases htype with htype | htype <;> rw [htype] <;> exact ⟨nofun, nofun⟩

end Conn

/-- What the log can hold about a stream that there is not yet. -/
def Event.isRefusal : Event → Prop
  | .received _ => True
  | .wrote frame => frame.type = .rstStream
  | _ => False

theorem Event.isRefusal.ofConn {e : Event} (h : e.isRefusal) : e.ofConn := by
  cases e with
  | received => trivial
  | wrote frame => exact ⟨fun htype => by simp [isRefusal, htype] at h,
      fun htype => by simp [isRefusal, htype] at h⟩
  | _ => exact h.elim

theorem Event.ofConn_goawayFrame {code : ErrorCode} {i : Nat} {message : Option String} :
    (wrote (goawayFrame code i message)).streamId = 0 ∧ (wrote (goawayFrame code i message)).ofConn :=
  ⟨rfl, nofun, nofun⟩

namespace System

structure WellFormed (s : System) : Prop where
  streamId {i : Nat} {self : Stream} (h : s.streams i = some self) : self.streamId = i
  zero : s.streams 0 = none
  next : 0 < s.conn.nextStreamId
  parity : s.conn.nextStreamId % 2 = if s.conn.isClient then 1 else 0
  ownIds {i : Nat} (h : i % 2 = s.conn.nextStreamId % 2) :
    (s.streams i).isSome ↔ 0 < i ∧ i < s.conn.nextStreamId
  absent {i : Nat} (hi : i ≠ 0) (h : s.streams i = none) :
    ∀ e ∈ s.conn.log, e.streamId = i → e.isRefusal
  ofConn : ∀ e ∈ s.conn.log, e.streamId = 0 → e.ofConn

namespace WellFormed

variable {s s' : System} {i : Nat}

theorem logged {e : Event} (h : WellFormed s)
    (he : e.streamId = 0 ∧ e.ofConn ∨ e.isRefusal ∨ (s.streams e.streamId).isSome) :
    WellFormed (s.logged e) where
  streamId := h.streamId
  zero := h.zero
  next := h.next
  parity := h.parity
  ownIds := h.ownIds
  absent := by
    intro i hi hnone e' hmem hid
    rcases List.mem_append.mp hmem with hmem | hmem
    · exact h.absent hi hnone e' hmem hid
    · obtain rfl := List.mem_singleton.mp hmem
      subst hid
      rcases he with he | he | he
      · exact absurd he.1 hi
      · exact he
      · rw [show s.streams e'.streamId = none from hnone] at he
        simp at he
  ofConn := by
    intro e' hmem hid
    rcases List.mem_append.mp hmem with hmem | hmem
    · exact h.ofConn e' hmem hid
    · obtain rfl := List.mem_singleton.mp hmem
      rcases he with he | he | he
      · exact he.2
      · exact he.ofConn
      · rw [hid, h.zero] at he
        simp at he

theorem conn {c : Conn} (h : WellFormed s) (hc : ConnOnly s.conn c) : WellFormed { s with conn := c } := by
  have hnext : c.nextStreamId = s.conn.nextStreamId := congrArg (fun t => t.2.2.1) hc.same
  have hclient : c.isClient = s.conn.isClient := congrArg (fun t => t.1) hc.same
  obtain ⟨es, hlog, hes⟩ := hc.log
  refine ⟨h.streamId, h.zero, hnext ▸ h.next, ?_, fun hi => ?_, fun {i} hi hnone e hmem hid => ?_,
    fun e hmem hid => ?_⟩
  · rw [hnext, hclient]
    exact h.parity
  · rw [hnext] at hi ⊢
    exact h.ownIds hi
  · rw [hlog, List.mem_append] at hmem
    rcases hmem with hmem | hmem
    · exact h.absent hi hnone e hmem hid
    · exact absurd ((hes e hmem).1.1.symm.trans hid).symm hi
  · rw [hlog, List.mem_append] at hmem
    exact hmem.elim (h.ofConn e · hid) fun hmem => (hes e hmem).1.2

theorem setStream {self : Stream} {c : Ctx} (h : WellFormed s) (hself : s.streams i = some self)
    (hc : Acts i ⟨s.conn, self⟩ c) : WellFormed (s.setStream i c) := by
  have hnext : c.conn.nextStreamId = s.conn.nextStreamId := congrArg (fun t => t.2.2.2.1) hc.conn
  have hclient : c.conn.isClient = s.conn.isClient := congrArg (fun t => t.1) hc.conn
  have hi0 : i ≠ 0 := by
    rintro rfl
    simp [h.zero] at hself
  obtain ⟨es, hlog, hes⟩ := hc.log
  refine ⟨fun {j _} hj => ?_, ?_, hnext ▸ h.next, ?_, fun {j} hj => ?_,
    fun {j} hj hnone e hmem hid => ?_, fun e hmem hid => ?_⟩
  · by_cases hij : j = i
    · subst hij
      rw [setStream_self, Option.some.injEq] at hj
      rw [← hj, hc.self]
      exact h.streamId hself
    · exact h.streamId (setStream_of_ne hij ▸ hj)
  · rw [setStream_of_ne hi0.symm]
    exact h.zero
  · change c.conn.nextStreamId % 2 = if c.conn.isClient then 1 else 0
    rw [hnext, hclient]
    exact h.parity
  · change j % 2 = c.conn.nextStreamId % 2 at hj
    change _ ↔ 0 < j ∧ j < c.conn.nextStreamId
    rw [hnext] at hj ⊢
    by_cases hij : j = i
    · subst hij
      have hown := h.ownIds hj
      rw [hself] at hown
      simpa [setStream_self] using hown
    · rw [setStream_of_ne hij]
      exact h.ownIds hj
  · have hij : j ≠ i := by
      rintro rfl
      simp [setStream_self] at hnone
    rw [setStream_of_ne hij] at hnone
    rw [show (s.setStream i c).conn.log = s.conn.log ++ es from hlog, List.mem_append] at hmem
    rcases hmem with hmem | hmem
    · exact h.absent hj hnone e hmem hid
    · rcases (hes e hmem).1 with he | he
      · exact absurd (he.1.symm.trans hid).symm hj
      · exact absurd (he.symm.trans hid).symm hij
  · rw [show (s.setStream i c).conn.log = s.conn.log ++ es from hlog, List.mem_append] at hmem
    rcases hmem with hmem | hmem
    · exact h.ofConn e hmem hid
    · rcases (hes e hmem).1 with he | he
      · exact he.2
      · exact absurd (he.symm.trans hid) hi0

/-- A new stream; `n` is the next id after it. -/
theorem withStream {self : Stream} {n : Nat} (h : WellFormed s) (hi : self.streamId ≠ 0)
    (hn : s.conn.nextStreamId ≤ n) (hparity : n % 2 = s.conn.nextStreamId % 2)
    (hown : ∀ j, j % 2 = n % 2 →
      (s.conn.nextStreamId ≤ j ∧ j < n ↔ j = self.streamId)) :
    WellFormed ({ s with conn := { s.conn with nextStreamId := n } }.withStream self) := by
  have hnext := h.next
  refine ⟨fun {j _} hj => ?_, ?_, hnext.trans_le hn, hparity.trans h.parity, fun {j} hj => ?_,
    fun {j} hj hnone e hmem hid => ?_, fun e hmem hid => ?_⟩
  · by_cases hij : j = self.streamId
    · subst hij
      rw [withStream_self, Option.some.injEq] at hj
      rw [hj]
    · exact h.streamId (withStream_of_ne hij ▸ hj)
  · rw [withStream_of_ne hi.symm]
    exact h.zero
  · change j % 2 = n % 2 at hj
    change _ ↔ 0 < j ∧ j < n
    have hj' := hown j hj
    by_cases hij : j = self.streamId
    · have := hj'.mpr hij
      rw [hij, withStream_self]
      simp only [Option.isSome_some, true_iff]
      omega
    · rw [withStream_of_ne hij, h.ownIds (hj.trans hparity)]
      have := mt hj'.mp hij
      omega
  · have hij : j ≠ self.streamId := by
      rintro rfl
      simp [withStream_self] at hnone
    rw [withStream_of_ne hij] at hnone
    rcases List.mem_append.mp hmem with hmem | hmem
    · exact h.absent hj hnone e hmem hid
    · obtain rfl := List.mem_singleton.mp hmem
      exact absurd hid.symm hij
  · rcases List.mem_append.mp hmem with hmem | hmem
    · exact h.ofConn e hmem hid
    · obtain rfl := List.mem_singleton.mp hmem
      exact absurd hid hi

theorem remote {self : Stream} (h : WellFormed s) (hi : self.streamId ≠ 0)
    (hremote : self.streamId % 2 ≠ s.conn.nextStreamId % 2) : WellFormed (s.withStream self) :=
  h.withStream (n := s.conn.nextStreamId) hi le_rfl rfl fun j hj =>
    ⟨fun hlt => by omega, fun hij => absurd (hij ▸ hj) hremote⟩

theorem created (h : WellFormed s) : WellFormed
    ({ s with conn := { s.conn with nextStreamId := s.conn.nextStreamId + 2 } }.withStream
      (.new s.conn s.conn.nextStreamId true)) :=
  h.withStream h.next.ne' (Nat.le_add_right ..) (Nat.add_mod_right ..) fun j hj => by
    change _ ↔ j = s.conn.nextStreamId
    omega

theorem congr (h : WellFormed s) (hconn : s'.conn = s.conn) (hstreams : s'.streams = s.streams) :
    WellFormed s' := by
  obtain ⟨_, _, _, _, _⟩ := s'
  obtain rfl : _ = s.conn := hconn
  obtain rfl : _ = s.streams := hstreams
  exact ⟨h.streamId, h.zero, h.next, h.parity, h.ownIds, h.absent, h.ofConn⟩

theorem withLoop {closed : Bool} {loop : ConnLoop} (h : WellFormed s) :
    WellFormed (s.withLoop closed loop) :=
  ⟨h.streamId, h.zero, h.next, h.parity, h.ownIds, h.absent, h.ofConn⟩

theorem handled {frame : Frame} {later : Bool} {self : Stream} (h : WellFormed s)
    (hself : s.streams frame.streamId = some self) : WellFormed (s.handled frame later self) :=
  setStream (s := { s with lastStream := some frame.streamId }) (h.congr rfl rfl) hself
    (Stream.handleFrame_acts frame later ⟨s.conn, self⟩ (h.streamId hself)).2

theorem accepted {frame : Frame} (h : WellFormed s) (hid : frame.streamId ≠ 0)
    (hremote : frame.streamId % 2 ≠ s.conn.nextStreamId % 2) : WellFormed (s.accepted frame) :=
  .congr (s := (s.withStream (.new s.conn frame.streamId true)).logged (.startRequest frame.streamId))
    ((h.remote hid hremote).logged (.inr (.inr (Option.isSome_iff_exists.mpr
      ⟨_, withStream_self⟩)))) rfl rfl

theorem dispatched {frame : Frame} {later : Bool} {r : Except PyException Unit} (h : WellFormed s)
    (hd : Dispatched s frame later r s') : WellFormed s' := by
  cases hd with
  | conn => exact h.conn (Conn.handleFrame_connOnly frame s.conn trivial).2
  | stream _ hself => exact h.handled hself
  | accepted hid _ _ _ hremote =>
    exact (h.accepted hid hremote).handled accepted_self
  | _ => exact h

theorem answered {r : Except PyException Unit} (h : WellFormed s) (ha : Answered s r s') :
    WellFormed s' := by
  cases ha with
  | nothing => exact h
  | reset => exact h.logged (.inr (.inl rfl))
  | goaway => exact (h.logged (.inl Event.ofConn_goawayFrame)).withLoop
  | ended => exact h.withLoop

theorem stepped {a : Action} (h : WellFormed s) (hs : Stepped s a s') : WellFormed s' := by
  cases hs with
  | @received frame later r s₁ _ _ hh ha =>
    refine answered ?_ ha
    have hreceived : WellFormed (s.logged (.received frame)) := h.logged (.inr (.inl trivial))
    cases hh with
    | oversized => exact h
    | interrupted => exact hreceived
    | passed _ _ hd => exact hreceived.dispatched hd
  | created => exact h.created
  | upgraded hserver hself =>
    refine h.remote one_ne_zero fun hparity => ?_
    rw [h.parity, hserver] at hparity
    exact one_ne_zero hparity
  | closed => exact h.withLoop
  | method ha hself =>
    exact h.setStream hself (Stream.method_acts ha ⟨s.conn, _⟩ (h.streamId hself)).2
  | idle => exact h

theorem start (isClient : Bool) (params : Params) : WellFormed (System.start isClient params) := by
  refine ⟨by simp [System.start], rfl, ?_, ?_, fun {i} hi => ?_, fun {i} hi _ e hmem hid => ?_,
    fun e hmem _ => ?_⟩
  · cases isClient <;> simp [System.start]
  · cases isClient <;> simp [System.start]
  · cases isClient <;> simp only [System.start, if_true, if_false, Bool.false_eq_true] at hi ⊢ <;>
      simp only [Option.isSome_none, Bool.false_eq_true, false_iff] <;> omega
  · obtain rfl := List.mem_singleton.mp hmem
    exact absurd hid.symm hi
  · obtain rfl := List.mem_singleton.mp hmem
    exact ⟨nofun, nofun⟩

theorem step (h : WellFormed s) (a : Action) : WellFormed (s.step a) := h.stepped (step_cases s a)

theorem run (h : WellFormed s) (actions : List Action) : WellFormed (s.run actions) :=
  actions.foldlRecOn System.step h fun _ h a _ => h.step a

end WellFormed

/-- A frame with the header block of `GET / HTTP/2.0`, as a peer can send it. -/
def requestFrame (streamId : Nat) (flags : UInt8) : Frame :=
  ⟨.headers, flags, streamId, [0x82, 0x84, 0x87]⟩

example : .called 1 .finish ∈
    ((System.start false (.new none .caseless)).run [.receive (requestFrame 1 0x5) false]).conn.log := by
  decide +kernel

end System

end TornadoHttp2
