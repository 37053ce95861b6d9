import TornadoHttp2.WellFormed
import TornadoHttp2.Runs

/-! Invariants of a run: a property `p` of every stream and the part of the log
about it, together with a property `Q` of the connection. What the connection
loop adds on its own is noise to both; what remains to show is that the methods
of a stream keep them for that stream. -/

namespace TornadoHttp2

open Prog

def logOf (i : Nat) (log : List Event) : List Event := log.filter fun e => e.streamId = i

section

variable {i j : Nat} {log log' : List Event} {e : Event}

@[simp] theorem logOf_append : logOf i (log ++ log') = logOf i log ++ logOf i log' :=
  List.filter_append ..

theorem logOf_self (h : e.streamId = i) : logOf i [e] = [e] := by simp [logOf, h]

@[simp] theorem logOf_opened {size : Int} : logOf i [.opened i size] = [.opened i size] := logOf_self rfl

theorem logOf_snoc (h : e.streamId = i) : logOf i (log ++ [e]) = logOf i log ++ [e] := by
  rw [logOf_append, logOf_self h]

theorem logOf_other (h : e.streamId ≠ i) : logOf i [e] = [] := by simp [logOf, h]

theorem mem_logOf : e ∈ logOf i log ↔ e ∈ log ∧ e.streamId = i := by simp [logOf]

theorem Grows.logOf_other (h : Grows (·.concerns i) log log') (hj : j ≠ 0) (hij : j ≠ i) :
    logOf j log' = logOf j log := by
  obtain ⟨es, rfl, hes⟩ := h
  have hnil : logOf j es = [] := List.filter_eq_nil_iff.mpr fun e he hid => by
    rcases (hes e he).1 with h | h
    · exact hj ((of_decide_eq_true hid).symm.trans h.1)
    · exact hij ((of_decide_eq_true hid).symm.trans h)
  rw [logOf_append, hnil, List.append_nil]

end

/-- The events that the connection loop adds on its own. -/
def Event.isNoise : Event → Prop
  | received _ => True
  | startRequest _ => True
  | wrote frame => frame.type = .rstStream ∨ frame.type = .goaway
  | _ => False

/-- The connection loop changes the connection in these ways between the calls
of its handlers. -/
def Quiet (c c' : Conn) : Prop := ∃ es nextStreamId closed,
  c' = { c with log := c.log ++ es, nextStreamId, closed } ∧
    ∀ e ∈ es, e.isNoise ∨ ∃ i size, e = .opened i size

theorem isNoise_received {frame : Frame} : (Event.received frame).isNoise := trivial

theorem isNoise_startRequest {i : Nat} : (Event.startRequest i).isNoise := trivial

theorem isNoise_rstStreamFrame {i : Nat} {code : ErrorCode} :
    (Event.wrote (rstStreamFrame i code)).isNoise := Or.inl rfl

theorem isNoise_goawayFrame {code : ErrorCode} {i : Nat} {message : Option String} :
    (Event.wrote (goawayFrame code i message)).isNoise := Or.inr rfl

namespace Quiet

theorem refl {c : Conn} : Quiet c c := ⟨[], c.nextStreamId, c.closed, by simp, by simp⟩

theorem trans {c c' c'' : Conn} (h : Quiet c c') (h' : Quiet c' c'') : Quiet c c'' := by
  obtain ⟨es, n, closed, rfl, he⟩ := h
  obtain ⟨fs, n', closed', rfl, hf⟩ := h'
  refine ⟨es ++ fs, n', closed', by simp, fun e hmem => ?_⟩
  exact (List.mem_append.mp hmem).elim (he e) (hf e)

theorem noise {c : Conn} {e : Event} (h : e.isNoise) : Quiet c { c with log := c.log ++ [e] } :=
  ⟨[e], c.nextStreamId, c.closed, rfl, fun _ he => .inl (List.mem_singleton.mp he ▸ h)⟩

theorem changed {c : Conn} (nextStreamId : Nat) (closed : Bool) :
    Quiet c { c with nextStreamId, closed } := ⟨[], nextStreamId, closed, by simp, by simp⟩

theorem opened {c : Conn} {i : Nat} {size : Int} :
    Quiet c { c with log := c.log ++ [.opened i size] } :=
  ⟨_, c.nextStreamId, c.closed, rfl, fun _ he => .inr ⟨i, size, List.mem_singleton.mp he⟩⟩

end Quiet

/-- What the connection loop does on its own is noise to `p` and `Q`, and a new
stream satisfies `p`. -/
structure Stable (p : Stream → List Event → Prop) (Q : Conn → Prop) : Prop where
  quiet {c c' : Conn} : Quiet c c' → Q c → Q c'
  noise {self : Stream} {log : List Event} {e : Event} : e.isNoise → p self log → p self (log ++ [e])
  new {c : Conn} {i : Nat} {hasDelegate : Bool} {log : List Event}
    (requestStartLine : Option (Option Bytes × Option Bytes)) : Q c → (∀ e ∈ log, e.isRefusal) →
      p { Stream.new c i hasDelegate with requestStartLine }
        (log ++ [.opened i (c.setting .initialWindowSize)])

/-- What a method of a stream can use and has to keep. -/
def Own (p : Stream → List Event → Prop) (Q : Conn → Prop) (c : Ctx) : Prop :=
  p c.self (logOf c.self.streamId c.conn.log) ∧ Q c.conn

namespace System

/-- How a frame of a stream finds it: in `self.streams`, or just opened. -/
inductive Meets (s : System) (frame : Frame) : Ctx → Prop
  | known {self : Stream} (hself : s.streams frame.streamId = some self) :
    Meets s frame ⟨(s.logged (.received frame)).conn, self⟩
  | opened (hself : s.streams frame.streamId = none) (htype : frame.type = .headers)
      (hserver : s.conn.isClient = false) : Meets s frame
    ⟨((s.logged (.received frame)).accepted frame).conn, .new s.conn frame.streamId true⟩

/-- The stream that a frame finds. -/
def streamOf (s : System) (frame : Frame) : Stream :=
  (s.streams frame.streamId).getD (.new s.conn frame.streamId true)

theorem Meets.self {s : System} {frame : Frame} {c : Ctx} (h : s.Meets frame c) :
    c.self = s.streamOf frame := by
  cases h with
  | known hself => rw [streamOf, hself, Option.getD_some]
  | opened hself => rw [streamOf, hself, Option.getD_none]

theorem Meets.fixed {s : System} {frame : Frame} {c : Ctx} (h : s.Meets frame c) :
    c.conn.fixed = s.conn.fixed := by
  cases h <;> rfl

theorem Meets.log {s : System} {frame : Frame} {c : Ctx} (h : s.Meets frame c) :
    Grows (fun e => e = .received frame ∨ (∃ size, e = .opened frame.streamId size) ∨
      e = .startRequest frame.streamId) s.conn.log c.conn.log := by
  cases h with
  | known => exact .snoc (.inl rfl)
  | opened => exact ((Grows.snoc (.inl rfl)).trans (.snoc (.inr (.inl ⟨_, rfl⟩)))).trans (.snoc (.inr (.inr rfl)))

theorem Meets.quiet {s : System} {frame : Frame} {c : Ctx} (h : s.Meets frame c) :
    Quiet s.conn c.conn := by
  cases h with
  | known => exact .noise isNoise_received
  | opened => exact (Quiet.noise isNoise_received).trans (.trans .opened (.noise isNoise_startRequest))

def All (p : Stream → List Event → Prop) (s : System) : Prop :=
  ∀ ⦃i self⦄, s.streams i = some self → p self (logOf i s.conn.log)

variable {p : Stream → List Event → Prop} {Q : Conn → Prop} {s s' : System}

theorem All.setStream {i : Nat} {c : Ctx} (hw : WellFormed s) (h : s.All p)
    (hp : p c.self (logOf i c.conn.log)) (hc : Grows (·.concerns i) s.conn.log c.conn.log) :
    (s.setStream i c).All p := by
  intro j self hj
  by_cases hij : j = i
  · subst hij
    rw [setStream_self, Option.some.injEq] at hj
    exact hj ▸ hp
  · rw [setStream_of_ne hij] at hj
    have hj0 : j ≠ 0 := by
      rintro rfl
      simp [hw.zero] at hj
    change p self (logOf j c.conn.log)
    rw [hc.logOf_other hj0 hij]
    exact h hj

theorem All.logged {e : Event} (h : s.All p)
    (hp : ∀ ⦃self⦄, s.streams e.streamId = some self → p self (logOf e.streamId s.conn.log) →
      p self (logOf e.streamId s.conn.log ++ [e])) : (s.logged e).All p := by
  intro i self hi
  change p self (logOf i (s.conn.log ++ [e]))
  rw [logOf_append]
  by_cases hid : e.streamId = i
  · subst hid
    rw [logOf_self rfl]
    exact hp hi (h hi)
  · rw [TornadoHttp2.logOf_other hid, List.append_nil]
    exact h hi

theorem All.withStream (h : s.All p) (self : Stream)
    (hp : p self (logOf self.streamId s.conn.log ++ [.opened self.streamId self.window.size])) :
    (s.withStream self).All p := by
  intro i other hi
  change p other (logOf i (s.conn.log ++ [_]))
  rw [logOf_append]
  by_cases hid : i = self.streamId
  · subst hid
    rw [withStream_self, Option.some.injEq] at hi
    rw [logOf_opened]
    exact hi ▸ hp
  · rw [withStream_of_ne hid] at hi
    rw [TornadoHttp2.logOf_other (Ne.symm hid), List.append_nil]
    exact h hi

theorem All.handled {frame : Frame} {later : Bool} {self : Stream} (hw : WellFormed s) (h : s.All p)
    (hself : s.streams frame.streamId = some self)
    (hown : Own p Q (s.atStream frame later self).2) :
    (s.handled frame later self).All p ∧ Q (s.handled frame later self).conn := by
  have hacts := (Stream.handleFrame_acts frame later ⟨s.conn, self⟩ (hw.streamId hself))
  refine ⟨All.setStream (s := { s with lastStream := some frame.streamId }) (hw.congr rfl rfl) h ?_
    hacts.2.log, hown.2⟩
  have hp := hown.1
  rwa [show (s.atStream frame later self).2.self.streamId = frame.streamId from hacts.1] at hp

/-- One step keeps the invariant if the handlers and methods that it calls do. -/
theorem All.step (hst : Stable p Q) (hw : WellFormed s) (h : s.All p) (hQ : Q s.conn) {a : Action}
    (hconn : ∀ frame later c, a = .receive frame later → s.Reads frame → frame.streamId = 0 →
      Quiet s.conn c → Q c → Q ((Conn.handleFrame frame).run c).2)
    (hframe : ∀ frame later c, a = .receive frame later → s.Reads frame → frame.streamId ≠ 0 →
      s.Meets frame c → c.self.streamId = frame.streamId → Own p Q c →
        Own p Q ((Stream.handleFrame frame later).run c).2)
    (hmethod : ∀ i m self, a.method = some (i, m) → s.streams i = some self → self.streamId = i →
      Own p Q ⟨s.conn, self⟩ → Own p Q (m.run ⟨s.conn, self⟩).2) :
    (s.step a).All p ∧ Q (s.step a).conn := by
  have hs := step_cases s a
  revert hs
  generalize s.step a = s'
  intro hs
  have refusals {i : Nat} (hi : i ≠ 0) (hnone : s.streams i = none) :
      ∀ e ∈ logOf i s.conn.log, e.isRefusal :=
    fun e he => hw.absent hi hnone e (mem_logOf.mp he).1 (mem_logOf.mp he).2
  cases hs with
  | @received frame later r s₁ _ hloop hh ha =>
    have answer (h₁ : s₁.All p) (hQ₁ : Q s₁.conn) : s'.All p ∧ Q s'.conn := by
      cases ha with
      | nothing => exact ⟨h₁, hQ₁⟩
      | reset =>
        exact ⟨h₁.logged fun _ _ => hst.noise isNoise_rstStreamFrame,
          hst.quiet (.noise isNoise_rstStreamFrame) hQ₁⟩
      | goaway =>
        exact ⟨h₁.logged fun _ _ => hst.noise isNoise_goawayFrame,
          hst.quiet (.trans (.noise isNoise_goawayFrame) (.changed _ false)) hQ₁⟩
      | ended => exact ⟨h₁, hst.quiet (.changed _ _) hQ₁⟩
    have hr : (s.logged (.received frame)).All p := h.logged fun _ _ => hst.noise isNoise_received
    have hQr : Q (s.logged (.received frame)).conn := hst.quiet (.noise isNoise_received) hQ
    have hwr : WellFormed (s.logged (.received frame)) := hw.logged (.inr (.inl trivial))
    cases hh with
    | oversized => exact answer h hQ
    | interrupted => exact answer hr hQr
    | passed hsize hblock hd =>
      have hreads : s.Reads frame := ⟨hloop, hsize, hblock⟩
      cases hd with
      | conn hid =>
        have hc := hconn frame later _ rfl hreads hid (.noise isNoise_received) hQr
        refine answer ?_ hc
        intro i self hi
        obtain ⟨es, hlog, hes⟩ := (Conn.handleFrame_connOnly frame (s.logged (.received frame)).conn trivial).2.log
        have hi0 : i ≠ 0 := by
          rintro rfl
          simp [hwr.zero] at hi
        rw [Grows.logOf_other (i := 0) ⟨es, hlog, fun e he => ⟨.inl (hes e he).1, (hes e he).2⟩⟩ hi0 hi0]
        exact hr hi
      | @stream self hid hself =>
        have hown := hframe frame later ⟨(s.logged (.received frame)).conn, self⟩ rfl hreads hid (.known hself)
          (hw.streamId hself) ⟨hwr.streamId hself ▸ hr hself, hQr⟩
        obtain ⟨h₁, hQ₁⟩ := All.handled hwr hr hself hown
        exact answer h₁ hQ₁
      | accepted hid hself hserver htype hremote =>
        have hmeets : s.Meets frame
            ⟨((s.logged (.received frame)).accepted frame).conn, .new s.conn frame.streamId true⟩ :=
          .opened hself htype hserver
        have hwa := hwr.accepted hid hremote
        have hnew : ((s.logged (.received frame)).accepted frame).All p := by
          have hopen := hr.withStream (.new s.conn frame.streamId true)
            (hst.new none hQ fun e he =>
              hwr.absent hid hself e (mem_logOf.mp he).1 (mem_logOf.mp he).2)
          exact hopen.logged fun _ _ => hst.noise isNoise_startRequest
        have hown := hframe frame later _ rfl hreads hid hmeets rfl
          ⟨hnew accepted_self, hst.quiet hmeets.quiet hQ⟩
        obtain ⟨h₁, hQ₁⟩ := All.handled hwa hnew accepted_self hown
        exact answer h₁ hQ₁
      | _ => exact answer hr hQr
  | created =>
    have hnone : s.streams s.conn.nextStreamId = none := by
      simpa using (hw.ownIds rfl).not.mpr (by omega)
    refine ⟨?_, hst.quiet (.trans (.changed _ s.conn.closed) .opened) hQ⟩
    exact All.withStream (s := { s with conn := { s.conn with nextStreamId := s.conn.nextStreamId + 2 } })
      h _ (hst.new none hQ (refusals hw.next.ne' hnone))
  | upgraded hserver hself =>
    exact ⟨h.withStream _ (hst.new _ hQ (refusals one_ne_zero hself)), hst.quiet .opened hQ⟩
  | closed => exact ⟨h, hst.quiet (.changed _ _) hQ⟩
  | @method _ i m self ha hself =>
    have hid := hw.streamId hself
    have hown := hmethod i m self ha hself hid ⟨hid ▸ h hself, hQ⟩
    have hacts := Stream.method_acts ha ⟨s.conn, self⟩ hid
    refine ⟨h.setStream hw ?_ hacts.2.log, hown.2⟩
    exact hacts.1 ▸ hown.1
  | idle => exact ⟨h, hQ⟩

/-- What the loop, the handlers of stream 0 and everything that leaves the
attributes of the connection alone keep holds of the connection after any step. -/
theorem step_conn {a : Action} (hw : WellFormed s) (hquiet : ∀ c c', Quiet c c' → Q c → Q c')
    (hconn : ∀ frame c, Q c → Q ((Conn.handleFrame frame).run c).2)
    (hfixed : ∀ c c', c'.fixed = c.fixed → Q c → Q c') (h : Q s.conn) : Q (s.step a).conn := by
  have hstable : Stable (fun _ _ => True) Q := ⟨hquiet _ _, fun _ _ => trivial, fun _ _ _ => trivial⟩
  have hall : s.All fun _ _ => True := fun _ _ _ => trivial
  refine (hall.step (a := a) hstable hw h (fun frame _ c _ _ _ _ hc => hconn frame c hc)
    (fun frame later c _ _ _ _ hid hown => ?_) fun i m self ha _ hid hown => ?_).2
  · exact ⟨trivial, hfixed _ _ (Stream.handleFrame_acts frame later c hid).2.conn hown.2⟩
  · exact ⟨trivial, hfixed _ _ (Stream.method_acts ha ⟨s.conn, self⟩ hid).2.conn hown.2⟩

end System

end TornadoHttp2
