import TornadoHttp2.ByteNetwork
import TornadoHttp2.Potential
import TornadoHttp2.SpawnedWork
import TornadoHttp2.Standstill

/-! Two ends that are left to themselves come to rest: no schedule of what is on its way,
of writers that can run and of futures goes on for ever. -/

namespace TornadoHttp2

open Prog

namespace System

variable {s s' : System} {i : Nat} {self : Stream} {frame : Frame} {later : Bool} {toClient : Bool}

noncomputable def level (s : System) : ℕ := ∑ᶠ i, (s.streams i).elim 0 Stream.work

noncomputable def rank (s : System) : ℕ :=
  ∑ᶠ i, (s.streams i).elim 0 fun self => self.writeLock.owner.rank s.conn.window.notified self.window.notified

/-- What an end has to do, and what it has made the other do. -/
noncomputable def work (toClient : Bool) (s : System) : ℕ := s.level + sentWork toClient s.conn.log

noncomputable def potential : Duplex.Potential System Frame where
  weight toClient frame := frame.work toClient
  level := level
  rank := rank

def Finite (s : System) : Prop := ∃ I : Finset ℕ, ∀ i ∉ I, s.streams i = none

theorem Finite.sum (h : s.Finite) (f : Stream → ℕ) (i : Nat) (self : Stream) :
    ∑ᶠ j, (Function.update s.streams i (some self) j).elim 0 f + (s.streams i).elim 0 f =
      ∑ᶠ j, (s.streams j).elim 0 f + f self := by
  obtain ⟨I, hI⟩ := h
  have hupdate : (fun j => (Function.update s.streams i (some self) j).elim 0 f) =
      Function.update (fun j => (s.streams j).elim 0 f) i (f self) := by
    funext j
    by_cases hij : j = i
    · subst hij
      rw [Function.update_self, Function.update_self, Option.elim_some]
    · rw [Function.update_of_ne hij, Function.update_of_ne hij]
  rw [hupdate]
  exact finsum_update (fun j hj => by rw [hI j hj, Option.elim_none]) i (f self)

theorem Finite.update (h : s.Finite) (hstreams : s'.streams = Function.update s.streams i (some self)) : s'.Finite := by
  obtain ⟨I, hI⟩ := h
  refine ⟨insert i I, fun j hj => ?_⟩
  obtain ⟨hne, hmem⟩ := not_or.mp (Finset.mem_insert.not.mp hj)
  rw [hstreams, Function.update_of_ne hne]
  exact hI j hmem

theorem Finite.level (h : s.Finite) (hstreams : s'.streams = Function.update s.streams i (some self)) :
    s'.level + (s.streams i).elim 0 Stream.work = s.level + self.work := by
  rw [System.level, hstreams]
  exact h.sum Stream.work i self

/-- The work of one stream is a part of the work of its end. -/
theorem Finite.setStream (h : s.Finite) (hself : s.streams i = some self) (c : Ctx) :
    (s.setStream i c).work toClient + (⟨s.conn, self⟩ : Ctx).work toClient = s.work toClient + c.work toClient := by
  have hlevel : (s.setStream i c).level + (s.streams i).elim 0 Stream.work = s.level + c.self.work := h.level rfl
  rw [hself, Option.elim_some] at hlevel
  change (s.setStream i c).level + sentWork toClient c.conn.log + (sentWork toClient s.conn.log + self.work) =
    s.level + sentWork toClient s.conn.log + (sentWork toClient c.conn.log + c.self.work)
  omega

theorem work_logged {e : Event} : (s.logged e).work toClient =
    s.work toClient + e.frame.elim 0 (Frame.work toClient) := by
  change s.level + sentWork toClient (s.conn.log ++ [e]) = s.level + sentWork toClient s.conn.log + _
  rw [sentWork_snoc]
  omega

/-- A RST_STREAM frame is not refused. -/
theorem dispatch_rst (htype : frame.type = .rstStream) :
    wp (dispatch frame later) (fun _ _ => True) (fun e _ => e.isFatal) s := by
  rw [dispatch, wp_bind, wp_get, wp_bind, wp_check]
  refine ⟨fun _ => trivial, fun _ => ?_⟩
  split
  · rw [onConn, wp_zoom, Conn.handleFrame, htype]
    trivial
  · split
    · rw [handleStreamFrame, wp_bind, wp_modify, onStream, wp_bind, wp_get]
      split
      · trivial
      · rw [wp_zoom, Stream.handleFrame, wp_bind, wp_get, htype]
        dsimp only
        rw [Stream.handleRstStreamFrame, wp_bind, wp_get, wp_bind, wp_check]
        refine ⟨fun _ => trivial, fun _ => ?_⟩
        rw [wp_when, Stream.callDelegate, wp_bind, wp_get, wp_bind, wp_check]
        exact ⟨fun _ => ⟨fun _ => trivial, fun _ => trivial⟩, fun _ => trivial⟩
    · split
      · rename_i h
        cases htype.symm.trans h.2
      · rw [refuseFrame, wp_bind, wp_get]
        split
        · rw [wp_check]
          exact ⟨fun h => absurd htype h.2, fun _ => trivial⟩
        · trivial

theorem outcome_rst (htype : frame.type = .rstStream) (i : Nat) (code : ErrorCode) :
    s.outcome frame later ≠ .error (.streamError i code) := by
  have hwp : wp (do
      onConn (Conn.readFrame frame)
      dispatch frame later) (fun _ _ => True) (fun e _ => e.isFatal) s := by
    rw [wp_bind, onConn, wp_zoom, Conn.readFrame, wp_bind, wp_get, wp_bind, wp_check]
    exact ⟨fun _ => trivial, fun _ => dispatch_rst htype⟩
  intro houtcome
  rw [wp, show (Prog.run _ s).1 = _ from houtcome] at hwp
  exact hwp

theorem handled_work (hfin : s.Finite) (hself : s.streams frame.streamId = some self) :
    (s.handled frame later self).work (!s.conn.isClient) ≤
      s.work (!s.conn.isClient) + frame.spawned s.conn.isClient := by
  have hspawns : (s.atStream frame later self).2.work (!s.conn.isClient) ≤ _ :=
    (@Stream.handleFrame_spawns s.conn.isClient frame later ⟨s.conn, self⟩ rfl).2
  have hset := @Finite.setStream s _ _ (!s.conn.isClient) hfin hself (s.atStream frame later self).2
  change (s.setStream frame.streamId (s.atStream frame later self).2).work _ ≤ _
  omega

theorem accepted_work (hfin : s.Finite) (hnone : s.streams frame.streamId = none) :
    (s.accepted frame).work toClient = s.work toClient := by
  have hlevel : (s.accepted frame).level + (s.streams frame.streamId).elim 0 Stream.work =
      s.level + (Stream.new s.conn frame.streamId true).work := hfin.level rfl
  have hnew : (Stream.new s.conn frame.streamId true).work = 0 := rfl
  rw [hnone, Option.elim_none] at hlevel
  have hlog : sentWork toClient (s.accepted frame).conn.log = sentWork toClient s.conn.log := by
    change sentWork toClient ((s.conn.log ++ [_]) ++ [_]) = _
    rw [sentWork_snoc, sentWork_snoc]
    rfl
  rw [System.work, System.work, hlog]
  omega

theorem Dispatched.work {r : Except PyException Unit} (hfin : s.Finite) (hd : Dispatched s frame later r s') :
    s'.work (!s.conn.isClient) ≤ s.work (!s.conn.isClient) + frame.spawned s.conn.isClient := by
  cases hd with
  | conn =>
    have hspawns : sentWork (!s.conn.isClient) ((Conn.handleFrame frame).run s.conn).2.log ≤
        sentWork (!s.conn.isClient) s.conn.log + _ :=
      (@Conn.handleFrame_spawns s.conn.isClient frame s.conn rfl).2
    change s.level + sentWork _ ((Conn.handleFrame frame).run s.conn).2.log ≤ s.level + sentWork _ s.conn.log + _
    omega
  | stream hid hself => exact handled_work hfin hself
  | accepted hid hnone =>
    have haccepted : (s.accepted frame).Finite := hfin.update rfl
    rw [← accepted_work hfin hnone]
    exact handled_work haccepted accepted_self
  | _ => exact Nat.le_add_right _ _

/-- A frame is worth more than what an end that goes on makes of it. -/
theorem receive_lowers (hfin : s.Finite) (hloop : (s.step (.receive frame later)).loop = .running) :
    (s.step (.receive frame later)).work (!s.conn.isClient) <
      s.work (!s.conn.isClient) + frame.work s.conn.isClient := by
  have hreads := Reads.of_running hloop
  obtain ⟨s₁, hh, ha⟩ := step_outcome hreads.1 frame later
  have hhandled : s₁.work (!s.conn.isClient) ≤ s.work (!s.conn.isClient) + frame.spawned s.conn.isClient := by
    have hreceived : (s.logged (.received frame)).work (!s.conn.isClient) = s.work (!s.conn.isClient) := work_logged
    generalize s.outcome frame later = r at hh
    cases hh with
    | oversized => exact Nat.le_add_right _ _
    | interrupted => exact hreceived.le.trans (Nat.le_add_right _ _)
    | passed _ _ hd =>
      rw [← hreceived]
      have hlogged : (s.logged (.received frame)).Finite := hfin
      exact hd.work hlogged
  by_cases htype : frame.type = .rstStream
  · have hnot := @outcome_rst s frame later htype
    have hspawned : frame.spawned s.conn.isClient = 0 := by rw [Frame.spawned, htype]
    have hwork : frame.work s.conn.isClient = 1 := if_pos htype
    generalize s.step (.receive frame later) = s' at ha hloop
    generalize s.outcome frame later = r at ha hnot
    cases ha with
    | nothing => omega
    | reset => exact absurd rfl (hnot _ _)
    | goaway => cases hloop
    | ended => cases hloop
  · have hwork : frame.work s.conn.isClient = frame.spawned s.conn.isClient + 2 := if_neg htype
    generalize s.step (.receive frame later) = s' at ha hloop
    generalize s.outcome frame later = r at ha
    cases ha with
    | nothing => omega
    | reset =>
      rw [work_logged]
      change _ + 1 < _
      omega
    | goaway => cases hloop
    | ended => cases hloop

/-- A writer that can run gets on. -/
theorem resume_lowers {b flushed : Bool} (hfin : s.Finite) (hself : s.streams i = some self)
    (hfits : PieceFits self.writeLock.owner self.window.size) (hmoves : s.step (.resume i flushed) ≠ s) :
    potential.Lowers party b s (s.step (.resume i flushed)) := by
  have hstep : s.step (.resume i flushed) = s.setStream i ((Stream.resume flushed).run ⟨s.conn, self⟩).2 :=
    step_stream rfl hself
  have hawake : ¬ self.writeLock.owner.Sleeps s.conn.window self.window := by
    intro hsleeps
    refine hmoves (hstep.trans ?_)
    rw [@Stream.resume_idle ⟨s.conn, self⟩ hsleeps flushed, setStream_same hself]
  obtain ⟨hparent, hlowers⟩ := @Stream.resume_lowers ⟨s.conn, self⟩ (!b) hfits hawake flushed
  rw [hstep]
  generalize ((Stream.resume flushed).run ⟨s.conn, self⟩).2 = c at hparent hlowers
  have hset := @Finite.setStream s i self (!b) hfin hself c
  rcases hlowers with hlt | ⟨heq, hlt⟩
  · refine .inl ?_
    change (s.setStream i c).work (!b) < s.work (!b)
    omega
  · refine .inr ⟨?_, ?_⟩
    · change (s.setStream i c).work (!b) = s.work (!b)
      omega
    · have hsum := hfin.sum (fun self => self.writeLock.owner.rank s.conn.window.notified self.window.notified) i c.self
      have hafter : (s.setStream i c).rank = ∑ᶠ j, (Function.update s.streams i (some c.self) j).elim 0
          fun self => self.writeLock.owner.rank s.conn.window.notified self.window.notified := by
        rw [← hparent]
        rfl
      rw [hself, Option.elim_some, ← hafter] at hsum
      rw [Ctx.rank, hparent] at hlt
      change c.self.writeLock.owner.rank s.conn.window.notified c.self.window.notified <
        self.writeLock.owner.rank s.conn.window.notified self.window.notified at hlt
      change (s.setStream i c).rank < s.rank
      change _ = s.rank + _ at hsum
      omega

theorem resolve_lowers {k : ℕ} (hfin : s.Finite) (hself : s.streams i = some self)
    (hk : k < self.pendingCredits.length) :
    (s.step (.resolve i k)).work (!s.conn.isClient) < s.work (!s.conn.isClient) := by
  have hresolved : ((Stream.resolveData k).run ⟨s.conn, self⟩).2.work (!s.conn.isClient) <
      (⟨s.conn, self⟩ : Ctx).work (!s.conn.isClient) :=
    @Stream.resolveData_work k ⟨s.conn, self⟩ hk
  have hset := @Finite.setStream s i self (!s.conn.isClient) hfin hself ((Stream.resolveData k).run ⟨s.conn, self⟩).2
  rw [step_stream rfl hself]
  omega

end System

namespace Network

variable {n : Network} {a : Action} {b : Bool}

/-- What needs nobody to begin it: a frame that is on its way arrives, a writer that can
run does, or a future is resolved. -/
inductive Due (n : Network) : Action → Prop
  | arrives (b later : Bool) : n.wire b ≠ [] → Due n (.deliver b later)
  | resumes (b flushed : Bool) (i : Nat) : (n.ends b).step (.resume i flushed) ≠ n.ends b →
      Due n (.act b (.resume i flushed))
  | resolves (b : Bool) (i k : Nat) (self : Stream) : (n.ends b).streams i = some self →
      k < self.pendingCredits.length →
    Due n (.act b (.resolve i k))

theorem Settled.finite (h : Settled n) (b : Bool) : (n.ends b).Finite := by
  refine ⟨((n.ends b).conn.log.map Event.streamId).toFinset, fun i hi => ?_⟩
  by_contra hsome
  obtain ⟨e, he, hid⟩ := h.known (Option.isSome_iff_ne_none.mpr hsome)
  exact hi (List.mem_toFinset.mpr (List.mem_map.mpr ⟨e, he, hid⟩))

/-- Whatever is due, there is less to do once it is done. -/
theorem Settled.measure_lt (h : Settled n) (hclient : ∀ b, (n.ends b).conn.isClient = b) (hdue : Due n a)
    (hon : ∀ c, ((n.step a).ends c).GoesOn) : System.potential.measure (n.step a) < System.potential.measure n := by
  cases hdue with
  | arrives b later hne =>
    obtain ⟨frame, rest, hwire⟩ := List.exists_cons_of_ne_nil hne
    have hdeliver : n.step (.deliver b later) =
        if System.party.listens (n.ends b) then (n.pop b).perform System.party b (.receive frame later) else n := by
      rw [step, Duplex.Net.step, hwire]
      rfl
    by_cases hl : System.party.listens (n.ends b) = true
    · rw [if_pos hl] at hdeliver
      have hloop := (hon b).loop
      rw [hdeliver, Duplex.perform_ends] at hloop
      rw [hdeliver]
      refine Duplex.Potential.deliver_lt (i := later) (h.sound.inv b) hwire ?_
      have hlt := System.receive_lowers (h.finite b) hloop
      rw [hclient] at hlt
      exact hlt
    · rw [if_neg hl] at hdeliver
      have hloop := (hon b).loop
      rw [hdeliver] at hloop
      exact absurd (decide_eq_true hloop) hl
  | resumes b flushed i hmoves =>
    have hself : (n.ends b).streams i ≠ none := fun hnone => hmoves (System.step_absent rfl hnone)
    obtain ⟨self, hself⟩ := Option.ne_none_iff_exists'.mp hself
    exact Duplex.Potential.act_lt (h.sound.inv b)
      (System.resume_lowers (h.finite b) hself ((h.balances b).flow.streams hself).2 hmoves)
  | resolves b i k self hself hk =>
    have hlt := System.resolve_lowers (h.finite b) hself hk
    rw [hclient] at hlt
    exact Duplex.Potential.act_lt (h.sound.inv b) (.inl hlt)

/-- Where nothing is due, there is nothing left to do. -/
theorem exists_due (hon : ∀ c, (n.ends c).GoesOn) (h : ¬ AtRest n) : ∃ a, Due n a := by
  by_contra hnone
  refine h ⟨hon, fun b => ?_, fun {b i self} hself => ?_, fun b i => ?_⟩
  · by_contra hwire
    exact hnone ⟨_, .arrives b false hwire⟩
  · by_contra hcredits
    exact hnone ⟨_, .resolves b i 0 self hself (List.length_pos_of_ne_nil hcredits)⟩
  · by_contra hmoves
    exact hnone ⟨_, .resumes b true i hmoves⟩

theorem run_isClient (params : Bool → Params) (actions : List Action) (b : Bool) :
    (((start params).run actions).ends b).conn.isClient = b := by
  obtain ⟨steps, hsteps⟩ := ends_run params actions b
  rw [hsteps, System.run_isClient]

/-- No schedule of what is due goes on for ever, whatever was done before it. -/
theorem due_wellFounded (params : Bool → Params) : WellFounded fun n' n : Network =>
    ∃ actions a, n = (start params).run actions ∧ Due n a ∧ n' = n.step a ∧ ∀ c, (n'.ends c).GoesOn := by
  refine Subrelation.wf (r := InvImage (· < ·) System.potential.measure) ?_ (InvImage.wf _ wellFounded_lt)
  rintro n' n ⟨actions, a, rfl, hdue, rfl, hon⟩
  exact (settled params actions).measure_lt (run_isClient params actions) hdue hon

/-- What was begun can be brought to an end without beginning anything else. -/
theorem comes_to_rest (params : Bool → Params) (actions : List Action) : ∃ more : List Action,
    Duplex.Potential.Follows System.party Due ((start params).run actions) more ∧
    (AtRest ((start params).run (actions ++ more)) ∨
      ∃ c, ¬ (((start params).run (actions ++ more)).ends c).GoesOn) := by
  let Reached (n : Network) : Prop := ∃ actions, n = (start params).run actions
  let Rest (n : Network) : Prop := AtRest n ∨ ∃ c, ¬ (n.ends c).GoesOn
  have hstep (n : Network) (hreached : Reached n) (hrest : ¬ Rest n) :
      ∃ a, Due n a ∧ Reached (n.step a) ∧
      (Rest (n.step a) ∨ System.potential.measure (n.step a) < System.potential.measure n) := by
    obtain ⟨actions, rfl⟩ := hreached
    obtain ⟨hnot, hon⟩ := not_or.mp hrest
    obtain ⟨a, hdue⟩ := exists_due (fun c => not_not.mp (not_exists.mp hon c)) hnot
    refine ⟨a, hdue, ⟨actions ++ [a], (List.foldl_concat ..).symm⟩, ?_⟩
    by_cases hafter : ∀ c, ((((start params).run actions).step a).ends c).GoesOn
    · exact .inr ((settled params actions).measure_lt (run_isClient params actions) hdue hafter)
    · exact .inl (.inr (not_forall.mp hafter))
  obtain ⟨more, hmore, hrest⟩ :=
    System.potential.reaches_rest System.party hstep ((start params).run actions) ⟨actions, rfl⟩
  refine ⟨more, hmore, ?_⟩
  have hrun : (start params).run (actions ++ more) = Duplex.Net.run System.party ((start params).run actions) more :=
    Duplex.run_append ..
  rw [hrun]
  exact hrest

end Network

end TornadoHttp2
