import TornadoHttp2.ControlReplies
import TornadoHttp2.Costs
import TornadoHttp2.Workload

/-! What an end does in reply to a frame is worth less than the frame. -/

namespace TornadoHttp2

open Prog Ctx

/-- Nothing is written, queued or left unresolved. -/
structure Ctx.Quietly (c c' : Ctx) : Prop where
  isClient : c'.conn.isClient = c.conn.isClient
  lock : c'.self.writeLock = c.self.writeLock
  pending : c'.self.pendingCredits = c.self.pendingCredits
  log : framesOf c'.conn.log = framesOf c.conn.log

instance : Std.Refl Ctx.Quietly := ⟨fun _ => ⟨rfl, rfl, rfl, rfl⟩⟩

instance : IsTrans Ctx Ctx.Quietly := ⟨fun _ _ _ h h' =>
  ⟨h'.isClient.trans h.isClient, h'.lock.trans h.lock, h'.pending.trans h.pending, h'.log.trans h.log⟩⟩

theorem Ctx.Quietly.work {c c' : Ctx} (h : c.Quietly c') (toClient : Bool) : c'.work toClient = c.work toClient := by
  rw [Ctx.work, Ctx.work, sentWork, sentWork, Stream.work, Stream.work, h.log, h.lock, h.pending]

theorem Ctx.Quietly.logged {c : Ctx} {e : Event} (he : e.frame = none) : c.Quietly (c.logged e) := by
  refine ⟨rfl, rfl, rfl, (framesOf_append ..).trans ?_⟩
  rw [show framesOf [e] = [] from List.filterMap_eq_nil_iff.mpr (by simpa using he), List.append_nil]

namespace Stream

variable {isClient : Bool} {frame : Frame}

abbrev At (isClient : Bool) (c : Ctx) : Prop := c.conn.isClient = isClient

abbrev Spawns {α : Type} (isClient : Bool) (k : ℕ) (m : OnStream α) : Prop :=
    Adds (At isClient) (Ctx.work !isClient) k m

theorem quietly_of {α : Type} {m : OnStream α} (h : ∀ c : Ctx, c.Quietly (m.run c).2) :
    Keeps (At isClient) Ctx.Quietly m :=
  fun c hc => ⟨(h c).isClient.trans hc, h c⟩

theorem callDelegate_quietly {call : DelegateCall} : Keeps (At isClient) Ctx.Quietly (callDelegate call) :=
  .get_bind fun _ _ => .bind .check fun _ => quietly_of fun _ => .logged rfl

theorem keepsReceiving_quietly : KeepsReceiving (At isClient) Ctx.Quietly where
  set f h := quietly_of fun c => by
    have hkept := h c.self
    simp only [kept, Stream.sending, Prod.mk.injEq] at hkept
    exact ⟨rfl, hkept.1.2.2.1, hkept.2.2, rfl⟩
  frames _ := quietly_of fun _ => ⟨rfl, rfl, rfl, rfl⟩
  decode _ := .bind (quietly_of fun _ => .logged rfl) fun _ => .get_bind fun c _ => by
    rcases c.conn.hpackDecoder.decode c.conn.huffmanTree _ with ⟨_ | _, _, _⟩
    · exact .bind (quietly_of fun _ => ⟨rfl, rfl, rfl, rfl⟩) fun _ => .raise _
    · exact .bind (quietly_of fun _ => ⟨rfl, rfl, rfl, rfl⟩) fun _ => .pure _
  headers _ _ := callDelegate_quietly
  finish := callDelegate_quietly
  close := callDelegate_quietly

theorem spawns_none {α : Type} {m : OnStream α} (h : Keeps (At isClient) Ctx.Quietly m) : Spawns isClient 0 m :=
  .of_keeps h fun _ _ hq => hq.work _

theorem writeFrame_spawns (frame : Frame) : Spawns isClient (frame.work !isClient) (writeFrame frame) := by
  intro c hc
  refine (wp_state (P := fun c' : Ctx => c'.conn.isClient = isClient ∧
    c'.work (!isClient) ≤ c.work (!isClient) + _)).mp ?_
  rw [writeFrame_wp]
  split
  · exact ⟨hc, Nat.le_add_right _ _⟩
  · split
    · exact ⟨hc, Nat.le_add_right _ _⟩
    · exact ⟨hc, (@work_logged (!isClient) c (.wrote frame)).le⟩

theorem sendWindowUpdate_spawns (amount : Nat) : Spawns isClient 4 (sendWindowUpdate amount) :=
  .get_bind fun c _ => .check_bind ((writeFrame_spawns ⟨.windowUpdate, 0, 0, packBytes 4 amount⟩).bind fun _ =>
    writeFrame_spawns ⟨.windowUpdate, 0, c.self.streamId, packBytes 4 amount⟩)

theorem deliverData_spawns {later : Bool} {data : Bytes} : Spawns isClient 5 (deliverData later data) := by
  refine .after (spawns_none callDelegate_quietly) fun _ => .ite (fun _ c hc => ⟨hc, ?_⟩) fun _ =>
    (sendWindowUpdate_spawns data.length).mono (by decide)
  change sentWork _ c.conn.log + (c.self.writeLock.work + 5 * (c.self.pendingCredits ++ [data.length]).length) ≤
    sentWork _ c.conn.log + (c.self.writeLock.work + 5 * c.self.pendingCredits.length) + 5
  rw [List.length_append, List.length_singleton]
  omega

/-- What comes after a part may add nothing. -/
theorem Spawns.done {α β : Type} {k : ℕ} {m : OnStream α} (hm : Spawns isClient k m) {g : α → OnStream β}
    (hg : ∀ a, Spawns isClient 0 (g a)) : Spawns isClient k (m >>= g) := Adds.bind hm hg

theorem handleDataFrame_spawns {later : Bool} : Spawns isClient 5 (handleDataFrame frame later) := by
  refine .get_bind fun c _ => .check_bind
    (.check_bind (.after (spawns_none (keepsReceiving_quietly.set _ fun _ => rfl)) fun _ =>
    .ofExcept_bind fun f _ => .after (spawns_none (countIncoming_keeps keepsReceiving_quietly.set)) fun _ => ?_))
  refine Spawns.done (.when fun _ => deliverData_spawns) fun _ => ?_
  exact spawns_none (.bind (maybeEndStream_keeps keepsReceiving_quietly.set callDelegate_quietly) fun _ => .pure _)

/-! The two calls that refuse a header block. -/

section

variable {c c' : Ctx} {toClient : Bool}

theorem work_prepared (h : Prepared c c') : c'.work toClient = c.work toClient := by
  cases h with
  | undeclared => rfl
  | declared length =>
      exact work_logged (c := { c with self := { c.self with outgoingContentRemaining := some length } })

theorem work_issued {call : Call} : (c.issued call).work toClient = c.work toClient := work_logged

theorem writeHeaders_work {startLine : StartLine Bytes}
    {headers : HTTPHeaders Bytes} (h : WritesHeaders c startLine headers [] none c') :
    c'.work true ≤ c.work true + 3 := by
  cases h with
  | failed hp hr =>
    have hreset := (@work_resets _ true _ hr).1
    rw [work_prepared hp, work_issued] at hreset
    omega
  | written hheads hr =>
    have hreset := (@work_resets _ true _ hr).1
    cases hheads with
    | @mk data c₁ _ _ hp _ hwrite =>
      have hblock : (c₁.logged (.wrote (c.headersFrame data))).work true = c₁.work true + 2 := work_logged
      rw [work_prepared hp, work_issued] at hblock
      cases hwrite with
      | rejected hne => exact absurd rfl hne
      | accepted hne => exact absurd rfl hne
      | empty =>
        have hempty : ((c₁.logged (.wrote (c.headersFrame data))).logged (.accepted c₁.self.streamId [])).work true =
            (c₁.logged (.wrote (c.headersFrame data))).work true := work_logged
        change _ ≤
          Ctx.work true ((c₁.logged (.wrote (c.headersFrame data))).logged (.accepted c₁.self.streamId [])) + 1
          at hreset
        omega

theorem slice_work {point : YieldPoint} (howner : c.self.writeLock.owner = .writer .endStream point) (hs : Slice c c') :
    c'.work toClient ≤ c.work toClient := by
  cases hs with
  | idle => exact le_refl _
  | ends =>
    have hdone := @work_released (c.logged (.wrote c.endStreamFrame)) toClient .endStream point howner
    have hwrote : (c.logged (.wrote c.endStreamFrame)).work toClient = c.work toClient + 7 := work_logged
    have hjob := Job.endStream.work_pos
    omega
  | @aborts _ c₁ _ hr =>
    obtain ⟨hreset, hself, -⟩ := @work_resets _ toClient _ hr
    have hdone := @work_released c₁ toClient .endStream point (by rw [hself, howner])
    have hjob := Job.endStream.work_pos
    omega
  | failed h | finished h | waits h | waitsParent h | takes h | debits h | writes h => cases howner.symm.trans h

/-- The end of a stream is one job more, or has been written already. -/
theorem finish_work (h : Finishes c c') : c'.work toClient ≤ c.work toClient + 8 := by
  cases h with
  | short _ _ hr =>
    have hreset := (@work_resets _ toClient _ hr).1
    rw [work_issued] at hreset
    omega
  | ends _ ha =>
    have hissued := @work_issued c toClient .finish
    cases ha with
    | queued =>
      have hwork := @work_withLock toClient (c.issued .finish)
        { (c.issued .finish).self.writeLock with waiters := (c.issued .finish).self.writeLock.waiters ++ [.endStream] }
      rw [WriteLock.work_enqueued] at hwork
      rw [Ctx.enqueued]
      change _ = _ + (_ + 8) at hwork
      omega
    | granted hfree hs =>
      have hwork := @work_withLock toClient (c.issued .finish)
        { (c.issued .finish).self.writeLock with owner := .writer .endStream .lock }
      rw [WriteLock.work_granted hfree] at hwork
      have hslice := @slice_work _ _ toClient .lock rfl hs
      rw [Ctx.withOwner] at hslice
      change _ = _ + (_ + 8) at hwork
      omega

end

theorem checkHeaderLength_spawns : Spawns isClient (if isClient then 0 else 11) checkHeaderLength := by
  refine .get_bind fun c hc => .when fun _ => ?_
  cases isClient with
  | true =>
    rw [if_pos (show c.conn.isClient = true from hc)]
    exact spawns_none callDelegate_quietly
  | false =>
    have hserver : c.conn.isClient = false := hc
    rw [hserver, if_neg Bool.false_ne_true]
    have hwrite : Spawns false 3 (writeHeaders (.response 431) .empty [] none) := fun c hc =>
      ⟨(congrArg Prod.fst (writeHeaders_sends c rfl).2.conn).trans hc, writeHeaders_work (wp_state.mp writeHeaders_wp)⟩
    have hfinish : Spawns false 8 finish := fun c hc =>
      ⟨(congrArg Prod.fst (finish_sends c rfl).2.conn).trans hc, finish_work (wp_state.mp finish_wp)⟩
    exact .after (spawns_none (keepsReceiving_quietly.set _ fun _ => rfl)) fun _ => hwrite.bind fun _ => hfinish

theorem appendHeaderFrame_spawns : Spawns isClient (if isClient then 0 else 11) (appendHeaderFrame frame) :=
  .after (spawns_none (keepsReceiving_quietly.frames _)) fun _ => checkHeaderLength_spawns.done fun _ =>
    .when fun _ => spawns_none keepsReceiving_quietly.parseHeaders

theorem handleFrame_spawns {later : Bool} : Spawns isClient (frame.spawned isClient) (handleFrame frame later) := by
  rw [Frame.spawned]
  refine .get_bind fun c _ => ?_
  cases htype : frame.type with
  | priority => exact spawns_none handlePriorityFrame_keeps
  | rstStream => exact spawns_none (handleRstStreamFrame_keeps callDelegate_quietly)
  | windowUpdate =>
    have hupdate : Keeps (At isClient) Ctx.Quietly (handleWindowUpdateFrame frame) :=
      .get_bind fun _ _ => .bind (quietly_of fun _ => ⟨rfl, rfl, rfl, rfl⟩) fun _ => quietly_of fun _ => .logged rfl
    exact spawns_none hupdate
  | settings => exact .raise _
  | goaway => exact .raise _
  | pushPromise => exact .raise _
  | ping => exact .check_bind (.pure _)
  | unknown => exact .check_bind (.pure _)
  | data => exact .check_bind handleDataFrame_spawns
  | headers =>
    exact .check_bind (.get_bind fun _ _ => .after
      (.when fun _ => spawns_none (keepsReceiving_quietly.set _ fun _ => rfl)) fun _ =>
      .ofExcept_bind fun _ _ => appendHeaderFrame_spawns)
  | continuation => exact .check_bind (.get_bind fun _ _ => .check_bind appendHeaderFrame_spawns)

/-- A future that is resolved is worth more than its two frames. -/
theorem resolveData_work {k : ℕ} {c : Ctx} (hk : k < c.self.pendingCredits.length) :
    ((resolveData k).run c).2.work (!c.conn.isClient) < c.work (!c.conn.isClient) := by
  let c₁ : Ctx := ⟨c.conn, { c.self with pendingCredits := c.self.pendingCredits.eraseIdx k }⟩
  have hrun : (resolveData k).run c = (sendWindowUpdate c.self.pendingCredits[k]).run c₁ := by
    rw [resolveData, run_get_bind, List.getElem?_eq_getElem hk]
    rfl
  have hspawns := (@sendWindowUpdate_spawns c.conn.isClient c.self.pendingCredits[k] c₁ rfl).2
  have herased : c₁.work (!c.conn.isClient) + 5 = c.work (!c.conn.isClient) := by
    change sentWork _ c.conn.log + (c.self.writeLock.work + 5 * (c.self.pendingCredits.eraseIdx k).length) + 5 =
      sentWork _ c.conn.log + (c.self.writeLock.work + 5 * c.self.pendingCredits.length)
    rw [List.length_eraseIdx_of_lt hk]
    omega
  rw [hrun]
  omega

end Stream

namespace Conn

variable {isClient : Bool} {frame : Frame}

abbrev Spawns {α : Type} (isClient : Bool) (k : ℕ) (m : OnConn α) : Prop :=
  Adds (fun c : Conn => c.isClient = isClient) (fun c => sentWork (!isClient) c.log) k m

theorem writeFrame_spawns (f : Frame) : Spawns isClient (f.work !isClient) (writeFrame f) := by
  intro c hc
  have hwrote := @sentWork_snoc (!isClient) c.log (.wrote f)
  refine (wp_state (P := fun c' : Conn => c'.isClient = isClient ∧
    sentWork (!isClient) c'.log ≤ sentWork (!isClient) c.log + _)).mp ?_
  rw [writeFrame, wp_bind, wp_check]
  refine ⟨fun _ => ⟨hc, Nat.le_add_right _ _⟩, fun _ => ?_⟩
  rw [wp_bind, wp_get, wp_bind, wp_check]
  exact ⟨fun _ => ⟨hc, Nat.le_add_right _ _⟩, fun _ => ⟨hc, hwrote.le⟩⟩

theorem applySettings_spawns (data : Bytes) : Spawns isClient 0 (applySettings data) := by
  intro c hc
  obtain ⟨settings, hrun | ⟨e, -, hrun⟩⟩ := applySettings_outcome data c <;> rw [hrun] <;> exact ⟨hc, le_refl _⟩

/-- The handlers of stream 0 write the reply that is due. -/
theorem handleFrame_spawns : Spawns isClient (frame.spawned isClient) (handleFrame frame) := by
  rw [handleFrame, Frame.spawned]
  cases frame.type with
  | settings =>
    rw [handleSettingsFrame]
    by_cases hack : frame.has .ack = true
    · rw [if_pos hack, if_pos hack]
      exact .when fun _ => .raise _
    · rw [if_neg hack, if_neg hack]
      exact .after (applySettings_spawns _) fun _ => writeFrame_spawns settingsAckFrame
  | ping =>
    rw [handlePingFrame]
    by_cases hack : frame.has .ack = true
    · rw [if_pos hack, if_pos hack]
      exact .pure _
    · rw [if_neg hack, if_neg hack]
      have hreply : (⟨.ping, FrameFlag.ack.value, 0, frame.data⟩ : Frame).has .ack = true := by
        change decide (FrameFlag.ack.value &&& FrameFlag.ack.value ≠ 0) = true
        decide
      have hwork : Frame.work (!isClient) ⟨.ping, FrameFlag.ack.value, 0, frame.data⟩ =
        2 := by simp [Frame.work, Frame.spawned, hreply]
      have hspawns := @writeFrame_spawns isClient ⟨.ping, FrameFlag.ack.value, 0, frame.data⟩
      rw [hwork] at hspawns
      exact .check_bind hspawns
  | windowUpdate =>
    refine .after (fun _ hc => ⟨hc, le_refl _⟩) fun amount c hc => ⟨hc, ?_⟩
    exact (@sentWork_snoc (!isClient) c.log (.credited none amount)).le
  | goaway => exact .after (fun _ hc => ⟨hc, le_refl _⟩) fun _ => .raise _
  | unknown => exact .pure _
  | _ => exact .raise _

end Conn

end TornadoHttp2
