import TornadoHttp2.WellFormed

/-! Header blocks over the limit. Only the frame that takes the header block of
a server's stream past `max_header_size` makes the receiving half send. -/

namespace TornadoHttp2

namespace Stream

open Prog Ctx

/-- The frame takes the header block past the limit. -/
def exceeds (s : Stream) (maxHeaderSize : Nat) (frame : Frame) : Bool :=
  !s.finished && match frame.type with
    | .headers => frame.withoutPadding.toOption.any fun f => s.headerLength + f.data.length > maxHeaderSize
    | .continuation => s.headerFrames ≠ [] && s.headerLength + frame.data.length > maxHeaderSize
    | _ => false

section

variable {frame : Frame} {later : Bool} {c : Ctx}

theorem exceeds_type {s : Stream} {n : Nat} (h : s.exceeds n frame = true) :
    frame.type = .headers ∨ frame.type = .continuation := by
  cases htype : frame.type <;> simp [exceeds, htype] at h ⊢

theorem headerLength_append {s : Stream} :
    headerLength { s with headerFrames := s.headerFrames ++ [frame] } = s.headerLength + frame.data.length := by
  simp [headerLength]

theorem handleFrame_headers (htype : frame.type = .headers) : (handleFrame frame later).run c =
    (if c.self.finished = true then raise (.streamError c.self.streamId .streamClosed)
      else handleHeadersFrame frame).run c := by
  rw [handleFrame, run_get_bind, htype]
  simp only [check, when]
  split <;> rfl

theorem handleFrame_continuation (htype : frame.type = .continuation) : (handleFrame frame later).run c =
    (if c.self.finished = true then raise (.streamError c.self.streamId .streamClosed)
      else handleContinuationFrame frame).run c := by
  rw [handleFrame, run_get_bind, htype]
  simp only [check, when]
  split <;> rfl

theorem handleFrame_receives {i : Nat} (hheaders : frame.type ≠ .headers)
    (hcontinuation : frame.type ≠ .continuation) (hupdate : frame.type ≠ .windowUpdate) :
    Receives i (handleFrame frame later) := by
  refine .get_bind fun c _ => ?_
  cases htype : frame.type with
  | headers => exact absurd htype hheaders
  | continuation => exact absurd htype hcontinuation
  | windowUpdate => exact absurd htype hupdate
  | priority => exact handlePriorityFrame_keeps
  | rstStream => exact handleRstStreamFrame_receives
  | settings => exact .raise _
  | goaway => exact .raise _
  | pushPromise => exact .raise _
  | ping => exact .bind .check fun _ => .pure _
  | unknown => exact .bind .check fun _ => .pure _
  | data => exact .bind .check fun _ => handleDataFrame_receives

theorem appendHeaderFrame_receives (hfits : c.conn.isClient = true ∨
    c.self.headerLength + frame.data.length ≤ c.conn.params.maxHeaderSize) :
    ReceivesOnly c.self.streamId c ((appendHeaderFrame frame).run c).2 := by
  have happended : ReceivesOnly c.self.streamId c
      ⟨c.conn, { c.self with headerFrames := c.self.headerFrames ++ [frame] }⟩ := ⟨rfl, rfl, .refl⟩
  have hparse : Receives c.self.streamId (when (frame.has .endHeaders = true) parseHeaders) :=
    .when fun _ => parseHeaders_receives
  have parses {c' : Ctx} (h : ReceivesOnly c.self.streamId c c') :
      wp (when (frame.has .endHeaders = true) parseHeaders) (fun _ => ReceivesOnly c.self.streamId c)
        (fun _ => ReceivesOnly c.self.streamId c) c' :=
    wp_state.mpr (IsTrans.trans _ _ _ h (hparse c' h.acts.self).2)
  refine wp_state.mp ?_
  rw [appendHeaderFrame, setSelf, wp_bind, wp_modify, wp_bind, checkHeaderLength, wp_bind, wp_get, wp_when]
  refine ⟨fun hover => ?_, fun _ => parses happended⟩
  rw [headerLength_append] at hover
  have hclient := hfits.resolve_right (not_le.mpr hover)
  rw [wp_ite]
  refine ⟨fun _ => ?_, fun hserver => absurd hclient hserver⟩
  refine wp_mono (wp_state.mpr (callDelegate_receives _ rfl).2) ?_ ?_
  · exact fun _ _ h => parses (IsTrans.trans _ _ _ happended h)
  · exact fun _ _ h => IsTrans.trans _ _ _ happended h

/-- Only a frame that exceeds the limit makes a stream send. -/
theorem handleFrame_receives_of_fits (hupdate : frame.type ≠ .windowUpdate)
    (hfits : c.conn.isClient = true ∨ c.self.exceeds c.conn.params.maxHeaderSize frame = false) :
    ReceivesOnly c.self.streamId c ((handleFrame frame later).run c).2 := by
  by_cases hheaders : frame.type = .headers
  · rw [handleFrame_headers hheaders]
    split
    · exact ⟨rfl, rfl, .refl⟩
    · rename_i hfinished
      have rest {c₁ : Ctx} (h : ReceivesOnly c.self.streamId c c₁) (hconn : c₁.conn = c.conn)
          (hlength : c₁.self.headerLength = c.self.headerLength) :
          wp (do
            let frame ← ofExcept frame.withoutPadding
            appendHeaderFrame frame)
            (fun _ => ReceivesOnly c.self.streamId c) (fun _ => ReceivesOnly c.self.streamId c) c₁ := by
        cases hframe : frame.withoutPadding with
        | error e => exact h
        | ok f =>
          refine wp_state.mpr (IsTrans.trans _ _ _ h ?_)
          rw [← h.acts.self]
          refine appendHeaderFrame_receives ?_
          rw [hconn, hlength]
          refine hfits.imp_right fun hfits => ?_
          simpa [exceeds, hheaders, hfinished, hframe, Except.toOption] using hfits
      refine wp_state.mp ?_
      rw [handleHeadersFrame, wp_bind, wp_get, wp_bind, wp_when]
      refine ⟨fun _ => ?_, fun _ => rest ⟨rfl, rfl, .refl⟩ rfl rfl⟩
      exact @rest ⟨c.conn, { c.self with phase := .trailers }⟩ ⟨rfl, rfl, .refl⟩ rfl rfl
  · by_cases hcontinuation : frame.type = .continuation
    · rw [handleFrame_continuation hcontinuation]
      split
      · exact ⟨rfl, rfl, .refl⟩
      · rename_i hfinished
        refine wp_state.mp ?_
        rw [handleContinuationFrame, wp_bind, wp_get, wp_bind, wp_check]
        refine ⟨fun _ => ⟨rfl, rfl, .refl⟩, fun hframes => wp_state.mpr ?_⟩
        refine appendHeaderFrame_receives (hfits.imp_right fun h => ?_)
        simpa [exceeds, hcontinuation, hfinished, hframes] using h
    · exact (handleFrame_receives hheaders hcontinuation hupdate c rfl).2

end

/-- A header block over the limit in two phases: `I` holds until the stream has
sent its own response headers, and `J` from then on. -/
structure Refuses (I J : Ctx → Prop) : Prop where
  before {c c' : Ctx} : I c → ReceivesOnly c.self.streamId c c' → I c'
  after {c c' : Ctx} : J c → ReceivesOnly c.self.streamId c c' → J c'
  le {c : Ctx} : I c → J c
  write {c : Ctx} : I c → wp (writeHeaders (.response 431) .empty [] none) (fun _ => I) (fun _ => J) c
  finish {c : Ctx} : I c → J (Stream.finish.run c).2

namespace Refuses

variable {I J : Ctx → Prop} {frame : Frame} {later : Bool} {c : Ctx}

theorem parses (hr : Refuses I J) (h : J c) :
    wp (when (frame.has .endHeaders = true) parseHeaders) (fun _ => J) (fun _ => J) c := by
  have hparse : Receives c.self.streamId (when (frame.has .endHeaders = true) parseHeaders) :=
    .when fun _ => parseHeaders_receives
  exact wp_state.mpr (hr.after h (hparse c rfl).2)

theorem appendHeaderFrame (hr : Refuses I J) (h : I c) :
    J ((Stream.appendHeaderFrame frame).run c).2 := by
  have happended : I ⟨c.conn, { c.self with headerFrames := c.self.headerFrames ++ [frame] }⟩ :=
    hr.before h ⟨rfl, rfl, .refl⟩
  refine wp_state.mp ?_
  rw [Stream.appendHeaderFrame, setSelf, wp_bind, wp_modify, wp_bind, checkHeaderLength, wp_bind, wp_get,
    wp_when]
  refine ⟨fun _ => ?_, fun _ => hr.parses (hr.le happended)⟩
  rw [wp_ite]
  refine ⟨fun _ => ?_, fun _ => ?_⟩
  · have hcalled :=
      hr.le (hr.before happended ((callDelegate_receives : Receives _ (callDelegate .onConnectionClose)) _ rfl).2)
    exact wp_mono (wp_state.mpr hcalled) (fun _ _ h => hr.parses h) fun _ _ h => h
  · rw [setSelf, wp_bind, wp_modify, wp_bind]
    refine wp_mono (hr.write (hr.before happended ⟨rfl, rfl, .refl⟩)) (fun _ c' h => ?_) fun _ _ h => h
    exact wp_mono (wp_state.mpr (hr.finish h)) (fun _ _ h => hr.parses h) fun _ _ h => h

theorem handleFrame (hr : Refuses I J) (hupdate : frame.type ≠ .windowUpdate) (h : I c) :
    J ((Stream.handleFrame frame later).run c).2 := by
  by_cases hheaders : frame.type = .headers
  · rw [handleFrame_headers hheaders]
    split
    · exact hr.le h
    · have hphase : Receives c.self.streamId
          (when (c.self.phase = .body) (setSelf fun s => { s with phase := .trailers })) :=
        .when fun _ => setSelf_receives fun _ => rfl
      refine wp_state.mp ?_
      rw [handleHeadersFrame, wp_bind, wp_get, wp_bind]
      refine wp_mono (wp_state.mpr (hr.before h (hphase c rfl).2)) (fun _ c' h => ?_) fun _ _ h => hr.le h
      cases frame.withoutPadding with
      | error e => exact hr.le h
      | ok f => exact wp_state.mpr (hr.appendHeaderFrame h)
  · by_cases hcontinuation : frame.type = .continuation
    · rw [handleFrame_continuation hcontinuation]
      split
      · exact hr.le h
      · refine wp_state.mp ?_
        rw [handleContinuationFrame, wp_bind, wp_get, wp_bind, wp_check]
        exact ⟨fun _ => hr.le h, fun _ => wp_state.mpr (hr.appendHeaderFrame h)⟩
    · exact hr.le (hr.before h (handleFrame_receives hheaders hcontinuation hupdate c rfl).2)

end Refuses

end Stream

end TornadoHttp2
