import TornadoHttp2.StreamCalls
import TornadoHttp2.DecoderSync
import TornadoHttp2.UpgradingConnection

/-! The replay of the calls that an `_UpgradingConnection` has recorded. It comes
to the same as the calls themselves, made on the stream, unless one of them
raises: the rest is then lost. -/

namespace TornadoHttp2

open Prog Ctx

namespace Stream

variable {c : Ctx} {calls rest : List ConnCall}

/-- The calls one after another, up to the first that raises. -/
def callAll : List ConnCall → OnStream Unit
  | [] => pure ()
  | request :: calls => do
    call request
    callAll calls

theorem call_acts {i : Nat} (request : ConnCall) : Keeps (fun c => c.self.streamId = i) (Acts i) (call request) := by
  cases request with
  | writeHeaders => exact writeHeaders_sends.mono fun _ _ => SendsOnly.acts
  | write => exact write_sends.mono fun _ _ => SendsOnly.acts
  | finish => exact finish_sends.mono fun _ _ => SendsOnly.acts
  | setCloseCallback | setMaxBodySize | setBodyTimeout => exact fun _ hc => ⟨hc, rfl, rfl, .refl⟩

theorem callAll_acts {i : Nat} : (calls : List ConnCall) → Keeps (fun c => c.self.streamId = i) (Acts i) (callAll calls)
  | [] => fun _ hc => ⟨hc, rfl, rfl, .refl⟩
  | request :: calls => (call_acts request).bind fun _ => callAll_acts calls

/-- What a stream asks of the calls after `write_headers`, with `remaining` bytes
of the content length to go. -/
def Fits (remaining : Option Int) : List ConnCall → Prop
  | [] => True
  | .write chunk _ :: calls => Takes remaining chunk ∧ Fits (remaining.map (· - (chunk.length : Int))) calls
  | .finish :: calls => (∀ n ∈ remaining, n = 0) ∧ Fits remaining calls
  | .setCloseCallback _ :: calls => Fits remaining calls
  | .writeHeaders .. :: _ | .setMaxBodySize _ :: _ | .setBodyTimeout _ :: _ => False

theorem callAll_exact (hcalls : ∀ w ∈ calls, ∀ startLine headers chunk callback,
    w ≠ .writeHeaders startLine headers chunk callback) : wp (callAll calls)
      (fun _ _ => Fits c.self.outgoingContentRemaining calls)
      (fun _ _ => ¬ Fits c.self.outgoingContentRemaining calls) c := by
  induction calls generalizing c with
  | nil => trivial
  | cons request calls ih =>
    obtain ⟨hrequest, hrest⟩ := List.forall_mem_cons.mp hcalls
    rw [callAll, wp_bind]
    cases request with
    | writeHeaders startLine headers chunk callback => exact absurd rfl (hrequest startLine headers chunk callback)
    | write chunk callback =>
      refine wp_mono write_exact ?_ fun _ _ hrefused h => hrefused h.1
      rintro _ c' ⟨htakes, hleft⟩
      rw [Fits, ← hleft]
      exact wp_mono (ih hrest) (fun _ _ h => ⟨htakes, h⟩) fun _ _ hrefused h => hrefused h.2
    | finish =>
      refine wp_mono finish_exact ?_ fun _ _ hrefused h => hrefused h.1
      rintro _ c' ⟨hends, hleft⟩
      rw [Fits, ← hleft]
      rw [← hleft] at hends
      exact wp_mono (ih hrest) (fun _ _ h => ⟨hends, h⟩) fun _ _ hrefused h => hrefused h.2
    | setCloseCallback callback => exact ih hrest
    | setMaxBodySize maxBodySize => exact id
    | setBodyTimeout bodyTimeout => exact id

/-- The bytes of some chunks. -/
def totalLength (chunks : List (Bytes × Option Nat)) : Nat := (chunks.map fun w => w.1.length).sum

theorem totalLength_cons (w : Bytes × Option Nat) (chunks : List (Bytes × Option Nat)) :
    totalLength (w :: chunks) = w.1.length + totalLength chunks := List.sum_cons

/-- Chunks fit if all of them together do. -/
theorem fits_chunks (chunks : List (Bytes × Option Nat)) {remaining : Option Int} :
    Fits remaining (chunks.map (fun w => .write w.1 w.2) ++ rest) ↔
      (∀ n ∈ remaining, 0 < totalLength chunks → totalLength chunks ≤ n) ∧
        Fits (remaining.map (· - (totalLength chunks : Int))) rest := by
  induction chunks generalizing remaining with
  | nil => cases remaining <;> simp [totalLength]
  | cons w chunks ih =>
    rw [List.map_cons, List.cons_append, Fits, ih, Takes, ← List.length_pos_iff_ne_nil, totalLength_cons]
    cases remaining with
    | none => simp
    | some n =>
      simp only [Option.mem_def, Option.some.injEq, forall_eq', Option.map_some, Nat.cast_add, ← sub_sub, ← and_assoc]
      refine and_congr_left fun _ => ?_
      omega

theorem fits_end {p : Prop} [Decidable p] {maxBodySize bodyTimeout : Option Nat} {remaining : Option Int} :
    Fits remaining ((if p then [.finish] else []) ++ (maxBodySize.toList.map (fun n => .setMaxBodySize (some n)) ++
      bodyTimeout.toList.map fun n => .setBodyTimeout (some n))) ↔
    (p → ∀ n ∈ remaining, n = 0) ∧ maxBodySize = none ∧ bodyTimeout = none := by
  by_cases hp : p <;> cases maxBodySize <;> cases bodyTimeout <;> simp [hp, Fits]

/-- The answer with the calls after it: its chunk is one more. -/
theorem answer_exact (hserver : c.conn.isClient = false) (hsized : c.conn.hpackEncoder.table.Sized)
    (hopen : c.conn.closed = false) (hid : c.self.streamId < 2 ^ 31)
    (written : Option (StartLine Bytes × HTTPHeaders Bytes × Bytes × Option Nat))
    (hcalls : ∀ w ∈ calls, ∀ startLine headers chunk callback, w ≠ .writeHeaders startLine headers chunk callback)
    {accepts : Prop} (haccepts : accepts ↔
      (∀ w ∈ written, Answers c.self w.1 w.2.1 ∧ headerBlockLength c w.1 w.2.1 < 2 ^ 31) ∧
      Fits (written.elim c.self.outgoingContentRemaining fun w => c.self.declaredLength w.1 w.2.1)
        (written.toList.map (fun w => .write w.2.2.1 w.2.2.2) ++ calls)) :
    wp (callAll (written.toList.map (fun w => .writeHeaders w.1 w.2.1 w.2.2.1 w.2.2.2) ++ calls))
      (fun _ _ => accepts) (fun _ _ => ¬ accepts) c := by
  cases written with
  | none =>
    have haccepts : accepts ↔ Fits c.self.outgoingContentRemaining calls := by
      simpa using haccepts
    rw [haccepts]
    exact callAll_exact hcalls
  | some w =>
    obtain ⟨startLine, headers, chunk, callback⟩ := w
    have haccepts : accepts ↔ (Answers c.self startLine headers ∧ headerBlockLength c startLine headers < 2 ^ 31) ∧
        Takes (c.self.declaredLength startLine headers) chunk ∧
          Fits ((c.self.declaredLength startLine headers).map (· - (chunk.length : Int))) calls := by
      simpa [Fits] using haccepts
    rw [haccepts, Option.toList_some, List.map_singleton, List.singleton_append, callAll, wp_bind]
    refine wp_mono (writeHeaders_exact hserver hsized hopen hid) ?_ fun _ _ h hall => h ⟨hall.1.1, hall.1.2, hall.2.1⟩
    rintro _ c' ⟨⟨hanswers, hblock, htakes⟩, hleft⟩
    rw [← hleft]
    exact wp_mono (callAll_exact hcalls) (fun _ _ h => ⟨⟨hanswers, hblock⟩, htakes, h⟩) fun _ _ h hall => h hall.2.2

end Stream

namespace System

variable {s : System}

theorem setStream_again {i : Nat} {c c' : Ctx} : (s.setStream i c).setStream i c' = s.setStream i c' := by
  rw [setStream, setStream, setStream, Function.update_idem]

end System

/-- The call as it is made on stream 1. -/
def ConnCall.action : ConnCall → Option System.Action
  | writeHeaders startLine headers chunk callback => some (.writeHeaders 1 startLine headers chunk callback)
  | write chunk callback => some (.write 1 chunk callback)
  | finish => some (.finish 1)
  | setCloseCallback _ | setMaxBodySize _ | setBodyTimeout _ => none

/-- Calls that do not raise come to the same one by one. -/
theorem System.run_calls {s : System} {self : Stream} {calls : List ConnCall} {c : Ctx}
    (hself : s.streams 1 = some self) (h : (Stream.callAll calls).run ⟨s.conn, self⟩ = (.ok (), c)) :
    s.run (calls.filterMap ConnCall.action) = s.setStream 1 c := by
  induction calls generalizing s self with
  | nil =>
    cases h
    exact (setStream_same hself).symm
  | cons request calls ih =>
    rw [Stream.callAll, run_bind] at h
    rcases hrun : (Stream.call request).run ⟨s.conn, self⟩ with ⟨e | _, c₁⟩
    · rw [hrun] at h
      cases h
    · rw [hrun] at h
      have hrest := @ih (s.setStream 1 c₁) c₁.self setStream_self h
      rw [setStream_again] at hrest
      have hstep (a : Action) (ha : a.method = some (1, Stream.call request)) : s.step a = s.setStream 1 c₁ := by
        rw [step_stream ha hself, hrun]
      cases request with
      | writeHeaders startLine headers chunk callback =>
        exact (congrArg (fun s => System.run s _)
          (hstep (.writeHeaders 1 startLine headers chunk callback) rfl)).trans hrest
      | write chunk callback =>
        exact (congrArg (fun s => System.run s _) (hstep (.write 1 chunk callback) rfl)).trans hrest
      | finish => exact (congrArg (fun s => System.run s _) (hstep (.finish 1) rfl)).trans hrest
      | setCloseCallback =>
        cases hrun
        rw [setStream_same hself] at hrest
        exact hrest
      | setMaxBodySize => cases hrun
      | setBodyTimeout => cases hrun

namespace UpgradingConnection

variable {c : UpgradingConnection} {s : System} {self : Stream}

/-- What `switch_protocols` replays, but for the close callback. -/
def replayed (c : UpgradingConnection) : List ConnCall :=
  c.writtenHeaders.toList.map (fun w => .writeHeaders w.1 w.2.1 w.2.2.1 w.2.2.2) ++
    (c.writtenChunks.map (fun w => .write w.1 w.2) ++ ((if c.writeFinished = true then [.finish] else []) ++
      (c.maxBodySize.toList.map (fun n => .setMaxBodySize (some n)) ++
        c.bodyTimeout.toList.map (fun n => .setBodyTimeout (some n)))))

def forwardAll : List ConnCall → OnUpgrading Unit
  | [] => pure ()
  | request :: calls => do
    forward request
    forwardAll calls

theorem forwardAll_append (calls calls' : List ConnCall) {m : OnUpgrading Unit} :
    (do forwardAll (calls ++ calls'); m) = (do forwardAll calls; forwardAll calls'; m) := by
  induction calls with
  | nil => rfl
  | cons request calls ih =>
    rw [List.cons_append, forwardAll, forwardAll, bind_assoc, bind_assoc, ih]

theorem forwardAll_single (request : ConnCall) {m : OnUpgrading Unit} :
    (do forwardAll [request]; m) = (do forward request; m) := by
  rw [forwardAll, forwardAll, bind_assoc]
  rfl

theorem forwardAll_ifSome {α : Type} (value : Option α) (f : α → ConnCall) {m : OnUpgrading Unit} :
    (do ifSome value fun a => forward (f a); m) = (do forwardAll (value.toList.map f); m) := by
  cases value with
  | none => rfl
  | some a => exact (forwardAll_single (f a)).symm

theorem forwardAll_writeAll (chunks : List (Bytes × Option Nat)) :
    writeAll chunks = forwardAll (chunks.map fun w => .write w.1 w.2) := by
  induction chunks with
  | nil => rfl
  | cons chunk chunks ih =>
    rw [writeAll, List.map_cons, forwardAll, ih]

theorem onStream_run (hconn : c.conn = .stream s) (hself : s.streams 1 = some self) (m : OnStream Unit) :
    (onStream m).run c = ((m.run ⟨s.conn, self⟩).1,
      { c with conn := .stream (s.setStream 1 (m.run ⟨s.conn, self⟩).2) }) := by
  rw [onStream, run_get_bind, hconn]
  dsimp only
  rw [run_zoom, System.onStream_run hself]

theorem forward_run (hconn : c.conn = .stream s) (hself : s.streams 1 = some self) (request : ConnCall) :
    (forward request).run c = (((Stream.call request).run ⟨s.conn, self⟩).1,
      { c with conn := .stream (s.setStream 1 ((Stream.call request).run ⟨s.conn, self⟩).2) }) := by
  rw [forward, run_get_bind, hconn]
  exact onStream_run hconn hself _

/-- The calls on the connection are calls on its stream. -/
theorem forwardAll_run {calls : List ConnCall} (hconn : c.conn = .stream s) (hself : s.streams 1 = some self) :
    (forwardAll calls).run c = (((Stream.callAll calls).run ⟨s.conn, self⟩).1,
      { c with conn := .stream (s.setStream 1 ((Stream.callAll calls).run ⟨s.conn, self⟩).2) }) := by
  induction calls generalizing c s self with
  | nil =>
    have hsame : { c with conn := .stream (s.setStream 1 ⟨s.conn, self⟩) } = c := by
      rw [System.setStream_same hself, ← hconn]
    exact Prod.ext rfl hsame.symm
  | cons request calls ih =>
    rw [forwardAll, Stream.callAll]
    rcases hrun : (Stream.call request).run ⟨s.conn, self⟩ with ⟨e | _, c₁⟩
    · have hforward := forward_run hconn hself request
      rw [hrun] at hforward
      rw [bind_error hforward, bind_error hrun]
    · have hforward := forward_run hconn hself request
      rw [hrun] at hforward
      rw [bind_ok hforward, bind_ok hrun, ih rfl System.setStream_self, System.setStream_again]
      rfl

/-- What is left of `switch_protocols` after the replay. -/
def complete (closeCallback : Option Nat) (raises : Bool) : OnUpgrading Unit := do
  ifSome closeCallback fun callback => do
    forward (.setCloseCallback (some callback))
    modify fun c => { c with closeCallback := none }
  modify fun c => { c with upgrading := false }
  modify fun c => { c with finishCalls := c.finishCalls + 1 }
  when (raises = true) (onStream Stream.reset)

theorem resumeSwitch_run (raises : Bool) : (resumeSwitch raises).run c =
    (do forwardAll (replayed c); complete c.closeCallback raises).run c := by
  have hfinished {m : OnUpgrading Unit} : (do when (c.writeFinished = true) (forward .finish); m) =
      (do forwardAll (if c.writeFinished = true then [.finish] else []); m) := by
    rw [when]
    split
    · exact (forwardAll_single .finish).symm
    · rfl
  rw [resumeSwitch, run_get_bind, replayed, forwardAll_append, forwardAll_append, forwardAll_append, forwardAll_append,
    forwardAll_writeAll]
  refine congrArg (fun m => Prog.run m c) ?_
  refine (forwardAll_ifSome c.writtenHeaders _).trans (congrArg _ (funext fun _ => congrArg _ (funext fun _ => ?_)))
  refine hfinished.trans (congrArg _ (funext fun _ => ?_))
  rw [forwardAll_ifSome, forwardAll_ifSome]
  rfl

/-- The connection after the replay, with `s` where the calls have led. -/
def completed (c : UpgradingConnection) (s : System) : UpgradingConnection :=
  { c with conn := .stream s, closeCallback := none, upgrading := false, finishCalls := c.finishCalls + 1 }

theorem complete_run (hconn : c.conn = .stream s) (hself : s.streams 1 = some self) (hid : self.streamId = 1)
    (hopen : s.conn.closed = false) (raises : Bool) : (complete c.closeCallback raises).run c =
      (.ok (), c.completed (s.run (if raises = true then [.reset 1] else []))) := by
  have hclose : (ifSome c.closeCallback fun callback => do
      forward (.setCloseCallback (some callback))
      modify fun c => { c with closeCallback := none }).run c = (.ok (), { c with closeCallback := none }) := by
    cases hcallback : c.closeCallback with
    | none => exact Prod.ext rfl (congrArg (fun closeCallback => { c with closeCallback }) hcallback)
    | some callback =>
      have hforward := forward_run hconn hself (.setCloseCallback (some callback))
      have hpure : (Stream.call (.setCloseCallback (some callback))).run ⟨s.conn, self⟩ =
        (.ok (), ⟨s.conn, self⟩) := rfl
      rw [hpure, System.setStream_same hself, ← hconn] at hforward
      rw [ifSome, bind_ok hforward]
      rfl
  have hcompleted : c.completed s =
      { c with closeCallback := none, upgrading := false, finishCalls := c.finishCalls + 1 } := by
    rw [completed, ← hconn]
  rw [complete, bind_ok hclose, run_modify_bind, run_modify_bind]
  cases raises with
  | false => exact Prod.ext rfl hcompleted.symm
  | true =>
    have hreset : Stream.reset.run ⟨s.conn, self⟩ =
        (.ok (), Ctx.logged ⟨s.conn, self⟩ (.wrote (Ctx.resetFrame ⟨s.conn, self⟩))) := by
      have hid : self.streamId < 2 ^ 31 := hid ▸ (by decide)
      have hdata : ([0, 0, 0, 0] : Bytes).length < 2 ^ 31 := by decide
      exact writeFrame_run hdata hid hopen
    have hrun : s.run [.reset 1] = s.setStream 1 (Stream.reset.run ⟨s.conn, self⟩).2 :=
      System.step_stream (a := .reset 1) rfl hself
    have hrest := @onStream_run { c with closeCallback := none, upgrading := false, finishCalls := c.finishCalls + 1 } s
      self hconn hself Stream.reset
    rw [if_pos rfl, hrun, when, if_pos rfl]
    rw [hreset] at hrest ⊢
    exact hrest

end UpgradingConnection

namespace ConnCall

def headers : ConnCall → Option (StartLine Bytes × HTTPHeaders Bytes × Bytes × Option Nat)
  | writeHeaders startLine headers chunk callback => some (startLine, headers, chunk, callback)
  | _ => none

def chunk : ConnCall → Option (Bytes × Option Nat)
  | write chunk callback => some (chunk, callback)
  | _ => none

def maxBodySize : ConnCall → Option (Option Nat)
  | setMaxBodySize maxBodySize => some maxBodySize
  | _ => none

def bodyTimeout : ConnCall → Option (Option Nat)
  | setBodyTimeout bodyTimeout => some bodyTimeout
  | _ => none

def closeCallback : ConnCall → Option (Option Nat)
  | setCloseCallback callback => some callback
  | _ => none

/-- What the last call of its kind has set. -/
def lastSet (f : ConnCall → Option (Option Nat)) (calls : List ConnCall) : Option Nat :=
  (calls.filterMap f).getLast?.join

/-- The bytes of body that a call sends. -/
def bodyLength : ConnCall → Nat
  | writeHeaders _ _ chunk _ => chunk.length
  | write chunk _ => chunk.length
  | _ => 0

/-- The header, the chunks and the end of the stream, in this order. -/
def inOrder (calls : List ConnCall) : List ConnCall :=
  (calls.filterMap headers).map (fun w => .writeHeaders w.1 w.2.1 w.2.2.1 w.2.2.2) ++
    ((calls.filterMap chunk).map (fun w => .write w.1 w.2) ++ if .finish ∈ calls then [.finish] else [])

end ConnCall

/-- The content length that counts for the calls. -/
def Stream.lengthFor (s : Stream) (calls : List ConnCall) : Option Int :=
  match (calls.filterMap ConnCall.headers).head? with
  | none => s.outgoingContentRemaining
  | some w => s.declaredLength w.1 w.2.1

/-- The calls set no limit on the body, and the stream accepts every one. -/
structure Replayable (c : Ctx) (calls : List ConnCall) : Prop where
  maxBodySize : ConnCall.lastSet ConnCall.maxBodySize calls = none
  bodyTimeout : ConnCall.lastSet ConnCall.bodyTimeout calls = none
  headers : ∀ startLine headers chunk callback, .writeHeaders startLine headers chunk callback ∈ calls →
    c.self.Answers startLine headers ∧ Stream.headerBlockLength c startLine headers < 2 ^ 31
  length : ∀ n ∈ c.self.lengthFor calls,
    (0 < (calls.map ConnCall.bodyLength).sum → (calls.map ConnCall.bodyLength).sum ≤ n) ∧
      (.finish ∈ calls → n = (calls.map ConnCall.bodyLength).sum)

namespace UpgradingConnection

/-- The calls of the application among the actions. -/
def callsOf (actions : List Action) : List ConnCall := actions.filterMap fun
  | .call request => some request
  | _ => none

/-- `switch_protocols` has come to its end, and the stream has had the calls as
if they had been made on it. -/
structure Upgraded (s : System) (calls : List ConnCall) (raises : Bool) (c : UpgradingConnection) : Prop where
  returned : c.switching = .returned
  upgrading : c.upgrading = false
  finishCalls : c.finishCalls = 1
  conn : c.conn = .stream (s.run ((ConnCall.inOrder calls).filterMap ConnCall.action ++
    if raises = true then [.reset 1] else []))

/-- The attributes hold the calls made so far. -/
structure Recorded (calls : List ConnCall) (c : UpgradingConnection) : Prop where
  upgrading : c.upgrading = true
  finishCalls : c.finishCalls = 0
  headers : c.writtenHeaders = (calls.filterMap ConnCall.headers).getLast?
  chunks : c.writtenChunks = calls.filterMap ConnCall.chunk
  finished : c.writeFinished = true ↔ .finish ∈ calls
  maxBodySize : c.maxBodySize = ConnCall.lastSet ConnCall.maxBodySize calls
  bodyTimeout : c.bodyTimeout = ConnCall.lastSet ConnCall.bodyTimeout calls

variable {c : UpgradingConnection} {calls : List ConnCall} {s : System} {self : Stream}

/-- What a call leaves behind. -/
theorem call_run (h : c.upgrading = true) (request : ConnCall) : (call request).run c = (.ok (), { c with
    writtenHeaders := request.headers.or c.writtenHeaders
    writtenChunks := request.chunk.elim c.writtenChunks fun w => c.writtenChunks ++ [w]
    writeFinished := decide (request = .finish) || c.writeFinished
    closeCallback := request.closeCallback.getD c.closeCallback
    maxBodySize := request.maxBodySize.getD c.maxBodySize
    bodyTimeout := request.bodyTimeout.getD c.bodyTimeout }) := by
  have hrecord (f : UpgradingConnection → UpgradingConnection) : (record f request).run c = (.ok (), f c) := by
    rw [record, run_get_bind, if_pos h]
    rfl
  cases request <;> exact hrecord _

theorem getLast?_filterMap_snoc {α : Type} (f : ConnCall → Option α) (calls : List ConnCall) (request : ConnCall) :
    ((calls ++ [request]).filterMap f).getLast? = (f request).or (calls.filterMap f).getLast? := by
  rw [List.filterMap_append, List.getLast?_append]
  cases hrequest : f request <;> simp [hrequest]

theorem lastSet_snoc (f : ConnCall → Option (Option Nat)) (calls : List ConnCall) (request : ConnCall) :
    ConnCall.lastSet f (calls ++ [request]) = (f request).getD (ConnCall.lastSet f calls) := by
  rw [ConnCall.lastSet, getLast?_filterMap_snoc]
  cases f request <;> rfl

theorem Recorded.snoc (h : Recorded calls c) (request : ConnCall) :
    Recorded (calls ++ [request]) ((call request).run c).2 := by
  rw [call_run h.upgrading]
  refine ⟨h.upgrading, h.finishCalls, ?_, ?_, ?_, ?_, ?_⟩
  · rw [getLast?_filterMap_snoc, ← h.headers]
  · rw [List.filterMap_append, ← h.chunks]
    cases hchunk : request.chunk <;> simp [hchunk]
  · rw [Bool.or_eq_true, decide_eq_true_eq, h.finished, List.mem_append, List.mem_singleton, or_comm, eq_comm]
  · rw [lastSet_snoc, ← h.maxBodySize]
  · rw [lastSet_snoc, ← h.bodyTimeout]

/-- What holds of the connection to which a request is upgraded. -/
structure Serves (s : System) : Prop where
  wellFormed : s.WellFormed
  server : s.conn.isClient = false
  bounded : s.conn.Bounded
  stream : (s.streams 1).isSome = true

theorem Serves.step (h : Serves s) (a : System.Action) : Serves (s.step a) where
  wellFormed := h.wellFormed.step a
  server := (System.step_isClient h.wellFormed a).trans h.server
  bounded := System.bounded_step h.wellFormed h.bounded a
  stream := System.stream_step h.stream a

theorem serves_upgraded (params : Params) (method path : Option Bytes) :
    Serves ((System.start false params).run [.upgrade method path]) where
  wellFormed := (System.WellFormed.start false params).run _
  server := (System.step_isClient (.start false params) _).trans rfl
  bounded := System.bounded_step (.start false params) (System.bounded_start false params) _
  stream := by
    have hrun : (System.start false params).run [.upgrade method path] = (System.start false params).withStream
        { Stream.new (System.start false params).conn 1 false with requestStartLine := some (method, path) } := rfl
    rw [hrun]
    exact Option.isSome_iff_exists.mpr ⟨_, System.withStream_self⟩

/-- How far the upgrade is, with the calls recorded until `switch_protocols` is
over. -/
inductive Progress (calls : List ConnCall) (c : UpgradingConnection) : Prop
  | reading (hswitching : c.switching = .notCalled) (h : Recorded calls c)
      (hconn : ∃ forwarded, c.conn = .http1 forwarded) (hrequest : c.requestStartLine.isSome = true)
  | waiting (hswitching : c.switching = .waiting) (h : Recorded calls c) (hconn : ∃ s, c.conn = .stream s ∧ Serves s)
  | ended (hcalled : c.switching ≠ .notCalled) (hwaits : c.switching ≠ .waiting)

theorem onStream_switching (m : OnStream Unit) : ((onStream m).run c).2.switching = c.switching := by
  rw [onStream, run_get_bind]
  cases c.conn <;> rfl

/-- Nothing but `switch_protocols` changes where it stands. -/
theorem call_switching (request : ConnCall) : ((call request).run c).2.switching = c.switching := by
  cases hupgrading : c.upgrading with
  | true => rw [call_run hupgrading]
  | false =>
    have hforward (f : UpgradingConnection → UpgradingConnection) :
        ((record f request).run c).2.switching = c.switching := by
      rw [record, run_get_bind, if_neg (by simp [hupgrading]), forward, run_get_bind]
      cases c.conn with
      | http1 => rfl
      | stream => exact onStream_switching _
    cases request <;> exact hforward _

theorem switchProtocols_run {forwarded : List ConnCall} {method path : Option Bytes} (hconn : c.conn = .http1 forwarded)
    (hrequest : c.requestStartLine = some (method, path)) : switchProtocols.run c = (.ok (), { c with
      output := c.output ++ switchingResponse
      conn := .stream ((System.start false c.http2Params).run [.upgrade method path])
      switching := .waiting }) := by
  cases c
  cases hconn
  cases hrequest
  rfl

theorem resume_over (hwaiting : c.switching = .waiting) (hwritten : c.settingsWritten = true) (raises : Bool) :
    (c.step (.resume raises)).switching ≠ .notCalled ∧ (c.step (.resume raises)).switching ≠ .waiting := by
  have hguard : c.switching = .waiting ∧ c.settingsWritten = true := ⟨hwaiting, hwritten⟩
  rw [step, perform, run_get_bind, when, if_pos hguard, catching]
  dsimp only
  rw [run_bind]
  rcases (resumeSwitch raises).run c with ⟨_ | _, _⟩ <;> exact ⟨by rintro ⟨⟩, by rintro ⟨⟩⟩

theorem Progress.step (h : Progress calls c) (a : Action) : Progress (calls ++ callsOf [a]) (c.step a) := by
  have unchanged (hcalls : callsOf [a] = []) (hstep : c.step a = c) : Progress (calls ++ callsOf [a]) (c.step a) := by
    rwa [hcalls, List.append_nil, hstep]
  cases a with
  | call request =>
    change Progress (calls ++ [request]) ((call request).run c).2
    cases h with
    | reading hswitching h hconn hrequest =>
      have hsnoc := h.snoc request
      rw [call_run h.upgrading] at hsnoc ⊢
      exact .reading hswitching hsnoc hconn hrequest
    | waiting hswitching h hconn =>
      have hsnoc := h.snoc request
      rw [call_run h.upgrading] at hsnoc ⊢
      exact .waiting hswitching hsnoc hconn
    | ended hcalled hwaits =>
        exact .ended ((call_switching request).trans_ne hcalled) ((call_switching request).trans_ne hwaits)
  | requestFinished =>
    by_cases hguard : c.switching = .notCalled ∧ c.finishCalls = 0
    · cases h with
      | reading hswitching h hconn hrequest =>
        obtain ⟨forwarded, hconn⟩ := hconn
        obtain ⟨⟨method, path⟩, hrequest⟩ := Option.isSome_iff_exists.mp hrequest
        have hstep : c.step .requestFinished = { c with
            output := c.output ++ switchingResponse
            conn := .stream ((System.start false c.http2Params).run [.upgrade method path])
            switching := .waiting } := by
          rw [UpgradingConnection.step, perform, run_get_bind, when, if_pos hguard, requestFinished, run_get_bind,
            if_pos h.upgrading]
          simp only [catching, switchProtocols_run hconn hrequest]
        rw [hstep, show callsOf [Action.requestFinished] = [] from rfl, List.append_nil]
        exact .waiting rfl ⟨h.upgrading, h.finishCalls, h.headers, h.chunks, h.finished, h.maxBodySize, h.bodyTimeout⟩
          ⟨_, rfl, serves_upgraded _ _ _⟩
      | waiting hswitching => cases hswitching.symm.trans hguard.1
      | ended hcalled => exact absurd hguard.1 hcalled
    · refine unchanged rfl ?_
      rw [UpgradingConnection.step, perform, run_get_bind, when, if_neg hguard]
      rfl
  | settingsWritten =>
    by_cases hguard : c.switching = .waiting
    · have hstep : c.step .settingsWritten = { c with settingsWritten := true } := by
        rw [UpgradingConnection.step, perform, run_get_bind, when, if_pos hguard]
        rfl
      rw [hstep, show callsOf [Action.settingsWritten] = [] from rfl, List.append_nil]
      cases h with
      | reading hswitching => cases hswitching.symm.trans hguard
      | waiting hswitching h hconn =>
        exact .waiting hswitching ⟨h.upgrading, h.finishCalls,
          h.headers, h.chunks, h.finished, h.maxBodySize, h.bodyTimeout⟩
          hconn
      | ended _ hwaits => exact absurd hguard hwaits
    · refine unchanged rfl ?_
      rw [UpgradingConnection.step, perform, run_get_bind, when, if_neg hguard]
      rfl
  | http2 a =>
    cases hconn : c.conn with
    | http1 =>
      refine unchanged rfl ?_
      rw [UpgradingConnection.step, perform, run_get_bind, hconn]
      rfl
    | stream s =>
      by_cases hguard : c.settingsWritten = true
      · have hstep : c.step (.http2 a) = { c with conn := .stream (s.step a) } := by
          rw [UpgradingConnection.step, perform, run_get_bind, hconn]
          dsimp only
          rw [when, if_pos hguard]
          rfl
        rw [hstep, show callsOf [Action.http2 a] = [] from rfl, List.append_nil]
        cases h with
        | reading _ _ hhttp1 =>
          obtain ⟨forwarded, hhttp1⟩ := hhttp1
          cases hconn.symm.trans hhttp1
        | waiting hswitching h hstream =>
          obtain ⟨s', hs', hserves⟩ := hstream
          obtain rfl : s = s' := by
            cases hconn.symm.trans hs'
            rfl
          exact .waiting hswitching
            ⟨h.upgrading, h.finishCalls, h.headers, h.chunks, h.finished, h.maxBodySize, h.bodyTimeout⟩
            ⟨_, rfl, hserves.step a⟩
        | ended hcalled hwaits => exact .ended hcalled hwaits
      · refine unchanged rfl ?_
        rw [UpgradingConnection.step, perform, run_get_bind, hconn]
        dsimp only
        rw [when, if_neg hguard]
        rfl
  | resume raises =>
    by_cases hguard : c.switching = .waiting ∧ c.settingsWritten = true
    · obtain ⟨hcalled, hwaits⟩ := resume_over hguard.1 hguard.2 raises
      exact .ended hcalled hwaits
    · refine unchanged rfl ?_
      rw [UpgradingConnection.step, perform, run_get_bind, when, if_neg hguard]
      rfl

theorem Progress.run (h : Progress calls c) (actions : List Action) :
    Progress (calls ++ callsOf actions) (c.run actions) := by
  induction actions generalizing calls c with
  | nil => rwa [show callsOf [] = [] from rfl, List.append_nil]
  | cons a actions ih =>
    have hcalls : callsOf (a :: actions) = callsOf [a] ++ callsOf actions := List.filterMap_append (l := [a]) ..
    rw [hcalls, ← List.append_assoc]
    exact ih (h.step a)

theorem single_header (hone : (calls.filterMap ConnCall.headers).length ≤ 1) :
    (calls.filterMap ConnCall.headers).head?.toList = calls.filterMap ConnCall.headers ∧
      (calls.filterMap ConnCall.headers).getLast? = (calls.filterMap ConnCall.headers).head? := by
  rcases hheaders : calls.filterMap ConnCall.headers with _ | ⟨w, _ | ⟨w', rest⟩⟩
  · exact ⟨rfl, rfl⟩
  · exact ⟨rfl, rfl⟩
  · rw [hheaders, List.length_cons, List.length_cons] at hone
    omega

theorem mem_headers {startLine : StartLine Bytes} {headers : HTTPHeaders Bytes}
    {chunk : Bytes} {callback : Option Nat} :
    (startLine, headers, chunk, callback) ∈ calls.filterMap ConnCall.headers ↔
      .writeHeaders startLine headers chunk callback ∈ calls := by
  rw [List.mem_filterMap]
  constructor
  · rintro ⟨request, hmem, hrequest⟩
    cases request <;> cases hrequest
    exact hmem
  · exact fun h => ⟨_, h, rfl⟩

/-- The chunks of all calls, with that of the header in front. -/
def bodies (calls : List ConnCall) : List (Bytes × Option Nat) :=
  (calls.filterMap ConnCall.headers).map (fun w => (w.2.2.1, w.2.2.2)) ++ calls.filterMap ConnCall.chunk

theorem totalLength_bodies (calls : List ConnCall) :
    Stream.totalLength (bodies calls) = (calls.map ConnCall.bodyLength).sum := by
  induction calls with
  | nil => rfl
  | cons request calls ih =>
    rw [List.map_cons, List.sum_cons, ← ih, bodies, bodies]
    cases request <;>
      simp [List.filterMap_cons, ConnCall.headers, ConnCall.chunk, ConnCall.bodyLength, Stream.totalLength]
    omega

/-- What is replayed, by the calls that were recorded. -/
theorem Recorded.replayed (h : Recorded calls c) (hone : (calls.filterMap ConnCall.headers).length ≤ 1) :
    c.replayed = (calls.filterMap ConnCall.headers).head?.toList.map
      (fun w => .writeHeaders w.1 w.2.1 w.2.2.1 w.2.2.2) ++
      ((calls.filterMap ConnCall.chunk).map (fun w => .write w.1 w.2) ++ ((if .finish ∈ calls then [.finish] else []) ++
        ((ConnCall.lastSet ConnCall.maxBodySize calls).toList.map (fun n => .setMaxBodySize (some n)) ++
          (ConnCall.lastSet ConnCall.bodyTimeout calls).toList.map fun n => .setBodyTimeout (some n)))) := by
  have hfinished : (if c.writeFinished = true then [ConnCall.finish] else []) =
      if .finish ∈ calls then [.finish] else [] :=
    if_congr h.finished rfl rfl
  rw [UpgradingConnection.replayed, h.headers, h.chunks,
    hfinished, h.maxBodySize, h.bodyTimeout, (single_header hone).2]

theorem Recorded.actions (h : Recorded calls c) (hone : (calls.filterMap ConnCall.headers).length ≤ 1) :
    c.replayed.filterMap ConnCall.action = (ConnCall.inOrder calls).filterMap ConnCall.action := by
  rw [h.replayed hone, (single_header hone).1, ConnCall.inOrder]
  simp [List.filterMap_append, List.filterMap_map, Function.comp_def, ConnCall.action]

theorem replayable_iff {c : Ctx} (hone : (calls.filterMap ConnCall.headers).length ≤ 1) : Replayable c calls ↔
    (∀ w ∈ (calls.filterMap ConnCall.headers).head?,
      c.self.Answers w.1 w.2.1 ∧ Stream.headerBlockLength c w.1 w.2.1 < 2 ^ 31) ∧
    Stream.Fits ((calls.filterMap ConnCall.headers).head?.elim c.self.outgoingContentRemaining fun w =>
        c.self.declaredLength w.1 w.2.1)
      ((calls.filterMap ConnCall.headers).head?.toList.map (fun w => .write w.2.2.1 w.2.2.2) ++
        ((calls.filterMap ConnCall.chunk).map (fun w => .write w.1 w.2) ++
          ((if .finish ∈ calls then [.finish] else []) ++
          ((ConnCall.lastSet ConnCall.maxBodySize calls).toList.map (fun n => .setMaxBodySize (some n)) ++
            (ConnCall.lastSet ConnCall.bodyTimeout calls).toList.map fun n => .setBodyTimeout (some n))))) := by
  have hlength : (calls.filterMap ConnCall.headers).head?.elim c.self.outgoingContentRemaining (fun w =>
      c.self.declaredLength w.1 w.2.1) = c.self.lengthFor calls := by
    rw [Stream.lengthFor]
    cases (calls.filterMap ConnCall.headers).head? <;> rfl
  have hbodies : (calls.filterMap ConnCall.headers).head?.toList.map (fun w => ConnCall.write w.2.2.1 w.2.2.2) ++
      (calls.filterMap ConnCall.chunk).map (fun w => .write w.1 w.2) = (bodies calls).map fun w => .write w.1 w.2 := by
    rw [(single_header hone).1, bodies, List.map_append, List.map_map]
    rfl
  have hanswers : (∀ w ∈ (calls.filterMap ConnCall.headers).head?,
      c.self.Answers w.1 w.2.1 ∧ Stream.headerBlockLength c w.1 w.2.1 < 2 ^ 31) ↔
      ∀ startLine headers chunk callback, .writeHeaders startLine headers chunk callback ∈ calls →
        c.self.Answers startLine headers ∧ Stream.headerBlockLength c startLine headers < 2 ^ 31 := by
    have hmem (w : StartLine Bytes × HTTPHeaders Bytes × Bytes × Option Nat) :
        w ∈ (calls.filterMap ConnCall.headers).head? ↔ w ∈ calls.filterMap ConnCall.headers := by
      rw [Option.mem_def, ← Option.mem_toList, (single_header hone).1]
    simp only [hmem, Prod.forall, mem_headers]
  rw [hanswers, hlength, ← List.append_assoc, hbodies, Stream.fits_chunks, Stream.fits_end, totalLength_bodies]
  constructor
  · intro h
    refine ⟨h.headers, fun n hn => (h.length n hn).1, fun hfinish n hn => ?_, h.maxBodySize, h.bodyTimeout⟩
    obtain ⟨m, hm, rfl⟩ := Option.mem_map.mp hn
    exact sub_eq_zero.mpr ((h.length m hm).2 hfinish)
  · rintro ⟨hheaders, hfits, hends, hmaxBodySize, hbodyTimeout⟩
    refine ⟨hmaxBodySize, hbodyTimeout, hheaders, fun n hn => ⟨hfits n hn, fun hfinish => ?_⟩⟩
    exact sub_eq_zero.mp (hends hfinish _ (Option.mem_map_of_mem _ hn))

/-- `switch_protocols` comes to its end if the stream accepts all that is replayed. -/
theorem resume_iff (hwaiting : c.switching = .waiting) (hwritten : c.settingsWritten = true) (h : Recorded calls c)
    (hone : (calls.filterMap ConnCall.headers).length ≤ 1) (hconn : c.conn = .stream s) (hserves : Serves s)
    (hself : s.streams 1 = some self) (hopen : s.conn.closed = false) (raises : Bool) :
    Upgraded s calls raises (c.step (.resume raises)) ↔ Replayable ⟨s.conn, self⟩ calls := by
  have hguard : c.switching = .waiting ∧ c.settingsWritten = true := ⟨hwaiting, hwritten⟩
  have hid : self.streamId = 1 := hserves.wellFormed.streamId hself
  have hexact := Stream.answer_exact (c := ⟨s.conn, self⟩) hserves.server hserves.bounded.encoder.sized hopen
    (by rw [hid]; decide) (calls.filterMap ConnCall.headers).head?
    (by rintro _ hmem _ _ _ _ rfl; simp at hmem) (replayable_iff hone)
  rw [← h.replayed hone] at hexact
  have hacts := (Stream.callAll_acts c.replayed ⟨s.conn, self⟩ hid).2
  have hforward := @forwardAll_run c s self c.replayed hconn hself
  rcases hrun : (Stream.callAll c.replayed).run ⟨s.conn, self⟩ with ⟨e | _, c₁⟩
  · have hrefused := (wp_of_error hrun).mp hexact
    have hraised : (c.step (.resume raises)).switching = .raised e := by
      rw [hrun] at hforward
      have hresume : (resumeSwitch raises).run c = (.error e, { c with conn := .stream (s.setStream 1 c₁) }) := by
        rw [resumeSwitch_run, bind_error hforward]
      rw [step, perform, run_get_bind, when, if_pos hguard, catching]
      dsimp only
      rw [bind_error hresume]
      rfl
    exact iff_of_false (fun hupgraded => by cases hupgraded.returned.symm.trans hraised) hrefused
  · have haccepted := (wp_of_ok hrun).mp hexact
    rw [hrun] at hforward hacts
    have hcalls := System.run_calls hself hrun
    have hopen' : c₁.conn.closed = false := (congrArg (fun t => t.2.2.2.2) hacts.conn).trans hopen
    have hcomplete := complete_run (c := { c with conn := .stream (s.setStream 1 c₁) }) rfl System.setStream_self
      (hacts.self.trans hid) hopen' raises
    have hresume : (resumeSwitch raises).run c = (.ok (), completed { c with conn := .stream (s.setStream 1 c₁) }
        ((s.setStream 1 c₁).run (if raises = true then [.reset 1] else []))) := by
      rw [resumeSwitch_run, bind_ok hforward]
      exact hcomplete
    refine iff_of_true ?_ haccepted
    rw [step, perform, run_get_bind, when, if_pos hguard, catching]
    dsimp only
    rw [bind_ok hresume]
    refine ⟨rfl, rfl, congrArg (· + 1) h.finishCalls, congrArg RequestConn.stream ?_⟩
    rw [← h.actions hone, ← hcalls]
    exact (List.foldl_append ..).symm

/-- Headers that ask for the upgrade leave everything else as it was. -/
theorem progress_start {params : Params} {method path : Option Bytes} {headers : HTTPHeaders Bytes}
    (h : (start params method path headers).upgrading = true) : Progress [] (start params method path headers) := by
  have hstart : start params method path headers =
      { new params with upgrading := true, requestStartLine := some (method, path) } := by
    by_cases hcontains : headers.contains (ascii "Upgrade") = true
    · rcases hprotocols : upgrades headers with e | protocols
      · rw [start, headersReceived, when, if_pos hcontains, hprotocols] at h
        exact absurd h Bool.false_ne_true
      · by_cases hmem : ascii "h2c" ∈ protocols
        · rw [start, headersReceived, when, if_pos hcontains, hprotocols]
          simp [run_bind, Prog.ofExcept, when, hmem]
        · rw [start, headersReceived, when, if_pos hcontains, hprotocols] at h
          simp [run_bind, Prog.ofExcept, when, hmem, new] at h
    · rw [start, headersReceived, when, if_neg hcontains] at h
      exact absurd h Bool.false_ne_true
  rw [hstart]
  exact .reading rfl ⟨rfl, rfl, rfl, rfl, by simp [new], rfl, rfl⟩ ⟨[], rfl⟩ rfl

/-- An upgrade that has waited for its SETTINGS frame replays the calls made
until then, whenever they were made, exactly if the stream accepts all of them. -/
theorem upgraded_iff {params : Params} {method path : Option Bytes}
    {headers : HTTPHeaders Bytes} {actions : List Action}
    (hupgrading : (start params method path headers).upgrading = true)
    (hone : ((callsOf actions).filterMap ConnCall.headers).length ≤ 1)
    (hwaiting : ((start params method path headers).run actions).switching = .waiting)
    (hwritten : ((start params method path headers).run actions).settingsWritten = true)
    (hconn : ((start params method path headers).run actions).conn = .stream s) (hopen : s.conn.closed = false)
    (raises : Bool) :
    ∃ self, s.streams 1 = some self ∧
      (Upgraded s (callsOf actions) raises (((start params method path headers).run actions).step (.resume raises)) ↔
        Replayable ⟨s.conn, self⟩ (callsOf actions)) := by
  have hprogress := (progress_start hupgrading).run actions
  rw [List.nil_append] at hprogress
  cases hprogress with
  | reading hswitching => cases hswitching.symm.trans hwaiting
  | ended _ hwaits => exact absurd hwaiting hwaits
  | waiting _ h hstream =>
    obtain ⟨s', hs', hserves⟩ := hstream
    obtain rfl : s = s' := by
      cases hconn.symm.trans hs'
      rfl
    obtain ⟨self, hself⟩ := Option.isSome_iff_exists.mp hserves.stream
    exact ⟨self, hself, resume_iff hwaiting hwritten h hone hconn hserves hself hopen raises⟩

/-- A GET request with an `Upgrade` header. -/
def upgradingGet : UpgradingConnection :=
  start (.new none .caseless) (some (ascii "GET")) (some (ascii "/")) ⟨[(ascii "Upgrade", [ascii "websocket, h2c"])]⟩

/-- The stream to which it becomes. -/
def upgradedSystem : System := (System.start false (.new none .caseless)).run
    [.upgrade (some (ascii "GET")) (some (ascii "/"))]

/-- An answer of five bytes, in part while `switch_protocols` waits. -/
def answering : List Action :=
  [.call (.writeHeaders (.response 200) ⟨[(ascii "Content-Length", [ascii "5"])]⟩ [1, 2] none), .requestFinished,
    .call (.write [3, 4, 5] none), .settingsWritten, .call .finish]

theorem upgraded_answering :
    ((upgradingGet.run answering).step (.resume false)).switching = .returned ∧
      ∃ self, upgradedSystem.streams 1 = some self ∧
        (Upgraded upgradedSystem (callsOf answering) false ((upgradingGet.run answering).step (.resume false)) ↔
          Replayable ⟨upgradedSystem.conn, self⟩ (callsOf answering)) := by
  refine ⟨by decide +kernel, upgraded_iff ?_ ?_ ?_ ?_ rfl ?_ false⟩ <;> decide +kernel

/-- A handler that limits the body of its request. -/
def limiting : List Action := [.call (.setMaxBodySize (some 1)), .requestFinished, .settingsWritten]

/-- The stream lacks the method, and the delegate never hears that the request is
complete. -/
theorem not_upgraded_limiting :
    let c := (upgradingGet.run limiting).step (.resume false)
    upgradingGet.upgrading = true ∧ callsOf limiting = [.setMaxBodySize (some 1)] ∧
      (upgradingGet.run limiting).switching = .waiting ∧ (upgradingGet.run limiting).settingsWritten = true ∧
      (upgradingGet.run limiting).conn = .stream upgradedSystem ∧ upgradedSystem.conn.closed = false ∧
      c.switching = .raised .attributeError ∧ c.upgrading = true ∧ c.finishCalls = 0 ∧
      ¬ Upgraded upgradedSystem (callsOf limiting) false c := by
  intro c
  have hraised : c.switching = .raised .attributeError := by decide +kernel
  refine ⟨by decide +kernel, by decide +kernel, by decide +kernel, by decide +kernel, rfl, by decide +kernel, hraised,
    by decide +kernel, by decide +kernel, fun h => ?_⟩
  cases h.returned.symm.trans hraised

end UpgradingConnection

end TornadoHttp2
