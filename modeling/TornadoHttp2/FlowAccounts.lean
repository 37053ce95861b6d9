import TornadoHttp2.Invariants
import TornadoHttp2.Writers
import Mathlib.Algebra.Order.BigOperators.Group.List

/-! What the log says about the flow-control windows: the size at which a
window started, the increments accepted on it and the amounts debited from it,
and the bytes of DATA frames that this paid for. -/

namespace TornadoHttp2

open Prog

def total (f : Event → Int) (log : List Event) : Int := (log.map f).sum

section

variable {f g : Event → Int} {log log' : List Event}

@[simp] theorem total_nil : total f [] = 0 := rfl

@[simp] theorem total_append : total f (log ++ log') = total f log + total f log' := by simp [total]

@[simp] theorem total_singleton {e : Event} : total f [e] = f e := by simp [total]

theorem total_eq_zero (h : ∀ e ∈ log, f e = 0) : total f log = 0 :=
  List.sum_eq_zero fun x hx => by
    obtain ⟨e, he, rfl⟩ := List.mem_map.mp hx
    exact h e he

theorem total_logOf {i : Nat} (h : ∀ e, e.streamId ≠ i → f e = 0) :
    total f (logOf i log) = total f log := by
  induction log with
  | nil => rfl
  | cons e log ih =>
    rw [← List.singleton_append, logOf_append, total_append, total_append, ih]
    by_cases hid : e.streamId = i
    · rw [logOf_self hid]
    · simp [TornadoHttp2.logOf_other hid, h e hid]

/-- What holds for every stream's events holds for all events. -/
theorem total_le_of_logOf (h : ∀ i, total f (logOf i log) ≤ total g (logOf i log)) :
    total f log ≤ total g log := by
  have below (h : Event → Int) (n : Nat) : total h (log.filter fun e => e.streamId < n + 1) =
      total h (log.filter fun e => e.streamId < n) + total h (logOf n log) := by
    clear * -
    induction log with
    | nil => rfl
    | cons e log ih =>
      rw [← List.singleton_append, List.filter_append, List.filter_append, logOf_append, total_append,
        total_append, total_append, ih]
      rcases lt_trichotomy e.streamId n with hlt | heq | hgt
      · have hbelow : e.streamId < n + 1 := by omega
        simp only [logOf, List.filter_cons, List.filter_nil, hlt, hbelow, hlt.ne, decide_true, decide_false,
          if_true, if_false, Bool.false_eq_true, total_nil]
        omega
      · have hbelow : n < n + 1 := Nat.lt_succ_self n
        simp only [logOf, List.filter_cons, List.filter_nil, hbelow, heq, lt_irrefl, decide_true, decide_false,
          if_true, if_false, Bool.false_eq_true, total_nil]
        omega
      · have habove : ¬ e.streamId < n + 1 := by omega
        simp only [logOf, List.filter_cons, List.filter_nil, habove, hgt.not_gt, hgt.ne', decide_false, if_false,
          Bool.false_eq_true, total_nil]
        omega
  have hbelow (n : Nat) : total f (log.filter fun e => e.streamId < n) ≤
      total g (log.filter fun e => e.streamId < n) := by
    induction n with
    | zero => simp
    | succ n ih =>
      rw [below, below]
      exact add_le_add ih (h n)
  obtain ⟨n, hn⟩ : ∃ n, ∀ e ∈ log, e.streamId < n :=
    ⟨(log.map Event.streamId).sum + 1, fun e he =>
      Nat.lt_succ_of_le (List.single_le_sum (by simp) _ (List.mem_map_of_mem he))⟩
  have hall : (log.filter fun e => e.streamId < n) = log :=
    List.filter_eq_self.mpr fun e he => decide_eq_true (hn e he)
  simpa only [hall] using hbelow n

end

namespace Event

/-- What a WINDOW_UPDATE added to a window. -/
def credit (window : Option Nat) : Event → Int
  | credited w amount => if w = window then amount else 0
  | _ => 0

/-- What a `consume` took from a window. -/
def debit (window : Option Nat) : Event → Int
  | consumed w _ _ taken => if w = window then taken else 0
  | _ => 0

/-- The size with which the window of a stream started. -/
def initialSize : Event → Int
  | opened _ size => size
  | _ => 0

def dataBytes : Event → Int
  | wrote frame => if frame.type = .data then frame.data.length else 0
  | _ => 0

/-- A `consume` that returns takes something, and not more than it was asked for. -/
def fair : Event → Prop
  | consumed _ _ asked taken => 1 ≤ taken ∧ taken ≤ asked
  | _ => True

/-- The events that move no credit. -/
def isNeutral : Event → Prop
  | credited _ _ => False
  | consumed _ _ _ _ => False
  | opened _ _ => False
  | wrote frame => frame.type = .data → frame.data = []
  | _ => True

section

variable {e : Event} (h : e.isNeutral) {w : Option Nat}

include h

theorem isNeutral.credit : e.credit w = 0 := by cases e <;> first | rfl | exact h.elim

theorem isNeutral.debit : e.debit w = 0 := by cases e <;> first | rfl | exact h.elim

theorem isNeutral.initialSize : e.initialSize = 0 := by cases e <;> first | rfl | exact h.elim

theorem isNeutral.dataBytes : e.dataBytes = 0 := by
  cases e with
  | wrote frame =>
    rw [Event.dataBytes]
    split
    · simp [h ‹_›]
    · rfl
  | _ => rfl

theorem isNeutral.fair : e.fair := by
  cases e with
  | consumed => exact h.elim
  | _ => trivial

end

theorem isNoise.isNeutral {e : Event} (h : e.isNoise) : e.isNeutral := by
  cases e with
  | wrote frame =>
    rintro hdata
    simp [isNoise, hdata] at h
  | received | startRequest => trivial
  | _ => exact h.elim

theorem isRefusal.isNeutral {e : Event} (h : e.isRefusal) : e.isNeutral := by
  cases e with
  | wrote frame =>
    rintro hdata
    simp [isRefusal, hdata] at h
  | received => trivial
  | _ => exact h.elim

theorem ofReceiving.isNeutral {e : Event} {i : Nat} (h : e.ofReceiving i) : e.isNeutral := by
  cases e with
  | wrote frame =>
    rintro hdata
    simp [ofReceiving, hdata] at h
  | called | decoded => trivial
  | _ => exact h.elim

end Event

theorem total_credit_logOf {i : Nat} {log : List Event} :
    total (Event.credit (some i)) (logOf i log) = total (Event.credit (some i)) log :=
  total_logOf fun e he => by
    cases e with
    | credited w n => exact if_neg fun hw => he (by rw [hw]; rfl)
    | _ => rfl

theorem total_debit_logOf {i : Nat} {log : List Event} :
    total (Event.debit (some i)) (logOf i log) = total (Event.debit (some i)) log :=
  total_logOf fun e he => by
    cases e with
    | consumed w _ _ _ => exact if_neg fun hw => he (by rw [hw]; rfl)
    | _ => rfl

end TornadoHttp2
