import TornadoHttp2.Hpack

/-! What the elementary operations of a running decoder keep, decoding keeps. -/

namespace TornadoHttp2

open Prog

namespace HpackDecoder

theorem wp_read {α : Type} {f : BitDecoder → Except PyException (α × BitDecoder)}
    {Q : α → Decoding → Prop} {E : PyException → Decoding → Prop} {s : Decoding} :
    wp (read f) Q E s ↔ match f s.bits with
      | .ok (a, d) => Q a { s with bits := d }
      | .error e => E e s := by
  simp only [wp, read]
  rcases f s.bits with _ | ⟨_, _⟩ <;> rfl

/-- What reading keeps; the bits that are read do not matter to it. -/
structure KeepsReading (I : Decoding → Prop) (R : Decoding → Decoding → Prop) : Prop where
  bits {s : Decoding} (d : BitDecoder) : I s → I { s with bits := d } ∧ R s { s with bits := d }
  char (destByte : Nat) : Keeps I R (readHuffmanChar destByte)

variable {I : Decoding → Prop} {R : Decoding → Decoding → Prop} [Std.Refl R] [IsTrans Decoding R]

namespace KeepsReading

omit [IsTrans Decoding R] in
theorem read (h : KeepsReading I R) {α : Type} {f : BitDecoder → Except PyException (α × BitDecoder)} :
    Keeps I R (read f) := by
  intro s hs
  rw [HpackDecoder.read]
  dsimp only
  split
  · exact h.bits _ hs
  · exact ⟨hs, refl s⟩

theorem readHuffmanChars (h : KeepsReading I R) {destByte fuel : Nat} :
    Keeps I R (readHuffmanChars destByte fuel) := by
  induction fuel with
  | zero => exact .pure _
  | succ fuel ih =>
    refine .get_bind fun s _ => .ite (fun _ => .bind (h.char _) fun c => ?_) fun _ => .pure _
    cases c with
    | none => exact .pure _
    | some c => exact .bind ih fun _ => .pure _

theorem readChars (h : KeepsReading I R) {length : Nat} : Keeps I R (readChars length) := by
  induction length with
  | zero => exact .pure _
  | succ length ih => exact .bind h.read fun _ => .bind ih fun _ => .pure _

theorem readString (h : KeepsReading I R) : Keeps I R readString :=
  .bind h.read fun _ => .bind h.read fun _ =>
    .ite (fun _ => .get_bind fun _ _ => h.readHuffmanChars) fun _ => h.readChars

omit [IsTrans Decoding R] in
theorem readFromIndex {idx : Nat} : Keeps I R (readFromIndex idx) := by
  refine .get_bind fun s _ => .ite (fun _ => ?_) fun _ => ?_
  · split
    · exact .pure _
    · exact .raise _
  · split
    · exact .pure _
    · exact .raise _

theorem readNameValuePair (h : KeepsReading I R) : Keeps I R readNameValuePair := by
  have value (name : Bytes) : Keeps I R (do
      let value ← HpackDecoder.readString
      pure (name, value)) := .bind h.readString fun _ => .pure _
  exact .bind h.read fun _ => .ite (fun _ => .bind h.readString value) fun _ =>
    .bind readFromIndex fun _ => value _

variable {allowed : Bool} (hadd : ∀ name value, Keeps I R (addToDynamicTable name value))
  (hset : allowed = true → ∀ limit, Keeps I R (setDynamicTableLimit limit))

include hadd hset

theorem decodeField (h : KeepsReading I R) : Keeps I R (decodeField allowed) := by
  refine .bind h.read fun _ => .ite (fun _ => ?_) fun _ => ?_
  · exact .bind h.read fun _ => .bind readFromIndex fun _ => .pure _
  refine .bind h.read fun _ => .ite (fun _ => ?_) fun _ => ?_
  · exact .bind h.readNameValuePair fun _ => .bind (hadd _ _) fun _ => .pure _
  refine .bind h.read fun _ => .ite (fun _ => ?_) fun _ => ?_
  · cases allowed with
    | false => exact fun s hs => ⟨hs, refl s⟩
    | true => exact .bind .check fun _ => .bind h.read fun _ => .bind (hset rfl _) fun _ => .pure _
  · exact .bind h.read fun _ => .bind h.readNameValuePair fun _ => .pure _

theorem decodeLoop (h : KeepsReading I R) {fuel : Nat} : Keeps I R (decodeLoop fuel allowed) := by
  induction fuel generalizing allowed with
  | zero => exact .pure _
  | succ fuel ih =>
    refine .get_bind fun s _ => .ite (fun _ => .pure _) fun _ => .bind (h.decodeField hadd hset) fun header => ?_
    cases header with
    | none => exact ih hset
    | some header => exact .bind (ih fun (h : false = true) => nomatch h) fun _ => .pure _

end KeepsReading

end HpackDecoder

end TornadoHttp2
