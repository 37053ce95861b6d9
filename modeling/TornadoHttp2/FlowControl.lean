import TornadoHttp2.Frames
import TornadoHttp2.Prog

/-! Flow-control windows. `notified` counts the calls of `cond.notify_all`: a
coroutine that began to wait when the count was `n` may resume once it is
larger, so each call wakes every current waiter and no later one. -/

namespace TornadoHttp2

/-- `streamId` is `none` for the window of the connection, which has no parent. -/
structure Window where
  streamId : Option Nat
  size : Int
  closed : Bool
  notified : Nat
  deriving DecidableEq, Repr

namespace Window

open Prog

def new (streamId : Option Nat) (initialWindowSize : Int) : Window :=
  ⟨streamId, initialWindowSize, false, 0⟩

def notifyAll : Prog Window PyException Unit :=
  modify fun w => { w with notified := w.notified + 1 }

def close : Prog Window PyException Unit := do
  modify fun w => { w with closed := true }
  notifyAll

def raiseError {α : Type} (code : ErrorCode) (message : String) : Prog Window PyException α := do
  let w ← get
  match w.streamId with
  | none => raise (.connectionError code (some message))
  | some streamId => raise (.streamError streamId code)

def adjust (amount : Int) : Prog Window PyException Unit := do
  modify fun w => { w with size := w.size + amount }
  let w ← get
  when (w.size > maxWindowSize)
    (raiseError .flowControlError "flow control window too large")
  notifyAll

/-- The amount credited, for the record of what happened. -/
def applyWindowUpdate (frame : Frame) : Prog Window PyException Nat := do
  match unpackWord frame.data with
  | .error _ => raise (.connectionError .frameSizeError (some "WINDOW_UPDATE incorrect size"))
  | .ok windowUpdate => do
    let windowUpdate := windowUpdate &&& 0x7fffffff
    when (windowUpdate = 0) (raiseError .protocolError "window update must not be zero")
    adjust windowUpdate
    pure windowUpdate

/-- The test that a suspended `consume` repeats on every wakeup. -/
def blocked (w : Window) : Bool := !w.closed && w.size ≤ 0

end Window

end TornadoHttp2
