import TornadoHttp2.Constants

/-! Frames, their padding and their bytes on the wire. -/

namespace TornadoHttp2

structure Frame where
  type : FrameType
  flags : UInt8
  streamId : Nat
  data : Bytes
  deriving DecidableEq, Repr

/-- `self.flags & flag`. -/
def Frame.has (f : Frame) (flag : FrameFlag) : Bool := f.flags &&& flag.value ≠ 0

/-- `struct.unpack('>b', ...)` of one byte. -/
def signedByte (b : UInt8) : Int := if b.toNat < 128 then b.toNat else (b.toNat : Int) - 256

/-- `data[start:stop]`, where a negative index counts from the end. -/
def slice (data : Bytes) (start stop : Int) : Bytes :=
  let index (i : Int) : Nat := if i < 0 then (data.length + i).toNat else i.toNat
  (data.take (index stop)).drop (index start)

def Frame.withoutPadding (f : Frame) : Except PyException Frame :=
  if f.has .padded then
    match f.data with
    | [] => .error .structError
    | b :: _ =>
      let padLen := signedByte b
      if padLen > (f.data.length : Int) - 1 then
        if f.type = .headers then
          .error (.connectionError .protocolError (some "invalid padding length"))
        else .error (.streamError f.streamId .protocolError)
      else .ok { f with data := slice f.data 1 (-padLen) }
  else .ok f

theorem Frame.has_congr {f g : Frame} (h : f.flags = g.flags) {flag : FrameFlag} : f.has flag = g.has flag := by
  rw [Frame.has, Frame.has, h]

theorem Frame.withoutPadding_same {frame f : Frame} (h : frame.withoutPadding = .ok f) :
    f.type = frame.type ∧ f.flags = frame.flags ∧ f.streamId = frame.streamId := by
  rw [withoutPadding] at h
  split at h
  · split at h
    · cases h
    · dsimp only at h
      split at h
      · split at h <;> cases h
      · cases h
        exact ⟨rfl, rfl, rfl⟩
  · cases h
    exact ⟨rfl, rfl, rfl⟩

/-- The `n` low bytes of a number, most significant first. -/
def packBytes : (n v : Nat) → Bytes
  | 0, _ => []
  | n + 1, v => UInt8.ofNat (v >>> (8 * n)) :: packBytes n v

def unpackBytes (data : Bytes) : Nat := data.foldl (fun acc b => 256 * acc + b.toNat) 0

/-- `frame.data` of a WINDOW_UPDATE as `struct.unpack('>I', ...)` reads it. -/
def unpackWord (data : Bytes) : Except PyException Nat :=
  if data.length = 4 then .ok (unpackBytes data) else .error .structError

/-- What `_write_frame` hands to the socket: the length loses its first byte. -/
def Frame.encoded (f : Frame) : Bytes :=
  (packBytes 4 f.data.length).drop 1 ++ [UInt8.ofNat f.type.value, f.flags] ++
    packBytes 4 f.streamId ++ f.data

end TornadoHttp2
