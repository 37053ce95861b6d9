import TornadoHttp2.Frames

/-! The bytes of a frame as `_read_frame` takes them off the socket. -/

namespace TornadoHttp2

/-- The next frame and what follows it, once all of its bytes are there. -/
def Frame.read : Bytes → Option (Frame × Bytes)
  | b₀ :: b₁ :: b₂ :: typ :: flags :: b₅ :: b₆ :: b₇ :: b₈ :: data =>
    -- A leading 0 is attached again to parse the 24-bit length.
    let dataLen := unpackBytes [0, b₀, b₁, b₂]
    if data.length < dataLen then none
    else
      -- The reserved bit is stripped off the stream id.
      let streamId := unpackBytes [b₅, b₆, b₇, b₈] &&& 0x7fffffff
      some (⟨.ofValue typ.toNat, flags, streamId, data.take dataLen⟩, data.drop dataLen)
  | _ => none

/-- A frame of a known type that the header has room for. -/
structure Frame.Framed (f : Frame) : Prop where
  type : .ofValue f.type.value = f.type
  value : f.type.value < 256
  length : f.data.length < 2 ^ 24
  streamId : f.streamId < 2 ^ 31

theorem unpackBytes_length {n : Nat} (h : n < 2 ^ 24) :
    unpackBytes [0, UInt8.ofNat (n >>> 16), UInt8.ofNat (n >>> 8), UInt8.ofNat (n >>> 0)] = n := by
  simp only [unpackBytes, List.foldl_cons, List.foldl_nil, UInt8.toNat_ofNat', Nat.shiftRight_eq_div_pow]
  simp
  omega

theorem unpackBytes_streamId {n : Nat} (h : n < 2 ^ 31) :
    unpackBytes [UInt8.ofNat (n >>> 24), UInt8.ofNat (n >>> 16), UInt8.ofNat (n >>> 8), UInt8.ofNat (n >>> 0)] &&&
      0x7fffffff = n := by
  have hunpack : unpackBytes [UInt8.ofNat (n >>> 24), UInt8.ofNat (n >>> 16), UInt8.ofNat (n >>> 8),
      UInt8.ofNat (n >>> 0)] = n := by
    simp only [unpackBytes, List.foldl_cons, List.foldl_nil, UInt8.toNat_ofNat', Nat.shiftRight_eq_div_pow]
    omega
  rw [hunpack]
  exact (Nat.and_two_pow_sub_one_eq_mod n 31).trans (Nat.mod_eq_of_lt h)

theorem Frame.read_encoded {f : Frame} (h : f.Framed) (rest : Bytes) : read (f.encoded ++ rest) = some (f, rest) := by
  obtain ⟨type, flags, streamId, data⟩ := f
  obtain ⟨htype, hvalue, hlength, hid⟩ := h
  dsimp only at htype hvalue hlength hid
  have hbyte : (UInt8.ofNat type.value).toNat = type.value := UInt8.toNat_ofNat_of_lt' hvalue
  have hbytes : (⟨type, flags, streamId, data⟩ : Frame).encoded ++ rest =
      UInt8.ofNat (data.length >>> 16) :: UInt8.ofNat (data.length >>> 8) :: UInt8.ofNat (data.length >>> 0) ::
        UInt8.ofNat type.value :: flags :: UInt8.ofNat (streamId >>> 24) :: UInt8.ofNat (streamId >>> 16) ::
          UInt8.ofNat (streamId >>> 8) :: UInt8.ofNat (streamId >>> 0) :: (data ++ rest) := rfl
  have hroom : ¬ (data ++ rest).length < data.length := by simp
  rw [hbytes, read]
  simp only [unpackBytes_length hlength, unpackBytes_streamId hid, if_neg hroom, hbyte, htype, List.take_left,
    List.drop_left]

end TornadoHttp2
