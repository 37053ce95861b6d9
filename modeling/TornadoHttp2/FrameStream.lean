import TornadoHttp2.FrameSizes
import TornadoHttp2.Wire

/-! A stream of bytes cut into frames. `_read_frame` takes the nine bytes of a
header off the stream, and then as many as the header says. -/

namespace TornadoHttp2

open Prog

/-- A type that the enumeration has. -/
def FrameType.IsMember : FrameType → Prop
  | unknown _ => False
  | _ => True

instance : (type : FrameType) → Decidable type.IsMember
  | .unknown _ => isFalse id
  | .data | .headers | .priority | .rstStream | .settings | .pushPromise | .ping | .goaway | .windowUpdate
  | .continuation => isTrue trivial

/-- What `_write_frame` has handed to the socket. -/
def sentBytes (log : List Event) : Bytes :=
  log.flatMap fun
    | .wrote frame => frame.encoded
    | _ => []

namespace Conn

/-- What `_read_frame` returns or raises on the bytes that follow in the stream,
and the bytes after those that it takes. As long as it waits for more, `none`. -/
def readFrameBytes (conn : Conn) : Bytes → Option (Except PyException Frame × Bytes)
  | b₀ :: b₁ :: b₂ :: typ :: flags :: b₅ :: b₆ :: b₇ :: b₈ :: data =>
    -- A leading 0 is attached again to parse the 24-bit length.
    let dataLen := unpackBytes [0, b₀, b₁, b₂]
    if dataLen > conn.setting .maxFrameSize then
      some (.error (.connectionError .frameSizeError none), data)
    else if data.length < dataLen then none
    else
      -- The sign that `struct` gives the stream id goes with the reserved bit.
      let streamId := unpackBytes [b₅, b₆, b₇, b₈] &&& 0x7fffffff
      some (.ok ⟨.ofValue typ.toNat, flags, streamId, data.take dataLen⟩, data.drop dataLen)
  | _ => none

/-- So many calls of `_read_frame`. -/
def readFrames (conn : Conn) : (calls : Nat) → Bytes → Option (Except PyException (List Frame) × Bytes)
  | 0, stream => some (.ok [], stream)
  | calls + 1, stream =>
    match conn.readFrameBytes stream with
    | none => none
    | some (.error e, stream) => some (.error e, stream)
    | some (.ok frame, stream) =>
      (conn.readFrames calls stream).map fun r => (r.1.map (frame :: ·), r.2)

def writeFrames : List Frame → OnConn Unit
  | [] => pure ()
  | frame :: frames => do
    writeFrame frame
    writeFrames frames

/-- A frame that can be sent and that a reader with these settings accepts. -/
structure Admits (conn : Conn) (frame : Frame) : Prop where
  type : frame.type.IsMember
  streamId : frame.streamId < 2 ^ 31
  length : frame.data.length ≤ conn.setting .maxFrameSize

end Conn

theorem FrameType.IsMember.framed {type : FrameType} (h : type.IsMember) :
    .ofValue type.value = type ∧ type.value < 256 := by
  cases type with
  | unknown => exact h.elim
  | _ => exact ⟨rfl, by decide⟩

namespace Conn

variable {conn : Conn} {frame : Frame} {stream rest : Bytes}

/-- The frame that the bytes hold, once they are there, if its length is allowed. -/
theorem readFrameBytes_read (h : Frame.read stream = some (frame, rest))
    (hlength : frame.data.length ≤ conn.setting .maxFrameSize) :
    conn.readFrameBytes stream = some (.ok frame, rest) := by
  revert h
  rw [Frame.read.eq_def, readFrameBytes.eq_def]
  split
  · rename_i b₀ b₁ b₂ typ flags b₅ b₆ b₇ b₈ data
    dsimp only
    split
    · exact fun h => by cases h
    · rename_i hroom
      intro h
      rw [Option.some.injEq, Prod.mk.injEq] at h
      obtain ⟨rfl, rfl⟩ := h
      have htake : (data.take (unpackBytes [0, b₀, b₁, b₂])).length = unpackBytes [0, b₀, b₁, b₂] := by
        rw [List.length_take]
        omega
      rw [if_neg (not_lt.mpr (htake ▸ hlength))]
  · exact fun h => by cases h

theorem Admits.framed (h : conn.Admits frame) (hmax : conn.setting .maxFrameSize ≤ maxMaxFrameSize) :
    frame.Framed where
  type := h.type.framed.1
  value := h.type.framed.2
  length := Nat.lt_of_le_of_lt (h.length.trans hmax) (by decide)
  streamId := h.streamId

theorem readFrames_encoded (hmax : conn.setting .maxFrameSize ≤ maxMaxFrameSize) {frames : List Frame}
    (h : ∀ f ∈ frames, conn.Admits f) :
    conn.readFrames frames.length (frames.flatMap Frame.encoded ++ rest) = some (.ok frames, rest) := by
  induction frames with
  | nil => rfl
  | cons f frames ih =>
    obtain ⟨hf, hframes⟩ := List.forall_mem_cons.mp h
    have hread : conn.readFrameBytes (f.encoded ++ (frames.flatMap Frame.encoded ++ rest)) =
        some (.ok f, frames.flatMap Frame.encoded ++ rest) :=
      readFrameBytes_read (Frame.read_encoded (hf.framed hmax) _) hf.length
    rw [List.length_cons, readFrames, List.flatMap_cons, List.append_assoc, hread]
    dsimp only
    rw [ih hframes]
    rfl

theorem writeFrames_run (hopen : conn.closed = false) {frames : List Frame}
    (h : ∀ f ∈ frames, f.data.length < 2 ^ 31 ∧ f.streamId < 2 ^ 31) :
    (writeFrames frames).run conn = (.ok (), { conn with log := conn.log ++ frames.map .wrote }) := by
  induction frames generalizing conn with
  | nil => simp [writeFrames]
  | cons f frames ih =>
    obtain ⟨hf, hframes⟩ := List.forall_mem_cons.mp h
    have hwrite : (writeFrame f).run conn = (.ok (), { conn with log := conn.log ++ [.wrote f] }) := by
      have hpacks : ¬ (f.data.length ≥ 2 ^ 31 ∨ f.streamId ≥ 2 ^ 31) := by omega
      rw [writeFrame, run_check_of_neg hpacks, run_get_bind, run_check_of_neg (by simp [hopen])]
      rfl
    have hrest : (writeFrames frames).run { conn with log := conn.log ++ [.wrote f] } = _ := ih hopen hframes
    rw [writeFrames, bind_ok hwrite, hrest]
    simp

theorem sentBytes_wrote {frames : List Frame} : sentBytes (frames.map .wrote) = frames.flatMap Frame.encoded := by
  rw [sentBytes, List.flatMap_map]

/-- A frame takes the nine bytes of its header and its payload. -/
theorem readFrameBytes_header {b₀ b₁ b₂ typ flags b₅ b₆ b₇ b₈ : UInt8} {data : Bytes}
    (hlength : data.length = unpackBytes [0, b₀, b₁, b₂]) (hmax : data.length ≤ conn.setting .maxFrameSize) :
    conn.readFrameBytes ([b₀, b₁, b₂, typ, flags, b₅, b₆, b₇, b₈] ++ (data ++ rest)) =
      some (.ok ⟨.ofValue typ.toNat, flags, unpackBytes [b₅, b₆, b₇, b₈] % 2 ^ 31, data⟩, rest) := by
  have hroom : ¬ (data ++ rest).length < unpackBytes [0, b₀, b₁, b₂] := by
    rw [List.length_append]
    omega
  have hid : unpackBytes [b₅, b₆, b₇, b₈] &&& 0x7fffffff = unpackBytes [b₅, b₆, b₇, b₈] % 2 ^ 31 :=
    Nat.and_two_pow_sub_one_eq_mod _ 31
  change conn.readFrameBytes (b₀ :: b₁ :: b₂ :: typ :: flags :: b₅ :: b₆ :: b₇ :: b₈ :: (data ++ rest)) = _
  rw [readFrameBytes, if_neg (not_lt.mpr (hlength ▸ hmax)), if_neg hroom, ← hlength, hid, List.take_left,
    List.drop_left]

end Conn

namespace System

/-- The peer cannot choose a MAX_FRAME_SIZE that the header of a frame has no room for. -/
theorem maxFrameSize_le (isClient : Bool) (params : Params) (actions : List Action) :
    ((start isClient params).run actions).conn.setting .maxFrameSize ≤ maxMaxFrameSize := by
  exact (List.foldlRecOn (motive := fun s => WellFormed s ∧ s.conn.Bounded) actions step
    ⟨.start isClient params, bounded_start isClient params⟩ fun s h a _ => ⟨h.1.step a, bounded_step h.1 h.2 a⟩).2.max

end System

/-- What a connection writes is read back as the same frames, with nothing left;
and each header that is accepted takes its nine bytes and as many as it says,
whatever its reserved bit. -/
theorem frames_survive (isClient : Bool) (params : Params) (actions : List System.Action) :
    let reader := ((System.start isClient params).run actions).conn
    (∀ (writer : Conn) (frames : List Frame), writer.closed = false → (∀ f ∈ frames, reader.Admits f) →
      ∃ written bytes, (Conn.writeFrames frames).run writer = (.ok (), written) ∧
        sentBytes written.log = sentBytes writer.log ++ bytes ∧
        reader.readFrames frames.length bytes = some (.ok frames, [])) ∧
    ∀ (b₀ b₁ b₂ typ flags b₅ b₆ b₇ b₈ : UInt8) (data rest : Bytes), data.length = unpackBytes [0, b₀, b₁, b₂] →
      data.length ≤ reader.setting .maxFrameSize →
        reader.readFrameBytes ([b₀, b₁, b₂, typ, flags, b₅, b₆, b₇, b₈] ++ (data ++ rest)) =
          some (.ok ⟨.ofValue typ.toNat, flags, unpackBytes [b₅, b₆, b₇, b₈] % 2 ^ 31, data⟩, rest) := by
  intro reader
  have hmax : reader.setting .maxFrameSize ≤ maxMaxFrameSize := System.maxFrameSize_le isClient params actions
  refine ⟨fun writer frames hopen hframes => ?_, fun _ _ _ _ _ _ _ _ _ _ _ => Conn.readFrameBytes_header⟩
  have hpacks : ∀ f ∈ frames, f.data.length < 2 ^ 31 ∧ f.streamId < 2 ^ 31 := fun f hf =>
    ⟨Nat.lt_of_le_of_lt ((hframes f hf).length.trans hmax) (by decide), (hframes f hf).streamId⟩
  refine ⟨_, frames.flatMap Frame.encoded, Conn.writeFrames_run hopen hpacks, ?_, ?_⟩
  · rw [sentBytes, List.flatMap_append]
    exact congrArg (sentBytes writer.log ++ ·) Conn.sentBytes_wrote
  · have hread := @Conn.readFrames_encoded _ [] hmax frames hframes
    rwa [List.append_nil] at hread

/-- A SETTINGS frame and the last stream id there is; and a PING whose reserved
bit is set. -/
theorem frames_survive_two :
    let conn := (System.start false (.new none .caseless)).conn
    let frames := [settingsFrame true, ⟨.data, 0xff, 2 ^ 31 - 1, [1, 2, 3]⟩]
    (∃ written bytes, (Conn.writeFrames frames).run conn = (.ok (), written) ∧
      sentBytes written.log = sentBytes conn.log ++ bytes ∧ conn.readFrames 2 bytes = some (.ok frames, [])) ∧
    conn.readFrameBytes [0, 0, 1, 6, 0, 0x80, 0, 0, 5, 7, 8] = some (.ok ⟨.ping, 0, 5, [7]⟩, [8]) := by
  have hsurvive := frames_survive false (.new none .caseless) []
  refine ⟨hsurvive.1 _ _ rfl ?_, hsurvive.2 0 0 1 6 0 0x80 0 0 5 [7] [8] rfl (by decide)⟩
  refine List.forall_mem_cons.mpr ⟨⟨trivial, by decide, by decide⟩, List.forall_mem_singleton.mpr ?_⟩
  exact ⟨trivial, by decide, by decide⟩

end TornadoHttp2
