import Mathlib.Algebra.Ring.Int.Defs
import Mathlib.Algebra.Ring.Nat
import Mathlib.Data.List.Basic

/-! Protocol constants and the exceptions that the handlers raise. -/

namespace TornadoHttp2

abbrev Bytes := List UInt8

/-- The bytes of an ASCII string: a `b'...'` literal, or `utf8` of one. -/
def ascii (s : String) : Bytes := s.toList.map fun c => UInt8.ofNat c.toNat

/-- `bytes.lower`, which changes ASCII letters only. -/
def lower (s : Bytes) : Bytes :=
  s.map fun c => if 0x41 ≤ c ∧ c ≤ 0x5a then c + 0x20 else c

theorem lower_lower (s : Bytes) : lower (lower s) = lower s := by
  simp only [lower, List.map_map, List.map_inj_left, Function.comp_apply]
  intro c _
  by_cases h : 0x41 ≤ c ∧ c ≤ 0x5a
  · have hnot : ¬ (0x41 ≤ c + 0x20 ∧ c + 0x20 ≤ 0x5a) := by
      simp only [UInt8.le_iff_toNat_le, UInt8.toNat_add, UInt8.reduceToNat] at h ⊢
      omega
    rw [if_pos h, if_neg hnot]
  · rw [if_neg h, if_neg h]

def maxWindowSize : Int := 2 ^ 31 - 1

def maxMaxFrameSize : Nat := 2 ^ 24 - 1

/-- A type byte outside the enumeration stays a plain integer. -/
inductive FrameType
  | data | headers | priority | rstStream | settings | pushPromise | ping | goaway
  | windowUpdate | continuation
  | unknown (value : Nat)
  deriving DecidableEq, Repr

def FrameType.value : FrameType → Nat
  | data => 0x0
  | headers => 0x1
  | priority => 0x2
  | rstStream => 0x3
  | settings => 0x4
  | pushPromise => 0x5
  | ping => 0x6
  | goaway => 0x7
  | windowUpdate => 0x8
  | continuation => 0x9
  | unknown value => value

def FrameType.ofValue : Nat → FrameType
  | 0x0 => data
  | 0x1 => headers
  | 0x2 => priority
  | 0x3 => rstStream
  | 0x4 => settings
  | 0x5 => pushPromise
  | 0x6 => ping
  | 0x7 => goaway
  | 0x8 => windowUpdate
  | 0x9 => continuation
  | value => unknown value

/-- How `'%s' % frame.type` shows a type. -/
def FrameType.str : FrameType → String
  | data => "FrameType.DATA"
  | headers => "FrameType.HEADERS"
  | priority => "FrameType.PRIORITY"
  | rstStream => "FrameType.RST_STREAM"
  | settings => "FrameType.SETTINGS"
  | pushPromise => "FrameType.PUSH_PROMISE"
  | ping => "FrameType.PING"
  | goaway => "FrameType.GOAWAY"
  | windowUpdate => "FrameType.WINDOW_UPDATE"
  | continuation => "FrameType.CONTINUATION"
  | unknown value => toString value

/-- The settings that some function reads or checks. -/
inductive Setting
  | headerTableSize | enablePush | initialWindowSize | maxFrameSize
  deriving DecidableEq, Repr

def Setting.code : Setting → Nat
  | headerTableSize => 0x1
  | enablePush => 0x2
  | initialWindowSize => 0x4
  | maxFrameSize => 0x5

def Setting.default : Setting → Nat
  | headerTableSize => 4096
  | enablePush => 1
  | initialWindowSize => 65535
  | maxFrameSize => 16384

inductive ErrorCode
  | noError | protocolError | internalError | flowControlError | settingsTimeout | streamClosed
  | frameSizeError | refusedStream | cancel | compressionError | connectError | enhanceYourCalm
  | inadequateSecurity | http11Required
  deriving DecidableEq, Repr

def ErrorCode.code : ErrorCode → Nat
  | noError => 0x0
  | protocolError => 0x1
  | internalError => 0x2
  | flowControlError => 0x3
  | settingsTimeout => 0x4
  | streamClosed => 0x5
  | frameSizeError => 0x6
  | refusedStream => 0x7
  | cancel => 0x8
  | compressionError => 0x9
  | connectError => 0xa
  | enhanceYourCalm => 0xb
  | inadequateSecurity => 0xc
  | http11Required => 0xd

inductive HeaderIndexMode
  | yes | no | never
  deriving DecidableEq, Repr

inductive FrameFlag
  | endStream | ack | endHeaders | padded | priority
  deriving DecidableEq, Repr

def FrameFlag.value : FrameFlag → UInt8
  | endStream => 0x1
  | ack => 0x1
  | endHeaders => 0x4
  | padded => 0x8
  | priority => 0x20

inductive HTTPPhase
  | headers | body | trailers
  deriving DecidableEq, Repr

inductive PyException
  | connectionError (code : ErrorCode) (message : Option String)
  | streamError (streamId : Nat) (code : ErrorCode)
  | streamClosedError
  | httpOutputError
  | hpackError
  | eodError
  | assertionError
  | attributeError
  | indexError
  | keyError
  | structError
  | typeError
  | unicodeDecodeError
  | valueError
  | exception
  deriving DecidableEq, Repr

end TornadoHttp2
