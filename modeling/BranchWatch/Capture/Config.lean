import BranchWatch.Capture.Error

/-!
# Settings of a capture
-/

namespace BranchWatch

/-- Sizes, retries and the event itself. -/
structure CaptureConfig where
  /-- Pages of ordinary data; a power of two. -/
  dataPages : Nat := 64
  /-- Pages of the ring of packets; a power of two. -/
  auxPages : Nat := 1024
  /-- How many bytes are set aside for windows that wrap around the end of the
  ring.  More are taken when they are needed. -/
  traceCapacity : Nat := 1048576
  /-- Which part of the ring is filled before the kernel calls. -/
  wakeupRatio : Float := 0.5
  /-- How often the event is asked for while somebody else holds the device. -/
  openAttempts : Nat := 50000
  /-- Milliseconds between two attempts. -/
  openBackoff : Nat := 10
  /-- The bits of the event: which packets are wanted. -/
  eventConfig : UInt64 := 0x300e601
  deriving DecidableEq

namespace CaptureConfig

def isPowerOfTwo (n : Nat) : Bool := Nat.pow 2 n.log2 = n

/-- Checks what the kernel demands of the sizes. -/
def validate (c : CaptureConfig) : Except CollectorError Unit :=
  if !isPowerOfTwo c.dataPages then .error (.invalidConfig (.dataPages c.dataPages))
  else if !isPowerOfTwo c.auxPages then .error (.invalidConfig (.auxPages c.auxPages))
  else if !(0.0 < c.wakeupRatio && c.wakeupRatio ≤ 1.0) then
    .error (.invalidConfig (.wakeupRatio c.wakeupRatio))
  else if c.openAttempts = 0 then .error (.invalidConfig .openAttempts)
  else .ok ()

/-- The size of the ring. -/
def auxBytes (c : CaptureConfig) (pageSize : Nat) : Nat := c.auxPages * pageSize

/-- How many bytes are written before the kernel calls: the given part of the
ring, rounded down, and no less than zero.  The greatest number of 32 bits
stands for anything above it, and for no number. -/
def watermark (c : CaptureConfig) (pageSize : Nat) : UInt32 :=
  let wanted := Float.ofNat (c.auxBytes pageSize) * c.wakeupRatio
  let limit := Float.ofNat 0xffffffff
  if wanted < limit then wanted.toUInt32 else limit.toUInt32

end CaptureConfig

end BranchWatch
