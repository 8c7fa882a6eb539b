import BranchWatch.Capture.Error
import BranchWatch.Capture.Span

/-!
# The event of the kernel

A process is traced through an event of the kernel: it is opened, two regions of
memory are mapped, and then it is switched on and off.  `PerfEvent` is the
kernel's side of one event.  What its requests will answer is part of it, so a
statement about all events covers every way in which requests can fail.

The event keeps the list of the requests that were made, the latest first.
-/

namespace BranchWatch

/-- The size of a page of memory in bytes. -/
def pageSize : Nat := 4096

/-- What is asked for when the event is opened. -/
structure EventAttributes where
  /-- The size of this description in bytes. -/
  size : Nat := 128
  typeNumber : UInt32
  config : UInt64
  /-- The event starts switched off. -/
  disabled : Bool := true
  excludeUser : Bool := false
  excludeKernel : Bool := true
  excludeHypervisor : Bool := true
  /-- Children of the process are not traced. -/
  inherit : Bool := false
  enableOnExec : Bool := false
  /-- How near to the event its address must be; the greatest demand. -/
  preciseIp : Nat := 3
  watermark : Bool := true
  wakeupWatermark : Nat := 1
  auxWatermark : UInt32
  pid : Int
  /-- Any processor. -/
  cpu : Int := -1
  /-- No group. -/
  group : Int := -1
  /-- A flag of the request: the descriptor is closed by a new program. -/
  flags : Nat := 8
  deriving DecidableEq, Repr

/-- The page through which kernel and reader tell each other about the ring. -/
structure ControlPage where
  /-- How many bytes were written to the ring. -/
  head : UInt64 := 0
  /-- How many bytes of the ring may be used again. -/
  tail : UInt64 := 0
  dataOffset : UInt64 := 0
  dataSize : UInt64 := 0
  auxOffset : UInt64 := 0
  auxSize : UInt64 := 0
  deriving DecidableEq, Repr

/-- The requests to an open event. -/
inductive Control where
  | reset
  | enable
  | disable
  deriving DecidableEq, Repr

/-- A use of the event, and how it failed if it did. -/
inductive EventCall where
  | opened (failure : Option Errno)
  | mapped (region : Region) (length : Nat) (offset : UInt64) (failure : Option Errno)
  /-- The place of the data was read from the control page. -/
  | readPlace
  /-- The place of the ring was written to the control page. -/
  | placedRing (offset size : UInt64)
  | control (request : Control) (failure : Option Errno)
  | readHead
  | wroteTail
  | unmapped (region : Region) (failure : Option Errno)
  | closed (failure : Option Errno)
  deriving DecidableEq, Repr

/-- The name of a request, or of a resource that is given back. -/
def EventCall.name? : EventCall → Option String
  | control .reset _ => some "RESET"
  | control .enable _ => some "ENABLE"
  | control .disable _ => some "DISABLE"
  | unmapped .aux _ => some "munmap aux"
  | unmapped .base _ => some "munmap base"
  | closed _ => some "close"
  | opened _ | mapped .. | readPlace | placedRing .. | readHead | wroteTail => none

/-- The kernel's side of an event. -/
structure PerfEvent where
  /-- The file that tells the type of the event. -/
  typeFile : Option ByteArray
  /-- The answers to the requests to open the event; then it is opened. -/
  openFailures : List (Option Errno) := []
  mapFailure : Region → Option Errno := fun _ => none
  unmapFailure : Region → Option Errno := fun _ => none
  closeFailure : Option Errno := none
  /-- The answers to each kind of request; then all succeed. -/
  controlFailures : Control → List (Option Errno) := fun _ => []
  /-- What the processor has written by the time of each successful request to
  stop. -/
  traces : List (List UInt8) := []
  page : ControlPage := {}
  ring : Array UInt8 := #[]
  /-- What was asked for when the event was opened. -/
  attributes : Option EventAttributes := none
  calls : List EventCall := []

namespace PerfEvent

def log (e : PerfEvent) (call : EventCall) : PerfEvent :=
  { e with calls := call :: e.calls }

/-- The processor writes a byte to the ring. -/
def writeByte (e : PerfEvent) (byte : UInt8) : PerfEvent :=
  let place := e.page.head.toNat % e.page.auxSize.toNat
  { e with
    ring := e.ring.setIfInBounds place byte
    page := { e.page with head := e.page.head + 1 } }

/-- The processor writes bytes to the ring. -/
def produce (e : PerfEvent) (bytes : List UInt8) : PerfEvent := bytes.foldl writeByte e

/-- A request to open the event. -/
def tryOpen (attributes : EventAttributes) (e : PerfEvent) : Except Errno Nat × PerfEvent :=
  let (answer, later) := match e.openFailures with
    | [] => (none, [])
    | answer :: later => (answer, later)
  let e := { e with openFailures := later }.log (.opened answer)
  match answer with
  | some errno => (.error errno, e)
  | none => (.ok 3, { e with attributes := some attributes })

/-- A request to map a region.  The place of the ring must be a whole number of
pages. -/
def map (region : Region) (length : Nat) (offset : UInt64) (e : PerfEvent) :
    Option Errno × PerfEvent :=
  let misplaced := if offset.toNat % pageSize = 0 then none else some Errno.invalidArgument
  let failure := (e.mapFailure region).or misplaced
  let e := e.log (.mapped region length offset failure)
  match region, failure with
  | .aux, none => (none, { e with ring := Array.replicate length 0 })
  | _, _ => (failure, e)

/-- Reads the control page for the place of the data. -/
def readPlace (e : PerfEvent) : ControlPage × PerfEvent := (e.page, e.log .readPlace)

/-- Tells the kernel where the ring shall be. -/
def placeRing (offset size : UInt64) (e : PerfEvent) : PerfEvent :=
  { e with page := { e.page with auxOffset := offset, auxSize := size } }.log
    (.placedRing offset size)

/-- A request to the open event. -/
def control (request : Control) (e : PerfEvent) : Option Errno × PerfEvent :=
  let (failure, later) := match e.controlFailures request with
    | [] => (none, [])
    | failure :: later => (failure, later)
  let e := { e with
    controlFailures := fun r => if r = request then later else e.controlFailures r }
  let e := match request, failure, e.traces with
    | .disable, none, trace :: traces => { e with traces }.produce trace
    | _, _, _ => e
  (failure, e.log (.control request failure))

def readHead (e : PerfEvent) : UInt64 × PerfEvent := (e.page.head, e.log .readHead)

def writeTail (tail : UInt64) (e : PerfEvent) : PerfEvent :=
  { e with page := { e.page with tail } }.log .wroteTail

def unmap (region : Region) (e : PerfEvent) : Option Errno × PerfEvent :=
  (e.unmapFailure region, e.log (.unmapped region (e.unmapFailure region)))

def close (e : PerfEvent) : Option Errno × PerfEvent :=
  (e.closeFailure, e.log (.closed e.closeFailure))

end PerfEvent

end BranchWatch
