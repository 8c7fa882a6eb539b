import BranchWatch.Capture.Config
import BranchWatch.Capture.Event
import BranchWatch.Capture.EventType
import BranchWatch.Capture.Retry
import BranchWatch.Capture.Window

/-!
# The collector

The collector owns the event of one process: its descriptor and two mappings.
Switching it on gives the bytes of the last window back to the kernel; switching
it off finds the bytes written since then.  A window in one piece is read from
the ring itself, one that wraps around its end is copied.

Everything that was acquired is given back once: the ring, the control page, the
descriptor, in this order.
-/

namespace BranchWatch

/-- Where an open event lives. -/
structure EventInfo where
  typeNumber : UInt32
  /-- The descriptor, if it is open. -/
  descriptor : Option Nat
  /-- The control page and the data, in bytes. -/
  baseSize : Nat
  /-- The ring, in bytes. -/
  auxSize : Nat
  deriving DecidableEq, Repr

def EventInfo.message (i : EventInfo) : String :=
  let descriptor := match i.descriptor with
    | some fd => toString fd
    | none => "closed"
  "Intel PT type: " ++ toString i.typeNumber.toNat
    ++ "\nperf fd: " ++ descriptor
    ++ "\nAux buffer size: " ++ toString i.auxSize
    ++ "\nBase buffer size: " ++ toString i.baseSize

/-- The reader's side of an event, together with the kernel's. -/
structure Collector where
  event : PerfEvent
  typeNumber : UInt32 := 0
  descriptor : Option Nat := none
  /-- The size of the control page and the data, while they are mapped. -/
  base : Option Nat := none
  /-- The size of the ring, while it is mapped. -/
  aux : Option Nat := none
  enabled : Bool := false
  /-- Up to where the bytes of the ring have been handed out. -/
  consumed : UInt64 := 0
  /-- What was written when the capture was last switched off. -/
  head : UInt64 := 0
  span : Span := .empty
  truncated : Bool := false
  /-- The copy of a window that wraps around the end of the ring. -/
  copied : List UInt8 := []

namespace Collector

/-- Steps that may fail and always leave a collector. -/
abbrev Step := EStateM CollectorError Collector

/-- A use of the event. -/
def use {α : Type} (act : PerfEvent → α × PerfEvent) : Step α :=
  modifyGet fun c =>
    let (answer, event) := act c.event
    (answer, { c with event })

/-- Fails if there is an error. -/
def check : Except CollectorError Unit → Step Unit
  | .ok () => pure ()
  | .error e => throw e

/-- A request to the event. -/
def request (r : Control) : Step Unit := do
  match ← use (·.control r) with
  | some errno => throw (.errno errno)
  | none => pure ()

/-- Maps a region. -/
def mapRegion (region : Region) (length : Nat) (offset : UInt64) : Step Unit := do
  match ← use (·.map region length offset) with
  | some errno => throw (.mappingFailed region errno)
  | none => pure ()

/-- Maps both regions.  The kernel must know the place of the ring before the
ring is mapped. -/
def mapRegions (config : CaptureConfig) : Step Unit := do
  let baseSize := (1 + config.dataPages) * pageSize
  mapRegion .base baseSize 0
  modify fun c => { c with base := some baseSize }
  let page ← use (·.readPlace)
  let auxOffset :=
    if page.dataOffset = 0 then baseSize.toUInt64 else page.dataOffset + page.dataSize
  let auxSize := config.auxBytes pageSize
  use fun event => ((), event.placeRing auxOffset auxSize.toUInt64)
  mapRegion .aux auxSize auxOffset
  modify fun c => { c with aux := some auxSize }

/-- Opens the event for a process and maps its regions. -/
def acquire (pid : Int) (config : CaptureConfig) : Step Unit := do
  check config.validate
  match EventType.read EventType.path (← get).event.typeFile with
  | .error fault => throw (.unsupported (.probe fault))
  | .ok typeNumber =>
    let attributes : EventAttributes :=
      { typeNumber, config := config.eventConfig, auxWatermark := config.watermark pageSize, pid }
    match ← use (retryWhileBusy config.openAttempts (·.tryOpen attributes)) with
    | .error e => throw e
    | .ok fd =>
      modify fun c => { c with typeNumber, descriptor := some fd }
      mapRegions config

/-- Gives a resource back.  The answer is what failed. -/
def giveBack (resource : Resource) (act : PerfEvent → Option Errno × PerfEvent) (c : Collector) :
    List (Resource × Errno) × Collector :=
  let (failure, event) := act c.event
  ((failure.map (resource, ·)).toList, { c with event })

/-- Gives back everything that is held.  Nothing is tried twice, and a failure
does not keep the others from being given back. -/
def close (c : Collector) : Except CloseError Unit × Collector :=
  let c := { c with enabled := false, span := .empty }
  let (auxFailures, c) :=
    if c.aux.isSome then giveBack (.mapping .aux) (·.unmap .aux) { c with aux := none }
    else ([], c)
  let (baseFailures, c) :=
    if c.base.isSome then giveBack (.mapping .base) (·.unmap .base) { c with base := none }
    else ([], c)
  let (descriptorFailures, c) :=
    if c.descriptor.isSome then giveBack .descriptor (·.close) { c with descriptor := none }
    else ([], c)
  let failures := auxFailures ++ baseFailures ++ descriptorFailures
  (if failures.isEmpty then .ok () else .error ⟨failures⟩, c)

/-- Opens the event for a process.  The event starts switched off.  After a
failure nothing is held. -/
def openFor (event : PerfEvent) (pid : Int) (config : CaptureConfig) :
    Except CollectorError Unit × Collector :=
  match acquire pid config { event } with
  | .ok () c => (.ok (), c)
  | .error e c => (.error e, c.close.2)

/-- The size of the ring; zero once it is given back. -/
def auxSize (c : Collector) : Nat := c.aux.getD 0

def info (c : Collector) : EventInfo :=
  ⟨c.typeNumber, c.descriptor, c.base.getD 0, c.auxSize⟩

/-- Gives the bytes of the last window back to the kernel. -/
def release (c : Collector) : Collector :=
  let event := if c.base.isSome then c.event.writeTail c.head else c.event
  { c with event, consumed := c.head, span := .empty, truncated := false }

/-- Finds the bytes written since the capture was switched on. -/
def snapshot (c : Collector) : Collector :=
  match c.base, c.aux with
  | some _, some size =>
    let (head, event) := c.event.readHead
    let (span, truncated) := Span.locate c.consumed head size
    let copied := match span with
      | .wrapped .. => span.bytes event.ring
      | _ => c.copied
    { c with event, head, span, truncated, copied }
  | _, _ => c

/-- Drops the last window and switches the capture on, if it is off. -/
def switchOn : Step Unit := do
  let c ← get
  if c.descriptor.isNone then throw .closed
  else if c.enabled then pure ()
  else
    modify release
    request .reset
    request .enable
    modify fun c => { c with enabled := true }

/-- Switches the capture off, if it is on, and finds the new window. -/
def switchOff : Step Unit := do
  let c ← get
  if c.descriptor.isNone ∨ !c.enabled then pure ()
  else
    request .disable
    modify fun c => { c with enabled := false }
    modify snapshot

/-- What was captured last. -/
def window (c : Collector) : TraceWindow :=
  match c.aux, c.span with
  | none, _ | _, .empty => .empty
  | _, .direct start length => ⟨Span.bytes c.event.ring (.direct start length), c.truncated⟩
  | _, .wrapped .. => ⟨c.copied, c.truncated⟩

/-- The answer of a step and the collector behind it. -/
def outcome (step : Step Unit) (c : Collector) : Except CollectorError Unit × Collector :=
  match step c with
  | .ok () c => (.ok (), c)
  | .error e c => (.error e, c)

instance : TraceCapture Collector where
  enable := outcome switchOn
  disable := outcome switchOff
  window := window

end Collector

end BranchWatch
