import BranchWatch.Packet.Reader
import BranchWatch.Walk.Decoder
import BranchWatch.Walk.Flow

/-!
# Walking through the code

The walk follows straight code, direct jumps and direct calls on its own, and
reads packets only where the successor of an instruction depends on them: a
branch outcome for a conditional branch or a return to its call, an address
for everything else.

`Cursor` is the walk's whole state.  Its operations either give a result or an
error, and a state in both cases, since an error is recovered from: the walk
drops what it knows about the path and goes on at the next synchronisation
point, or directly behind an overflow.

Reading never moves backwards, and each event read leaves fewer bytes
(`nextEvent_lt`, `nextBranch_lt`, `acquire_lt`, `asyncEvent_lt`).
-/

namespace BranchWatch

/-- How many instructions are walked between two packets before the walk gives
up. -/
def maxSteps : Nat := 65536

/-- A place in a window, and what is known there. -/
structure Cursor where
  decoder : Decoder
  reader : PacketReader
  flow : FlowState := {}
  /-- The offset of the last packet read. -/
  lastOffset : Nat
  /-- Instructions emitted since the last packet was read. -/
  steps : Nat := 0
  /-- A synchronisation group is open. -/
  inPsb : Bool := false
  /-- The source of images has been asked for this window. -/
  rebuilt : Bool
  /-- The window has ended. -/
  done : Bool := false

/-- A step of the walk: a result or an error, and the state behind it. -/
abbrev Walk := EStateM DecodeError Cursor

/-- The result of a step of the walk. -/
abbrev Walked := EStateM.Result DecodeError Cursor

/-- Where a branch went, as the next packet says. -/
inductive Branch where
  /-- Branch outcomes have come. -/
  | tnt
  /-- The target, or `none` if tracing stopped. -/
  | target (ip : Option UInt64)
  deriving DecidableEq, Repr

namespace Cursor

/-- The start of the walk through a window: at the first synchronisation
point, or at the start if there is none. -/
def start (decoder : Decoder) (window : List UInt8) (rebuilt : Bool) : Cursor :=
  let offset := (findPsb 0 window).getD 0
  { decoder, reader := .mkAt window offset, lastOffset := offset, rebuilt }

/-- The error of finding something else than expected in the last packet. -/
def desync (c : Cursor) (expected : Expected) : DecodeError :=
  .desync c.lastOffset expected

/-- The state behind a packet of length `n`. -/
def consume (c : Cursor) (p : Packet) (n : Nat) : Cursor :=
  { c with
    reader := c.reader.advance n
    flow := c.flow.absorb p
    lastOffset := c.reader.offset
    steps := 0
    inPsb := inPsbAfter c.inPsb p }

/-- Reads up to the next packet that means something for the path; `none` at
the end of the window. -/
def nextEvent (c : Cursor) : Walked (Option FlowEvent) :=
  match _h : c.reader.peek with
  | .error e => .error (.packet e) c
  | .ok none => .ok none c
  | .ok (some (p, n)) =>
    match c.flow.event c.inPsb c.reader.offset p with
    | .error e => .error e (c.consume p n)
    | .ok (some event) => .ok (some event) (c.consume p n)
    | .ok none => nextEvent (c.consume p n)
termination_by c.reader.rest.length
decreasing_by exact PacketReader.advance_rest_lt ‹_›

theorem nextEvent_lt {c d : Cursor} {event : FlowEvent}
    (h : nextEvent c = .ok (some event) d) : d.reader.rest.length < c.reader.rest.length := by
  fun_induction nextEvent c with
  | case1 => cases h
  | case2 => cases h
  | case3 => cases h
  | case4 c p n hp => cases h; exact PacketReader.advance_rest_lt hp
  | case5 c p n hp _ ih => exact Nat.lt_trans (ih h) (PacketReader.advance_rest_lt hp)

/-- Reads up to the next packet that says where a branch went; `none` at the
end of the window.  Status packets are passed over. -/
def nextBranch (c : Cursor) : Walked (Option Branch) :=
  match _h : nextEvent c with
  | .error e d => .error e d
  | .ok none d => .ok none d
  | .ok (some (.status _)) d => nextBranch d
  | .ok (some .tnt) d => .ok (some .tnt) d
  | .ok (some (.ip .tip ip)) d => .ok (some (.target ip)) d
  | .ok (some (.ip .pgd _)) d => .ok (some (.target none)) d
  | .ok (some (.ip _ _)) d => .error (d.desync .branchPacket) d
termination_by c.reader.rest.length
decreasing_by exact nextEvent_lt ‹_›

/-- The same as a step. -/
def branch : Walk (Option Branch) := nextBranch

/-- Takes the oldest branch outcome, if there is one. -/
def popTnt : Walk (Option Bool) := do
  match (← get).flow.tnt with
  | [] => return none
  | taken :: rest =>
    modify fun c => { c with flow := { c.flow with tnt := rest } }
    return some taken

/-- Remembers a call. -/
def pushReturn (address : UInt64) : Walk Unit :=
  modify fun c => { c with flow := { c.flow with returns := c.flow.returns.push address } }

/-- Fails because something else was expected. -/
def fail {α : Type} (expected : Expected) : Walk α := do
  throw ((← get).desync expected)

/-- The outcome of a conditional branch; `none` at the end of the window. -/
def takeTnt : Walk (Option Bool) := do
  if (← get).flow.tnt.isEmpty then
    match ← branch with
    | none => return none
    | some .tnt => popTnt
    | some (.target _) => fail .tntBit
  else popTnt

/-- The target of an indirect branch; `none` at the end of the window. -/
def takeTarget : Walk (Option (Option UInt64)) := do
  if (← get).flow.tnt.isEmpty then
    match ← branch with
    | none => return none
    | some .tnt => fail .tip
    | some (.target ip) => return some ip
  else fail .tip

/-- A return to its call: a taken outcome stands for it. -/
def compressedReturn : Walk UInt64 := do
  match ← popTnt with
  | some true =>
    match (← get).flow.returns.pop? with
    | some (address, returns) =>
      modify fun c => { c with flow := { c.flow with returns } }
      return address
    | none => fail .matchingCall
  | _ => fail .takenReturn

/-- Where a return goes; `none` at the end of the window. -/
def takeReturn : Walk (Option (Option UInt64)) := do
  if (← get).flow.tnt.isEmpty then
    match ← branch with
    | none => return none
    | some .tnt => return some (some (← compressedReturn))
    | some (.target ip) => return some ip
  else return some (some (← compressedReturn))

/-- Where execution went after an instruction: an address, or `some none` if
tracing stopped; `none` at the end of the window. -/
def successor (p : Pending) : Walk (Option (Option UInt64)) :=
  match p.flow with
  | .next => return some (some p.fallThrough)
  | .jump target => return some (some target)
  | .call target => do
    pushReturn p.fallThrough
    return some (some target)
  | .conditional target => do
    match ← takeTnt with
    | none => return none
    | some taken => return some (some (if taken then target else p.fallThrough))
  | .ret => takeReturn
  | .indirectCall => do
    pushReturn p.fallThrough
    takeTarget
  | .indirectJump | .far => takeTarget

/-- Moves on from the last instruction, if its successor is still open.  The
answer is `false` at the end of the window. -/
def resolve : Walk Bool := do
  match (← get).flow.pending with
  | none => return true
  | some p =>
    modify fun c => { c with flow := { c.flow with pending := none } }
    match ← successor p with
    | none => return false
    | some ip =>
      modify fun c => { c with flow := { c.flow with ip } }
      return true

/-- The address at which an event says that tracing goes on. -/
def resumption? : FlowEvent → Option UInt64
  | .ip .pgd _ => none
  | .ip _ ip => ip
  | .status ip => ip
  | .tnt => none

/-- Waits until an address is known.  The answer is `false` at the end of the
window.  Branch outcomes that come before belong to unknown code. -/
def acquire (c : Cursor) : Walked Bool :=
  match _h : nextEvent c with
  | .error e d => .error e d
  | .ok none d => .ok false d
  | .ok (some event) d =>
    match resumption? event with
    | some ip => .ok true { d with flow := { d.flow with ip := some ip, tnt := [] } }
    | none =>
      match event with
      | .tnt => acquire { d with flow := { d.flow with tnt := [] } }
      | _ => acquire d
termination_by c.reader.rest.length
decreasing_by all_goals exact nextEvent_lt ‹_›

theorem acquire_lt {c d : Cursor} (h : acquire c = .ok true d) :
    d.reader.rest.length < c.reader.rest.length := by
  fun_induction acquire c with
  | case1 => cases h
  | case2 => cases h
  | case3 c event e he =>
    have hlt := nextEvent_lt he
    cases h
    exact hlt
  | case4 c e _ he _ ih =>
    have hlt := nextEvent_lt he
    exact Nat.lt_trans (ih h) hlt
  | case5 c event e he _ _ _ ih => exact Nat.lt_trans (ih h) (nextEvent_lt he)

/-- The packet that reports an asynchronous event at `ip` is the next one to
matter for the path. -/
def asyncAhead (c : Cursor) (ip : UInt64) : Except PacketError Bool :=
  match c.reader.firstFlowPacket with
  | .error e => .error e
  | .ok (some (.ip .fup payload)) => .ok (payload.apply c.flow.lastIp == some ip)
  | .ok _ => .ok false

/-- The state behind an asynchronous event, whose second packet says where
execution went on. -/
def asyncTarget (event : Option FlowEvent) (c : Cursor) : Cursor :=
  match event with
  | some (.ip .tip ip) => { c with flow := { c.flow with ip } }
  | some (.ip .pgd ip) => { c with flow := { c.flow with ip } }
  | none => { c with flow := { c.flow with ip := none } }
  | some _ => c

/-- Handles an asynchronous event reported right before the instruction at
`ip`.  The answer says whether there was one. -/
def asyncEvent (c : Cursor) (ip : UInt64) : Walked Bool :=
  if c.flow.tnt.isEmpty then
    match c.asyncAhead ip with
    | .error e => .error (.packet e) c
    | .ok false => .ok false c
    | .ok true =>
      match nextEvent c with
      | .error e d => .error e d
      | .ok none d => .ok false d
      | .ok (some _) d =>
        match nextEvent d with
        | .error e f => .error e f
        | .ok event f => .ok true (asyncTarget event f)
  else .ok false c

theorem asyncTarget_reader (event : Option FlowEvent) (c : Cursor) :
    (asyncTarget event c).reader = c.reader := by
  unfold asyncTarget
  split <;> rfl

theorem nextEvent_le {c d : Cursor} {event : Option FlowEvent}
    (h : nextEvent c = .ok event d) : d.reader.rest.length ≤ c.reader.rest.length := by
  fun_induction nextEvent c with
  | case1 => cases h
  | case2 => cases h; exact Nat.le_refl _
  | case3 => cases h
  | case4 c p n hp => cases h; exact Nat.le_of_lt (PacketReader.advance_rest_lt hp)
  | case5 c p n hp _ ih =>
    exact Nat.le_trans (ih h) (Nat.le_of_lt (PacketReader.advance_rest_lt hp))

theorem asyncEvent_lt {c d : Cursor} {ip : UInt64} (h : asyncEvent c ip = .ok true d) :
    d.reader.rest.length < c.reader.rest.length := by
  unfold asyncEvent at h
  split at h
  next =>
    split at h
    next => cases h
    next => cases h
    next =>
      split at h
      next => cases h
      next => cases h
      next hd =>
        split at h
        next => cases h
        next hf =>
          cases h
          rw [asyncTarget_reader]
          exact Nat.lt_of_le_of_lt (nextEvent_le hf) (nextEvent_lt hd)
  next => cases h

/-- Finds the address of the next instruction, past the places where tracing
was off and past asynchronous events; `none` at the end of the window. -/
def locate (c : Cursor) : Walked (Option UInt64) :=
  match c.flow.ip with
  | none =>
    match _h : acquire c with
    | .error e d => .error e d
    | .ok false d => .ok none d
    | .ok true d => locate d
  | some ip =>
    match _h : asyncEvent c ip with
    | .error e d => .error e d
    | .ok false d => .ok (some ip) d
    | .ok true d => locate d
termination_by c.reader.rest.length
decreasing_by
  · exact acquire_lt ‹_›
  · exact asyncEvent_lt ‹_›

/-- The same as a step. -/
def position : Walk (Option UInt64) := locate

/-- Reads the instruction at an address from the image. -/
def readInstruction (c : Cursor) (ip : UInt64) : Except DecodeError (InstructionRecord × Flow) :=
  match c.decoder.image.bind (·.read ip maxInstructionLength) with
  | none => .error (.noMap ip)
  | some bytes => c.decoder.disassembler.decode c.flow.mode ip bytes

/-- Reads the instruction at an address.  If no code is mapped there and the
source of images was not asked for this window, it is asked once. -/
def fetch (ip : UInt64) : Walk (InstructionRecord × Flow) := do
  let c ← get
  match c.readInstruction ip with
  | .ok found => return found
  | .error (.noMap missing) =>
    if c.rebuilt then throw (.noMap missing)
    else
      let (result, decoder) := c.decoder.rebuild
      set { c with decoder, rebuilt := true }
      match result with
      | .error e => throw e
      | .ok () =>
        match (← get).readInstruction ip with
        | .ok found => return found
        | .error e => throw e
  | .error e => throw e

/-- The next instruction; `none` at the end of the window. -/
def step : Walk (Option InstructionRecord) := do
  if ← resolve then
    match ← position with
    | none => return none
    | some ip =>
      let c ← get
      if c.steps = maxSteps then throw (.runaway ip c.steps)
      else
        set { c with steps := c.steps + 1 }
        let (record, flow) ← fetch ip
        modify fun c =>
          { c with flow := { c.flow with pending := some ⟨ip, record.size, flow⟩ } }
        return some record
  else return none

/-- The state in which the walk goes on after an error.  After an overflow it
goes on with the next packet, otherwise at the next synchronisation point
behind the failing packet, if there is one. -/
def recover (c : Cursor) (e : DecodeError) : Cursor :=
  let c := { c with flow := c.flow.reset, steps := 0 }
  let failing := match e with
    | .packet p => max c.lastOffset p.offset
    | _ => c.lastOffset
  match e with
  | .overflow _ => c
  | _ =>
    match findPsb (failing + 1) (c.reader.buffer.drop (failing + 1)) with
    | some offset =>
      { c with inPsb := false, lastOffset := failing, reader := c.reader.seek offset }
    | none => { c with inPsb := false, lastOffset := failing, done := true }

/-- The next item of the window, and the state behind it. -/
def next (c : Cursor) : Option Item × Cursor :=
  if c.done then (none, c)
  else
    match step c with
    | .ok (some record) d => (some (.ok record), d)
    | .ok none d => (none, { d with done := true })
    | .error e d => (some (.error e), d.recover e)

/-- At most this many items come from a window of the given length. -/
def itemBound (length : Nat) : Nat := (length + 1) * (maxSteps + 3)

/-- At most `n` items from a place on. -/
def itemsWithin : Nat → Cursor → ItemStream Decoder
  | 0, c => .done c.decoder
  | n + 1, c =>
    match c.next with
    | (none, d) => .done d.decoder
    | (some i, d) => .item i d.decoder fun _ => itemsWithin n d

/-- The items from a place on. -/
def items (c : Cursor) : ItemStream Decoder :=
  itemsWithin (itemBound c.reader.buffer.length) c

end Cursor

namespace Decoder

/-- Decodes a window with the image as it is.  A window without bytes is
refused. -/
def openWindow (d : Decoder) (window : List UInt8) (rebuilt : Bool) : Opening Decoder :=
  if window.isEmpty then .refused .endOfStream d
  else .opened (Cursor.start d window rebuilt).items

instance : TraceDecoder Decoder where
  restart d window :=
    match d.rebuild with
    | (.ok (), d) => d.openWindow window true
    | (.error e, d) => .refused e d
  resync d window := d.openWindow window false

end Decoder

end BranchWatch
