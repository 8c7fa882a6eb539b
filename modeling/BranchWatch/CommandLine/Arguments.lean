import BranchWatch.CommandLine.Environment
import BranchWatch.Monitor.Config

/-!
# What the command line asks for
-/

namespace BranchWatch.CommandLine

/-- The values of all options.  Nothing is checked that takes more than one
option to decide. -/
structure Options where
  config : MonitorConfig := {}
  logFile : Option String := none
  /-- The traced program does not see the environment of the monitor. -/
  noHostEnvironment : Bool := false
  /-- The variables given for the traced program, in their order. -/
  assignments : List (String × String) := []

namespace Options

/-- Gives an option its value. -/
def set (surroundings : Surroundings) (o : Options) (s : Setting) (value : String) :
    Except UsageError Options :=
  let refuse (fault : ValueFault) := UsageError.invalidValue s value fault
  let natural (bits : Nat) : Except UsageError Nat :=
    (Integer.readNat 10 bits value.toList).mapError fun e => refuse (.integer e)
  let capture (c : CaptureConfig) : Options := { o with config.capture := c }
  let old := o.config.capture
  match s with
  | .logFile => if value.isEmpty then .error (.valueMissing s) else .ok { o with logFile := value }
  | .environment =>
    match readVariable surroundings value with
    | .ok v => .ok { o with assignments := o.assignments ++ [v] }
    | .error e => .error (refuse (.environment e))
  | .strategy =>
    match Strategy.ofName value with
    | .ok strategy => .ok { o with config.analyzer.strategy := strategy }
    | .error e => .error (refuse (.strategy e))
  | .initialBalance =>
    match Integer.readInt64 value.toList with
    | .ok n => .ok { o with config.analyzer.initialBalance := n }
    | .error e => .error (refuse (.integer e))
  | .windowCapacity => do .ok { o with config.windowCapacity := ← natural 64 }
  | .dataPages => do .ok (capture { old with dataPages := ← natural 64 })
  | .auxPages => do .ok (capture { old with auxPages := ← natural 64 })
  | .traceCapacity => do .ok (capture { old with traceCapacity := ← natural 64 })
  | .wakeupRatio =>
    match Floating.read value.toList with
    | .ok ratio => .ok (capture { old with wakeupRatio := ratio })
    | .error e => .error (refuse (.floating e))
  | .openAttempts =>
    match Integer.readInt64 value.toList with
    | .ok n =>
      let high : Nat := 0xffffffff
      if 0 ≤ n.toInt ∧ n.toInt ≤ high then
        .ok (capture { old with openAttempts := n.toInt.toNat })
      else .error (refuse (.outOfRange n.toInt high))
    | .error e => .error (refuse (.integer e))
  | .openBackoff => do .ok (capture { old with openBackoff := ← natural 64 })
  | .eventConfig =>
    match Integer.readNat 16 64 (withoutMarks value.toList) with
    | .ok n => .ok (capture { old with eventConfig := n.toUInt64 })
    | .error e => .error (refuse (.integer e))
where
  /-- A text without a mark of two characters that stands in front of it, also
  if it stands there more than once. -/
  withoutMark (a b : Char) : List Char → List Char
    | x :: y :: rest => if x = a ∧ y = b then withoutMark a b rest else x :: y :: rest
    | s => s
  /-- The digits behind the marks of a hexadecimal number; those with a small
  letter come first. -/
  withoutMarks (s : List Char) : List Char := withoutMark '0' 'X' (withoutMark '0' 'x' s)

/-- Turns an option on. -/
def turnOn (o : Options) : Switch → Options
  | .noHostEnvironment => { o with noHostEnvironment := true }
  | .traceSyscalls => { o with config.diagnostics.traceSyscalls := true }
  | .logInstructions => { o with config.diagnostics.logInstructions := true }
  | .step => { o with config.diagnostics.step := true }
  | .traceTimeOnly => { o with config.diagnostics.traceTimeOnly := true }
  | .timeAnalysis => { o with config.diagnostics.timeAnalysis := true }
  | .eventInfo => { o with config.diagnostics.eventInfo := true }

end Options

/-- A whole command line: the options, and the program with its own arguments. -/
structure Arguments extends Options where
  program : String
  programArguments : List String

/-- The variables that the program is started with on top of those it is given
anyway, by name. -/
def Arguments.environment (a : Arguments) : Variables :=
  .ofList ((if a.noHostEnvironment then [plainPath] else []) ++ a.assignments)

end BranchWatch.CommandLine
