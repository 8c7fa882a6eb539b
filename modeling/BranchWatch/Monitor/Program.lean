import BranchWatch.LittleEndian
import BranchWatch.Monitor.Run
import BranchWatch.Tracee.Script
import BranchWatch.Walk.Cursor

/-!
# The monitor as a whole

A program is started as a traced process, the event is opened for it, and the run
goes on to its end.  Whatever happens, the event is given back.

`StaticProgram` is a small program whose whole course is known: it asks for its
number some times and ends with a code.
-/

namespace BranchWatch

/-- A program that makes some calls and ends with a code. -/
structure StaticProgram where
  calls : Nat
  code : Int
  deriving DecidableEq, Repr

namespace StaticProgram

/-- Where the file is mapped. -/
def base : Nat := 0x400000

/-- The size of the headers, and the place of the code behind them. -/
def headerSize : Nat := 0x78

/-- The instructions: loads of a number and of an argument, each before a system
call. -/
def instructions (p : StaticProgram) : List UInt8 :=
  (List.replicate p.calls [0xb8, 0x27, 0, 0, 0, 0x0f, 0x05]).flatten
    ++ [0xbf] ++ LittleEndian.bytes 4 (p.code % 0x100000000).toNat
    ++ [0xb8, 0xe7, 0, 0, 0, 0x0f, 0x05]

/-- The headers of an executable whose one segment is the whole file. -/
def headers (size : Nat) : List UInt8 :=
  let half := LittleEndian.bytes 2
  let word := LittleEndian.bytes 4
  let long := LittleEndian.bytes 8
  [0x7f, 0x45, 0x4c, 0x46, 2, 1, 1, 0] ++ long 0
    -- An executable for this machine, its entry, and where its headers are.
    ++ half 2 ++ half 0x3e ++ word 1 ++ long (base + headerSize) ++ long 0x40 ++ long 0
    ++ word 0 ++ half 0x40 ++ half 0x38 ++ half 1 ++ half 0 ++ half 0 ++ half 0
    -- The segment: loaded, readable and executable, from the start of the file.
    ++ word 1 ++ word 5 ++ long 0 ++ long base ++ long base ++ long size ++ long size
    ++ long 0x1000

/-- The file: the headers and the code. -/
def file (p : StaticProgram) : List UInt8 :=
  headers (headerSize + p.instructions.length) ++ p.instructions

/-- The image of the running program. -/
def image (p : StaticProgram) : Image :=
  let contents := p.file.toArray
  Image.empty.addMapped base.toUInt64 contents 0 contents.size

/-- What the program does. -/
def actions (p : StaticProgram) : List TraceeAction :=
  List.replicate p.calls (.syscall .getpid) ++ [.exit p.code]

/-- The program as a traced process. -/
def tracee (p : StaticProgram) (pid : Int) (stepping : Bool) : Tracee :=
  .ofScript pid stepping none p.actions

end StaticProgram

/-- What the attempt to start a program comes to. -/
inductive Launch where
  /-- The program cannot be started; the cause in the words of the system. -/
  | failed (program cause : String)
  | started (tracee : Tracee) (source : Nat → Except ImageError Image)

namespace Launch

/-- A file that is not there. -/
def missing (program : String) : Launch :=
  failed program "No such file or directory (os error 2)"

end Launch

/-- Runs a program under the monitor with the given event.  The answer is the
report and the event as it is left. -/
def monitorLaunch (config : MonitorConfig) (event : PerfEvent) (launch : Launch) :
    Except MonitorError Report × PerfEvent :=
  match config.validate, launch with
  | .error e, _ => (.error e, event)
  | .ok (), .failed program cause => (.error (.spawn program cause), event)
  | .ok (), .started tracee source =>
    match Collector.openFor event tracee.pid config.capture with
    | (.error e, collector) => (.error (.collector e), collector.event)
    | (.ok (), collector) =>
      let info := if config.diagnostics.eventInfo then some collector.info else none
      let decoder : Decoder := { source }
      let (answer, session) := Session.run config collector decoder tracee
      (answer.map fun report => { report with eventInfo := info },
        session.capture.close.2.event)

end BranchWatch
