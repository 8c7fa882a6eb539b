import BranchWatch.Capture.Error
import BranchWatch.Number.Integer
import BranchWatch.Text.Blank

/-!
# The type of the event

The kernel gives the event a number and writes it into a file.
-/

namespace BranchWatch

namespace EventType

/-- Where the kernel tells the number. -/
def path : String := "/sys/bus/event_source/devices/intel_pt/type"

/-- Reads the number from the contents of the file at a path; `none` stands for
a file that is not there. -/
def read (path : String) (contents : Option ByteArray) : Except ProbeFault UInt32 :=
  match contents with
  | none => .error (.unreadable path "No such file or directory (os error 2)")
  | some bytes =>
    match String.fromUTF8? bytes with
    | none => .error (.unreadable path "stream did not contain valid UTF-8")
    | some text =>
      let trimmed := Blank.trim text.toList
      match Integer.readNat 10 32 trimmed with
      | .ok n => .ok n.toUInt32
      | .error _ => .error (.malformedType (String.ofList trimmed))

end EventType

end BranchWatch
