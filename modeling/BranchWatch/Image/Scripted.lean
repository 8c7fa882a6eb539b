import BranchWatch.Image.Process

/-!
# Processes with given mappings

A `ScriptedProcess` has the mappings of a list.  Its files can be deleted, and it
can end; `ScriptedProcess.view` is what can be learnt about it then.
-/

namespace BranchWatch

/-- A mapping and what its memory holds at its start; behind that it holds
zeros. -/
structure ScriptedMapping extends Mapping where
  memory : Array UInt8 := #[]

structure ScriptedProcess where
  pid : Int
  /-- The files that are there, by name. -/
  files : List (String × Array UInt8) := []
  mappings : List ScriptedMapping := []
  alive : Bool := true

namespace ScriptedProcess

/-- The name under which a mapping shows a file that is not there any more. -/
def deletedName (name : String) : String := name ++ " (deleted)"

/-- Deletes a file.  Its mappings stay. -/
def unlink (p : ScriptedProcess) (name : String) : ScriptedProcess :=
  let renamed (m : ScriptedMapping) : ScriptedMapping :=
    if m.backing = .file name then { m with backing := .file (deletedName name) } else m
  { p with
    files := p.files.filter (·.1 ≠ name)
    mappings := p.mappings.map renamed }

/-- Ends the process. -/
def exit (p : ScriptedProcess) : ScriptedProcess := { p with alive := false }

/-- The bytes of a mapping. -/
def contents (m : ScriptedMapping) : Array UInt8 :=
  (m.memory ++ Array.replicate (m.length - m.memory.size) 0).take m.length

/-- What can be learnt about the process. -/
def view (p : ScriptedProcess) : ProcessView where
  mappings :=
    if p.alive then .ok (p.mappings.map (·.toMapping))
    else .error (.notFound ("/proc/" ++ toString p.pid))
  openMemory := .ok ()
  readMemory start length :=
    match p.mappings.find? (·.start = start) with
    | some m => .ok ((contents m).take length)
    | none => .error "Input/output error (os error 5)"
  openFile path :=
    match p.files.lookup path with
    | some bytes => .ok bytes
    | none => .error "No such file or directory (os error 2)"

end ScriptedProcess

end BranchWatch
