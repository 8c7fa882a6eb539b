import BranchWatch.CommandLine.Error

/-!
# Environment variables of the traced program

A variable is given as a name and a value with `=` between them, or as a name
alone, which stands for the value that the monitor itself was started with.
-/

namespace BranchWatch.CommandLine

/-- The value of a variable in the environment of the monitor. -/
abbrev Surroundings := String → Option String

/-- Reads one variable.  The name ends at the first `=`. -/
def readVariable (surroundings : Surroundings) (s : String) :
    Except VariableFault (String × String) :=
  let chars := s.toList
  let name := String.ofList (chars.takeWhile (· ≠ '='))
  if name.isEmpty then .error .emptyName
  else
    match chars.dropWhile (· ≠ '=') with
    | _ :: value => .ok (name, String.ofList value)
    | [] =>
      match surroundings name with
      | some value => .ok (name, value)
      | none => .error .notSet

/-- Every name of a variable whose value the arguments may ask for: an argument
of its own, or what stands behind the option in one argument. -/
def namesAskedFor (arguments : List String) : List String :=
  arguments.flatMap fun argument =>
    argument :: ["--env=", "-e=", "-e"].filterMap fun option =>
      if argument.startsWith option then some (argument.drop option.length).toString else none

/-- Variables in the order of their names, each name once. -/
abbrev Variables := List (String × String)

namespace Variables

/-- Sets a variable; an earlier value is forgotten. -/
def insert (name value : String) : Variables → Variables
  | [] => [(name, value)]
  | (n, v) :: rest =>
    if name < n then (name, value) :: (n, v) :: rest
    else if name = n then (name, value) :: rest
    else (n, v) :: insert name value rest

/-- Sets variables one after the other. -/
def ofList (given : List (String × String)) : Variables :=
  given.foldl (fun vs (name, value) => vs.insert name value) []

end Variables

/-- Where programs are looked for if the environment of the monitor is kept
from the traced program. -/
def plainPath : String × String := ("PATH", "/bin/:/usr/bin")

end BranchWatch.CommandLine
