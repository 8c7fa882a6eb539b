import BranchWatch.Analysis.Verdict
import BranchWatch.CommandLine.Setting
import BranchWatch.Number.Floating
import BranchWatch.Number.Integer
import BranchWatch.Text.Terminal

/-!
# What the command line is refused for

A refusal says which option is at fault.  A request for help or for the version
is answered instead of a run, so it stands among the refusals.
-/

namespace BranchWatch.CommandLine

/-- Why a text does not set an environment variable. -/
inductive VariableFault where
  | emptyName
  /-- Only a name was given, and no variable of that name is set. -/
  | notSet
  deriving DecidableEq, Repr

def VariableFault.message : VariableFault → String
  | emptyName => "Invalid KEY=VALUE: string is empty"
  | notSet => "environment variable not found"

/-- Why a text is not a value of an option. -/
inductive ValueFault where
  | integer (fault : IntegerFault)
  /-- The number is read, but lies outside the range from zero. -/
  | outOfRange (value : Int) (high : Nat)
  | floating (fault : FloatingFault)
  | strategy (unknown : UnknownStrategy)
  | environment (fault : VariableFault)

def ValueFault.message : ValueFault → String
  | integer fault => fault.message
  | outOfRange value high => toString value ++ " is not in 0..=" ++ toString high
  | floating fault => fault.message
  | strategy unknown => unknown.message
  | environment fault => fault.message

/-- Why the command line starts no run. -/
inductive UsageError where
  | help
  | version
  /-- No option is written like this. -/
  | unknown (argument : String)
  /-- A value is attached to an option that takes none. -/
  | unexpectedValue (value option : String)
  | repeated (option : String)
  | valueMissing (s : Setting)
  | invalidValue (s : Setting) (value : String) (fault : ValueFault)
  | programMissing

namespace UsageError

/-- The name of the kind of refusal. -/
def kind : UsageError → String
  | help => "DisplayHelp"
  | version => "DisplayVersion"
  | unknown _ => "UnknownArgument"
  | unexpectedValue .. => "TooManyValues"
  | repeated _ => "ArgumentConflict"
  | valueMissing _ => "InvalidValue"
  | invalidValue .. => "ValueValidation"
  | programMissing => "MissingRequiredArgument"

/-- The first sentence of what is printed; nothing is said here of how the
program is used. -/
def message : UsageError → String
  | help => ""
  | version => "ropwatch 0.1.0"
  | unknown argument => "error: unexpected argument '" ++ argument ++ "' found"
  | unexpectedValue value option =>
    "error: unexpected value '" ++ value ++ "' for '" ++ option
      ++ "' found; no more were expected"
  | repeated option =>
    "error: the argument '" ++ option ++ "' cannot be used multiple times"
  | valueMissing s =>
    "error: a value is required for '" ++ s.display ++ "' but none was supplied"
  | invalidValue s value fault =>
    "error: invalid value '" ++ value ++ "' for '" ++ s.display ++ "': " ++ fault.message
  | programMissing => "error: the following required arguments were not provided:"

/-- The first line of what is printed. -/
def headline (e : UsageError) : String := Terminal.firstLine e.message

end UsageError

end BranchWatch.CommandLine
