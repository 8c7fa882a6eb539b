import BranchWatch.CommandLine.Arguments

/-!
# Reading the command line

The arguments are read from left to right.  An option that takes a value gets
it either behind `=` or as the argument that follows.  A value that follows is
not looked at before the argument behind it is known to be in order, so that of
two faults that of the later argument may be the one reported.

The first argument that is neither an option nor a value is the program, and
the second is the first argument of the program.  From there on, and behind
`--`, nothing is an option any more.  Between the program and its first
argument only what is not an option of the monitor belongs to the program.
-/

namespace BranchWatch.CommandLine

/-- What was read so far. -/
structure Reading where
  options : Options := {}
  /-- The options that were given. -/
  given : List Choice := []
  program : Option String := none
  /-- The arguments of the program, last first. -/
  programArguments : List String := []
  /-- The option read last, with its value once that was read too. -/
  waiting : Option (Setting × Option String) := none
  /-- Nothing is an option any more. -/
  trailing : Bool := false

namespace Reading

/-- Notes that an option is given.  Most may be given only once. -/
def note (r : Reading) (c : Choice) (display : String) : Except UsageError Reading :=
  if c ∈ r.given then .error (.repeated display) else .ok { r with given := c :: r.given }

/-- Gives an option its value. -/
def assign (surroundings : Surroundings) (r : Reading) (s : Setting) (value : String) :
    Except UsageError Reading := do
  let r ← if s.repeatable then .ok r else r.note (.setting s) s.display
  .ok { r with options := ← r.options.set surroundings s value }

/-- Settles the option read last. -/
def settle (surroundings : Surroundings) (r : Reading) : Except UsageError Reading :=
  let settled := { r with waiting := none }
  match r.waiting with
  | none => .ok settled
  | some (s, none) => .error (.valueMissing s)
  | some (s, some value) => settled.assign surroundings s value

/-- Whether the last option still lacks its value. -/
def lacksValue (r : Reading) : Option Setting :=
  match r.waiting with
  | some (s, none) => some s
  | _ => none

/-- Reads a value or an argument that is no option. -/
def plain (surroundings : Surroundings) (r : Reading) (argument : String) :
    Except UsageError Reading :=
  match if r.trailing then none else r.lacksValue with
  | some s => .ok { r with waiting := some (s, some argument) }
  | none => do
    let r ← r.settle surroundings
    match r.program with
    | none => .ok { r with program := argument }
    | some _ =>
      .ok { r with programArguments := argument :: r.programArguments, trailing := true }

/-- Reads an option that was found, with the value attached to it. -/
def choose (surroundings : Surroundings) (r : Reading) (c : Choice) (value : Option String) :
    Except UsageError Reading :=
  match c with
  | .setting s => do
    let r ← r.settle surroundings
    match value with
    | some value => r.assign surroundings s value
    | none => .ok { r with waiting := some (s, none) }
  | .switch s => do
    let r ← r.settle surroundings
    let r ← r.note c ("--" ++ c.name)
    .ok { r with options := r.options.turnOn s }
  | .help => do
    let _ ← r.settle surroundings
    .error .help
  | .version => do
    let _ ← r.settle surroundings
    .error .version

/-- Reads an argument that starts with two dashes, without them. -/
def long (surroundings : Surroundings) (r : Reading) (argument : String) (body : List Char) :
    Except UsageError Reading :=
  let name := body.takeWhile (· ≠ '=')
  let value := (body.dropWhile (· ≠ '=')).tail?.map String.ofList
  match Choice.ofName? name, value with
  | some (.setting s), value => r.choose surroundings (.setting s) value
  | some c, none => r.choose surroundings c none
  | some c, some value => .error (.unexpectedValue value ("--" ++ c.name))
  | none, _ =>
    if r.program.isSome then r.plain surroundings argument
    else .error (.unknown ("--" ++ String.ofList name))

/-- Whether a text is a number without a sign: digits with at most one point,
not in front, and at most one `e`, neither in front nor at the end nor before
the point. -/
def isNumber (s : List Char) : Bool :=
  let (whole, rest) := s.span (· ≠ 'e')
  let mantissa := whole.all (fun c => c.isDigit || c = '.') && whole.count '.' ≤ 1
    && whole.head? ≠ some '.'
  let exponent := rest.tail
  mantissa && exponent.all Char.isDigit && (rest.isEmpty || !whole.isEmpty && !exponent.isEmpty)

/-- Reads an argument that starts with one dash, without it. -/
def short (surroundings : Surroundings) (r : Reading) (argument : String) (letters : List Char) :
    Except UsageError Reading :=
  let negative := r.lacksValue.any Setting.negativeAllowed && isNumber letters
  let foreign := r.program.isSome && letters.any (Choice.ofLetter? · |>.isNone)
  if negative || foreign then r.plain surroundings argument
  else
    match letters with
    | [] => r.plain surroundings argument
    | letter :: rest =>
      match Choice.ofLetter? letter with
      | none => .error (.unknown (String.ofList ['-', letter]))
      | some c =>
        r.choose surroundings c <|
          match rest with
          | [] => none
          | '=' :: value => some (String.ofList value)
          | value => some (String.ofList value)

/-- Reads one argument. -/
def argument (surroundings : Surroundings) (r : Reading) (argument : String) :
    Except UsageError Reading :=
  if r.trailing then r.plain surroundings argument
  else
    match argument.toList with
    | ['-', '-'] => .ok { r with trailing := true }
    | '-' :: '-' :: body => r.long surroundings argument body
    | '-' :: letters => r.short surroundings argument letters
    | _ => r.plain surroundings argument

/-- The variable that names the log file if no option does. -/
def logFileVariable : String := "RUST_LOG_FILE"

/-- Ends the reading behind the last argument. -/
def finish (surroundings : Surroundings) (r : Reading) : Except UsageError Arguments := do
  let r ← r.settle surroundings
  let r ← match surroundings logFileVariable with
    | some value =>
      if .setting .logFile ∈ r.given then .ok r else r.assign surroundings .logFile value
    | none => .ok r
  match r.program with
  | none => .error .programMissing
  | some program =>
    .ok { r.options with program, programArguments := r.programArguments.reverse }

end Reading

/-- Reads the arguments behind the name of the monitor. -/
def Arguments.parse (surroundings : Surroundings) (arguments : List String) :
    Except UsageError Arguments := do
  (← arguments.foldlM (Reading.argument surroundings) {}).finish surroundings

end BranchWatch.CommandLine
