/-!
# The options of the command line

An option either takes a value, or is on when it is named.  Every option has a
long name, written behind two dashes; three have a letter as well, written
behind one.
-/

namespace BranchWatch.CommandLine

/-- An option that takes a value. -/
inductive Setting where
  | logFile
  | environment
  | strategy
  | initialBalance
  | windowCapacity
  | dataPages
  | auxPages
  | traceCapacity
  | wakeupRatio
  | openAttempts
  | openBackoff
  | eventConfig
  deriving DecidableEq, Repr

namespace Setting

def all : List Setting :=
  [logFile, environment, strategy, initialBalance, windowCapacity, dataPages, auxPages,
    traceCapacity, wakeupRatio, openAttempts, openBackoff, eventConfig]

def name : Setting → String
  | logFile => "log-file"
  | environment => "env"
  | strategy => "strategy"
  | initialBalance => "initial-balance"
  | windowCapacity => "window-capacity"
  | dataPages => "data-pages"
  | auxPages => "aux-pages"
  | traceCapacity => "trace-capacity"
  | wakeupRatio => "aux-wakeup-ratio"
  | openAttempts => "open-attempts"
  | openBackoff => "open-backoff"
  | eventConfig => "pt-config"

/-- What stands for the value where the option is shown. -/
def placeholder : Setting → String
  | logFile => "PATH"
  | environment => "ENV[=VALUE]"
  | strategy => "STRATEGY"
  | initialBalance | windowCapacity | openAttempts => "N"
  | dataPages | auxPages => "PAGES"
  | traceCapacity => "BYTES"
  | wakeupRatio => "RATIO"
  | openBackoff => "MS"
  | eventConfig => "HEX"

/-- The option as it is shown to the user. -/
def display (s : Setting) : String :=
  "--" ++ s.name ++ " <" ++ s.placeholder ++ ">"

/-- Whether the option may be given more than once. -/
def repeatable (s : Setting) : Bool := s = environment

/-- Whether a negative number behind the option is its value, although it looks
like an option. -/
def negativeAllowed (s : Setting) : Bool := s = initialBalance

end Setting

/-- An option that is on when it is named. -/
inductive Switch where
  | noHostEnvironment
  | traceSyscalls
  | logInstructions
  | step
  | traceTimeOnly
  | timeAnalysis
  | eventInfo
  deriving DecidableEq, Repr

namespace Switch

def all : List Switch :=
  [noHostEnvironment, traceSyscalls, logInstructions, step, traceTimeOnly, timeAnalysis, eventInfo]

def name : Switch → String
  | noHostEnvironment => "no-host-envs"
  | traceSyscalls => "trace-syscalls"
  | logInstructions => "log-instructions"
  | step => "step"
  | traceTimeOnly => "trace-time-only"
  | timeAnalysis => "time-analysis"
  | eventInfo => "pt-info"

end Switch

/-- What an option can ask for. -/
inductive Choice where
  | setting (s : Setting)
  | switch (s : Switch)
  /-- Say how the program is used, and nothing else. -/
  | help
  /-- Say which version it is, and nothing else. -/
  | version
  deriving DecidableEq, Repr

namespace Choice

def all : List Choice :=
  Setting.all.map setting ++ Switch.all.map switch ++ [help, version]

def name : Choice → String
  | setting s => s.name
  | switch s => s.name
  | help => "help"
  | version => "version"

/-- The option of a given long name; no part of the name may be left out. -/
def ofName? (s : List Char) : Option Choice :=
  all.find? (·.name.toList = s)

/-- The option of a given letter. -/
def ofLetter? : Char → Option Choice
  | 'e' => some (setting .environment)
  | 'h' => some help
  | 'V' => some version
  | _ => none

theorem ofName?_name (c : Choice) : ofName? c.name.toList = some c := by
  cases c with
  | setting s => cases s <;> decide
  | switch s => cases s <;> decide
  | help => decide
  | version => decide

end Choice

end BranchWatch.CommandLine
