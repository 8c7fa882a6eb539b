import BranchWatch.CommandLine.LogFile
import BranchWatch.CommandLine.Parse

/-!
# What is seen of the monitor before it traces

The monitor ends without having started the program if the command line is
refused, if the settings do not fit together, and where the processor records no
trace.
-/

namespace BranchWatch.CommandLine

/-- What is seen of the monitor once it ended. -/
structure Ending where
  code : Nat
  /-- What is written to standard output. -/
  output : String := ""
  /-- The lines written to standard error. -/
  complaint : List String := []
  /-- The file that was opened for the log. -/
  logFile : Option LogFile := none

namespace Ending

/-- How the monitor is called. -/
def usage : String :=
  "Runs a program and kills it when its control flow looks like a ROP chain\n\n"
    ++ "Usage: ropwatch [OPTIONS] <PROGRAM> [ARGS]...\n"

/-- Help and the version were asked for, so that answering is no failure. -/
def ofUsageError : UsageError → Ending
  | .help => { code := 0, output := usage }
  | .version => { code := 0, output := UsageError.version.headline ++ "\n" }
  | e => { code := 2, complaint := [e.headline] }

/-- What is said about the log, and where it goes. -/
def openLog (taken : LogFile → Bool) (stamp : String) :
    Option String → List String × Option LogFile
  | none => ([], none)
  | some path =>
    match LogFile.choose? taken stamp path with
    | none =>
      ([" [ropwatch] WARNING: could not open log file, falling back to stderr"], none)
    | some f => ([" [ropwatch] Logging to file at " ++ Quoted.render f.path], some f)

/-- The monitor on a processor that records no trace.  That is only found out
with valid settings. -/
def ofArguments (taken : LogFile → Bool) (stamp : String) (a : Arguments) : Ending :=
  let (notices, logFile) := openLog taken stamp a.logFile
  let cause := match a.config.validate with
    | .error e => ["Error: Invalid configuration", "", "Caused by:", "    " ++ e.message]
    | .ok () => ["Error: Intel Processor Trace is not available on this machine"]
  { code := 1, complaint := notices ++ cause, logFile }

/-- The monitor called with some arguments. -/
def ofCall (surroundings : Surroundings) (taken : LogFile → Bool) (stamp : String)
    (arguments : List String) : Ending :=
  match Arguments.parse surroundings arguments with
  | .error e => ofUsageError e
  | .ok a => ofArguments taken stamp a

end Ending

end BranchWatch.CommandLine
