/-!
# Signals

The standard signals of Linux on x86 processors, with their numbers and names.
-/

namespace BranchWatch

inductive Signal where
  | hup | int | quit | ill | trap | abrt | bus | fpe | kill | usr1 | segv | usr2 | pipe
  | alrm | term | stkflt | chld | cont | stop | tstp | ttin | ttou | urg | xcpu | xfsz
  | vtalrm | prof | winch | io | pwr | sys
  deriving DecidableEq, Repr

namespace Signal

/-- All signals, in the order of their numbers, which begin with 1. -/
def all : List Signal :=
  [hup, int, quit, ill, trap, abrt, bus, fpe, kill, usr1, segv, usr2, pipe, alrm, term,
    stkflt, chld, cont, stop, tstp, ttin, ttou, urg, xcpu, xfsz, vtalrm, prof, winch, io,
    pwr, sys]

def number (s : Signal) : Nat := all.idxOf s + 1

/-- The signal of a given number. -/
def ofNumber? : Nat → Option Signal
  | 0 => none
  | n + 1 => all[n]?

theorem ofNumber?_number (s : Signal) : ofNumber? s.number = some s := by
  cases s <;> rfl

def name : Signal → String
  | hup => "SIGHUP"
  | int => "SIGINT"
  | quit => "SIGQUIT"
  | ill => "SIGILL"
  | trap => "SIGTRAP"
  | abrt => "SIGABRT"
  | bus => "SIGBUS"
  | fpe => "SIGFPE"
  | kill => "SIGKILL"
  | usr1 => "SIGUSR1"
  | segv => "SIGSEGV"
  | usr2 => "SIGUSR2"
  | pipe => "SIGPIPE"
  | alrm => "SIGALRM"
  | term => "SIGTERM"
  | stkflt => "SIGSTKFLT"
  | chld => "SIGCHLD"
  | cont => "SIGCONT"
  | stop => "SIGSTOP"
  | tstp => "SIGTSTP"
  | ttin => "SIGTTIN"
  | ttou => "SIGTTOU"
  | urg => "SIGURG"
  | xcpu => "SIGXCPU"
  | xfsz => "SIGXFSZ"
  | vtalrm => "SIGVTALRM"
  | prof => "SIGPROF"
  | winch => "SIGWINCH"
  | io => "SIGIO"
  | pwr => "SIGPWR"
  | sys => "SIGSYS"

end Signal

end BranchWatch
