import NativeFreeze.FileTree.Basic

/-!
# Processes

How a program is started and how it ends. A launcher runs a command on a file tree; it may fail to
start it. Under a deadline the run is cut off when the time is over, and what it wrote until then
stays.
-/

namespace NativeFreeze

/-- A program and its arguments. -/
structure Command where
  program : Text
  arguments : List Text
  deriving DecidableEq, Repr

/-- How a process ended. -/
inductive Exit
  | code (n : Nat)
  | signal (n : Nat)
  deriving DecidableEq, Repr

namespace Exit

/-- Whether a process ended well. -/
def isSuccess (e : Exit) : Bool :=
  e == code 0

/-- The name of a signal. -/
def signalName? : Nat → Option String
  | 1 => "SIGHUP" | 2 => "SIGINT" | 3 => "SIGQUIT" | 4 => "SIGILL" | 5 => "SIGTRAP"
  | 6 => "SIGABRT" | 7 => "SIGBUS" | 8 => "SIGFPE" | 9 => "SIGKILL" | 10 => "SIGUSR1"
  | 11 => "SIGSEGV" | 12 => "SIGUSR2" | 13 => "SIGPIPE" | 14 => "SIGALRM" | 15 => "SIGTERM"
  | 16 => "SIGSTKFLT" | 17 => "SIGCHLD" | 18 => "SIGCONT" | 19 => "SIGSTOP" | 20 => "SIGTSTP"
  | 21 => "SIGTTIN" | 22 => "SIGTTOU" | 23 => "SIGURG" | 24 => "SIGXCPU" | 25 => "SIGXFSZ"
  | 26 => "SIGVTALRM" | 27 => "SIGPROF" | 28 => "SIGWINCH" | 29 => "SIGIO" | 30 => "SIGPWR"
  | 31 => "SIGSYS"
  | _ => none

/-- The wording of an end. -/
def message : Exit → Text
  | code n => "exit status: ".toList ++ Text.ofNat n
  | signal n =>
    "signal: ".toList ++ Text.ofNat n ++
      match signalName? n with
      | some name => " (".toList ++ name.toList ++ [')']
      | none => []

end Exit

/-- What a finished process leaves: its end and what it wrote to its two streams. -/
structure Finished where
  exit : Exit
  output : Bytes
  errors : Bytes
  deriving DecidableEq, Repr

/-- Runs a command, within so many milliseconds if a limit is given. -/
abbrev Launcher :=
  Command → (limit : Option Nat) → FileTree → Except FileError Finished × FileTree

/-- What a run has around it: a launcher and the environment variables. -/
structure Surroundings where
  launch : Launcher
  valueOf? : Text → Option Text

end NativeFreeze
