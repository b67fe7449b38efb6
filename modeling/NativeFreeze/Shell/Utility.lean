import NativeFreeze.Shell.Test
import NativeFreeze.Shell.Utility.Files
import NativeFreeze.Shell.Utility.Streams

/-!
# Programs of the system

The programs that a script can start by a path of the system, other than the shell itself.
-/

namespace NativeFreeze.Shell.Utility

/-- The milliseconds that a text names: seconds with a fraction and a unit. -/
def duration? (s : Text) : Option Nat :=
  let body := s.takeWhile fun c => c.isDigit || c == '.'
  let unit := match s.drop body.length with
    | [] => some 1
    | ['s'] => some 1
    | ['m'] => some 60
    | ['h'] => some 3600
    | _ => none
  let (whole, fraction) := (Text.cutAt? '.' body).getD (body, [])
  let fraction := (fraction ++ ['0', '0', '0']).take 3
  match unit, Text.toNat? ('0' :: whole), Text.toNat? fraction with
  | some unit, some whole, some fraction =>
    if body.isEmpty then none else some ((1000 * whole + fraction) * unit)
  | _, _, _ => none

/-- Lets time pass. -/
def sleep (arguments : List Text) : Run Unit :=
  match arguments.mapM duration? with
  | some (d :: ds) => do
    Run.status 0
    Run.wait (ds.foldl Nat.add d)
  | _ => Run.status 1

/-- Tests a condition. -/
def test (arguments : List Text) : Run Unit := do
  Run.status (Test.status (← get).files arguments)

/-- The utility that a path with a known name starts. -/
def named? (path name : Text) : Option Behaviour :=
  match String.ofList name with
  | "basename" => some basename
  | "cat" => some (cat path)
  | "cp" => some (copy false path)
  | "dirname" => some (dirname path)
  | "echo" => some echo
  | "false" => some fun _ => Run.status 1
  | "head" => some (head path)
  | "ln" => some (ln path)
  | "ls" => some (ls path)
  | "mkdir" => some (mkdir path)
  | "mv" => some (copy true path)
  | "printf" => some printf
  | "pwd" => some fun _ => pwd
  | "rm" => some (rm path)
  | "sleep" => some sleep
  | "tail" => some (tail path)
  | "tee" => some (tee path)
  | "test" => some test
  | "touch" => some (touch path)
  | "true" => some fun _ => Run.status 0
  | "wc" => some (wc path)
  | _ => none

end NativeFreeze.Shell.Utility
