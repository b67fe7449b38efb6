import NativeFreeze.Shell.Utility.Basic

/-!
# Utilities for streams

Programs that write what they are given or what they read: the input or some files.
-/

namespace NativeFreeze.Shell.Utility

/-- Goes on with the input, which is used up. -/
def withInput (next : Bytes → Run Unit) : Run Unit := do
  let m ← get
  set { m with input := [] }
  next m.input

/-- Writes what `make` makes of the input, or of each of some files and its name. -/
def filtering (program : Text) (make : (name : Option Text) → Bytes → Bytes) : Behaviour
  | [] => do
    withInput fun bytes => Run.write (make none bytes)
    Run.status 0
  | files => onEach program (fun a => do
      if a = ['-'] then
        withInput fun bytes => Run.write (make none bytes)
        return .ok ()
      match (← get).files.read ⟨a⟩ with
      | .ok bytes =>
        Run.write (make (some a) bytes)
        return .ok ()
      | .error e => return .error e) files

/-- Writes the input or some files. -/
def cat (program : Text) : Behaviour :=
  filtering program fun _ bytes => bytes

/-- The lines of some bytes, each with its line break if it has one. -/
def linesOf : Bytes → List Bytes
  | [] => []
  | b :: r =>
    if b = 10 then [b] :: linesOf r
    else
      match linesOf r with
      | l :: rest => (b :: l) :: rest
      | [] => [[b]]

/-- The count that the options of `head` and `tail` give, and the files behind them. -/
def counted : List Text → Nat × List Text
  | ['-', 'n'] :: n :: files => ((Text.toNat? n).getD 10, files)
  | ('-' :: 'n' :: n) :: files => ((Text.toNat? n).getD 10, files)
  | ('-' :: c :: n) :: files => ((Text.toNat? (c :: n)).getD 10, files)
  | files => (10, files)

/-- Writes the first lines. -/
def head (program : Text) (arguments : List Text) : Run Unit :=
  let (n, files) := counted arguments
  filtering program (fun _ bytes => ((linesOf bytes).take n).flatten) files

/-- Writes the last lines. -/
def tail (program : Text) (arguments : List Text) : Run Unit :=
  let (n, files) := counted arguments
  filtering program (fun _ bytes =>
    let lines := linesOf bytes
    (lines.drop (lines.length - n)).flatten) files

/-- Counts lines or bytes. -/
def wc (program : Text) (arguments : List Text) : Run Unit :=
  let (options, files) := options arguments
  filtering program (fun name bytes =>
    let count := if given 'l' options then bytes.count 10 else bytes.length
    line (Text.ofNat count ++ (name.map (' ' :: ·)).getD [])) files

/-- Writes the input to the output and to some files. -/
def tee (program : Text) (arguments : List Text) : Run Unit :=
  let (options, files) := options arguments
  withInput fun bytes => do
    Run.write bytes
    onEach program (fun a => change fun t =>
      if given 'a' options then t.append ⟨a⟩ bytes else t.write ⟨a⟩ (.plain bytes)) files

/-- Writes its arguments. -/
def echo (arguments : List Text) : Run Unit := do
  Run.write (echoed arguments)
  Run.status 0

/-- Writes formatted arguments. -/
def printf : Behaviour
  | [] => Run.status 2
  | format :: rest => do
    let (format, rest) :=
      if format = "--".toList then (rest.headD [], rest.drop 1) else (format, rest)
    let (bytes, fine) := formatted format rest
    Run.write bytes
    Run.truth fine

end NativeFreeze.Shell.Utility
