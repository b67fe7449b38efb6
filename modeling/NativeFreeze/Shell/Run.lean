import NativeFreeze.Process
import NativeFreeze.Shell.Expansion
import NativeFreeze.Shell.Program
import NativeFreeze.Shell.Utility

/-!
# Running scripts

The meaning of terms. Each step takes the meaning of what is inside it from an evaluator;
`evaluator` ties the knot with a bound on the depth. A run that reaches the bound is cut off.
-/

namespace NativeFreeze.Shell

/-- The commands whose failing redirection ends a script. -/
def specialCommands : List Text :=
  [":", ".", "break", "continue", "eval", "exec", "exit", "export", "readonly", "return", "set",
    "shift", "trap", "unset"].map String.toList

/-- The number of a signal that `kill` is given. -/
def signal? (s : Text) : Option Nat :=
  match Text.toNat? s with
  | some n => some n
  | none =>
    let name := (Text.after? "SIG".toList s).getD s
    (List.range 32).find? fun n =>
      (Exit.signalName? n).map String.toList = some ("SIG".toList ++ name)

/-- The signals that a process ignores unless it asks for them. -/
def ignoredSignals : List Nat :=
  [0, 17, 18, 23, 28]

/-- Sends a signal to processes. A script knows no process but itself. -/
def kill (arguments : List Text) : Run Unit := do
  let (number?, targets) := match arguments with
    | ['-', 's'] :: name :: rest => (signal? name, rest)
    | ('-' :: name) :: rest => (signal? name, rest)
    | rest => (some 15, rest)
  match number? with
  | some n =>
    if targets.contains Machine.processNumber && !ignoredSignals.contains n then throw (.killed n)
    else Run.truth (targets.contains Machine.processNumber)
  | none => Run.status 2

/-- The first line of some bytes and what follows it. -/
def cutLine (bytes : Bytes) : Bytes × Bytes :=
  (bytes.takeWhile (· != 10), (bytes.dropWhile (· != 10)).drop 1)

/-- Sets variables to the words of a line; the last takes the rest. -/
def assignWords : List Text → Text → Machine → Machine
  | [], _, m => m
  | [name], line, m => m.assign name (Text.trim isSeparator line)
  | name :: rest, line, m =>
    let line := line.dropWhile isSeparator
    let word := line.takeWhile fun c => !isSeparator c
    assignWords rest (line.drop word.length) (m.assign name word)

/-- Reads a line of the input into variables. -/
def readLine (arguments : List Text) : Run Unit := do
  let m ← get
  let (line, rest) := cutLine m.input
  let names := arguments.filter (· != "-r".toList)
  set (assignWords names (Utf8.decodeLossy line) { m with input := rest })
  Run.truth (m.input.contains 10)

/-- The machine with the variables that arguments assign. -/
def assignedAs (m : Machine) (arguments : List Text) : Machine :=
  arguments.foldl (fun m a =>
    match Text.cutAt? '=' a with
    | some (name, value) => m.assign name value
    | none => m) m

/-- Assigns what `export` is given and hands it on. -/
def exportAll (arguments : List Text) : Run Unit := do
  modify fun m =>
    (assignedAs m arguments).handOn (arguments.map fun a => a.takeWhile (· != '='))
  Run.status 0

/-- The machine with the options and arguments that `set` is given. -/
def settled : List Text → Machine → Machine
  | [], m => m
  | ['-', '-'] :: arguments, m => { m with arguments }
  | ('-' :: letters) :: rest, m => settled rest (m.setOptions true letters)
  | ('+' :: letters) :: rest, m => settled rest (m.setOptions false letters)
  | arguments, m => { m with arguments }

/-- Keeps what is to be run at the end of a script. -/
def trap : List Text → Run Unit
  | action :: events => do
    if events.contains "EXIT".toList || events.contains ['0'] then
      modify fun m => { m with farewell := if action = ['-'] then none else some action }
    Run.status 0
  | [] => Run.status 0

/-- Moves to a directory. -/
def moveTo (arguments : List Text) : Run Unit := do
  let m ← get
  let target := arguments.headD ((m.valueOf? "HOME".toList).getD [])
  match m.files.at? ⟨target⟩ with
  | .ok (l, .directory) =>
    set (m.enter l)
    Run.status 0
  | _ =>
    Run.complain ("cd: can't cd to ".toList ++ target)
    Run.status 2

/-- Runs a script inside the present one. -/
def runText (ev : Evaluator) (script : Text) : Run Unit := do
  match read? script with
  | some terms => ev.run terms
  | none => Run.leave 2

/-- The machine at the start of a script that runs on its own: of the variables it has those that
are handed on, and where it is. -/
def Machine.started (letters name : Text) (arguments : List Text) (m : Machine) : Machine :=
  let fresh : Machine :=
    { m with
      name, arguments, functions := [], status := 0, strict := false, demanding := false
      tested := false, farewell := none
      bindings := m.bindings.filter fun (name, _) => m.exported.contains name }
  (fresh.enter m.files.workingDirectory).handOn ["PWD".toList] |>.setOptions true letters

/-- Runs a script as a process of its own, with the options of some letters. -/
def runScript (ev : Evaluator) (letters name script : Text) (arguments : List Text) :
    Run Unit := do
  let m ← get
  set (m.started letters name arguments)
  let whole := do
    Run.contained (runText ev script)
    let inner ← get
    match inner.farewell with
    | some last =>
      set { inner with farewell := none, strict := false }
      Run.contained (runText ev last)
      Run.status inner.status
    | none => pure ()
  whole.afterwards m.backFrom

/-- The shell as a program. -/
def shell (ev : Evaluator) (arguments : List Text) : Run Unit := do
  let (options, rest) := arguments.span fun a => a.head? = some '-' && a.length > 1
  let letters := options.flatten
  match letters.contains 'c', rest with
  | true, script :: rest =>
    runScript ev letters (rest.headD "sh".toList) script (rest.drop 1)
  | true, [] => Run.status 2
  | false, a :: rest =>
    match (← get).files.read ⟨a⟩ with
    | .ok bytes => runScript ev letters a (Utf8.decodeLossy bytes) rest
    | .error _ => Run.status 2
  | false, [] =>
    let input := (← get).input
    modify fun m => { m with input := [] }
    runScript ev letters "sh".toList (Utf8.decodeLossy input) []

/-- The directories in which programs are searched. -/
def searchPath : Run Text := do
  return ((← get).valueOf? "PATH".toList).getD "/usr/bin:/bin".toList

/-- Runs a program as a process of its own. -/
def runProgram (ev : Evaluator) (called : Text) (p : Program) (arguments : List Text) :
    Run Unit := do
  let arguments := p.front ++ arguments
  match Utility.named? called p.name with
  | some run => run arguments
  | none =>
    if p.name = "env".toList then
      let directories ← searchPath
      match Program.find (← get).files directories (arguments.headD []) with
      | .ok ⟨name, front⟩ =>
        match Utility.named? name name with
        | some run => run (front ++ arguments.drop 1)
        | none => shell ev (front ++ arguments.drop 1)
      | .error _ => Run.status 127
    else shell ev arguments

/-- Runs what a command names, when it is no part of the shell. -/
def runCommand (ev : Evaluator) (name : Text) (arguments : List Text) : Run Unit := do
  let m ← get
  let run := fun (program : Program) =>
    (runProgram ev name program arguments).onStop fun
      | .killed signal => Run.status (128 + signal)
      | stop => throw stop
  match Program.find m.files (← searchPath) name with
  | .ok program => run program
  | .error .notProgram => run ⟨"sh".toList, [name]⟩
  | .error .notFound => do
    Run.complain (m.name ++ ": ".toList ++ name ++ ": not found".toList)
    Run.status 127
  | .error _ => do
    Run.complain (m.name ++ ": ".toList ++ name ++ ": Permission denied".toList)
    Run.status 126

/-- Goes on with the number that a command of the shell is given. A script that gives anything else
ends there. -/
def withNumber {α : Type} (arguments : List Text) (other : Nat) (next : Nat → Run α) : Run α :=
  match arguments with
  | [] => next other
  | a :: _ =>
    match Text.toNat? a with
    | some n => next n
    | none => do
      Run.complain ("Illegal number: ".toList ++ a)
      Run.leave 2

/-- Runs a command with its arguments. -/
def invoke (ev : Evaluator) (name : Text) (arguments : List Text) : Run Unit := do
  let m ← get
  match m.functions.lookup name with
  | some body =>
    set { m with arguments }
    let call := (ev.run [body]).onStop fun
      | .returns => pure ()
      | stop => throw stop
    call.afterwards fun inner => { inner with arguments := m.arguments }
  | none =>
  match String.ofList name with
  | ":" => Run.status 0
  | "exit" => withNumber arguments m.status fun n => Run.leave (n % 256)
  | "return" => withNumber arguments m.status fun n => do
    Run.status (n % 256)
    throw .returns
  | "break" => withNumber arguments 1 fun n => throw (.breaks (n - 1))
  | "continue" => withNumber arguments 1 fun n => throw (.continues (n - 1))
  | "shift" => withNumber arguments 1 fun n => do
    if m.arguments.length < n then Run.leave 2
    set { m with arguments := m.arguments.drop n }
    Run.status 0
  | "set" => do
    modify (settled arguments)
    Run.status 0
  | "cd" => moveTo arguments
  | "unset" => do
    modify fun m => arguments.foldl (fun m name => m.unset name) m
    Run.status 0
  | "export" => exportAll arguments
  | "readonly" => do
    set (assignedAs m arguments)
    Run.status 0
  | "local" => do
    set (assignedAs m arguments)
    Run.status 0
  | "trap" => trap arguments
  | "wait" => Run.status 0
  | "read" => readLine arguments
  | "kill" => kill arguments
  | "eval" => do
    Run.status 0
    runText ev (Text.join [' '] arguments)
  | "." => do
    match m.files.read ⟨arguments.headD []⟩ with
    | .ok bytes =>
      Run.status 0
      (runText ev (Utf8.decodeLossy bytes)).onStop fun
        | .returns => pure ()
        | stop => throw stop
    | .error _ => Run.leave 2
  | "exec" => do
    match arguments with
    | [] => Run.status 0
    | name :: arguments =>
      match Program.find m.files (← searchPath) name with
      | .ok program =>
        runProgram ev name program arguments
        throw .leave
      | .error .notFound => Run.leave 127
      | .error _ => Run.leave 126
  | "command" => do
    Run.status 0
    ev.run [.simple [] (arguments.map fun a => [.literal true a])]
  | "[" =>
    if arguments.getLast? = some [']'] then Run.status (Test.status m.files arguments.dropLast)
    else Run.status 2
  | _ =>
    match (["echo", "printf", "pwd", "test", "true", "false"].map String.toList).contains name,
      Utility.named? name name with
    | true, some run => run arguments
    | _, _ => runCommand ev name arguments

/-- Performs redirections up to the first that fails, and tells whether all went well. -/
def redirectAll (ev : Evaluator) : List Redirect → Run Bool
  | [] => return true
  | r :: rest => do
    let target ← oneText ev r.target
    if ← Run.redirect r.stream r.kind target then redirectAll ev rest
    else
      Run.complain ((← get).name ++ ": cannot open ".toList ++ target)
      Run.status 2
      return false

/-- Runs `body` under redirections, which end with it. -/
def underRedirects (ev : Evaluator) (rs : List Redirect) (special : Bool) (body : Run Unit) :
    Run Unit := do
  let m ← get
  let readsInput := rs.any fun r => r.kind matches .read | .here
  let whole := do
    if ← redirectAll ev rs then body
    else if special then throw Stop.leave
  whole.afterwards fun inner =>
    { inner with streams := m.streams, input := if readsInput then m.input else inner.input }

/-- Sets variables to the values of words. -/
def assignAll (ev : Evaluator) : List (Text × Word) → Run Unit
  | [] => pure ()
  | (name, value) :: rest => do
    let value ← oneText ev value
    modify (Machine.assign name value)
    assignAll ev rest

/-- The machine with some variables as they are in another one. -/
def restoreVariables (names : List Text) (old m : Machine) : Machine :=
  names.foldl (fun m name =>
    match old.valueOf? name with
    | some value => m.assign name value
    | none => m.unset name) m

/-- Whether a word runs a script. -/
def runsScript (w : Word) : Bool :=
  w.any (· matches .output ..)

/-- Runs a simple command. Its assignments hold for the command, or for good if there is none. -/
def simple (ev : Evaluator) (assigned : List (Text × Word)) (words : List Word)
    (rs : List Redirect) : Run Unit := do
  match (← words.mapM (texts ev)).flatten with
  | [] =>
    underRedirects ev rs false do
      assignAll ev assigned
      if !(assigned.any fun a => runsScript a.2) && !words.any runsScript then Run.status 0
  | name :: arguments =>
    let special := specialCommands.contains name
    if name = "exec".toList && arguments.isEmpty then
      if ← redirectAll ev rs then Run.status 0 else throw Stop.leave
    else
      let old ← get
      underRedirects ev rs special do
        assignAll ev assigned
        let run := invoke ev name arguments
        if special then run
        else
          modify (Machine.handOn (assigned.map (·.1)))
          run.afterwards fun m =>
            { restoreVariables (assigned.map (·.1)) old m with exported := old.exported }

/-- Runs the body of a loop once, and tells whether the loop goes on. -/
def iteration (body : Run Unit) : Run Bool :=
  Run.onStop (do body; return true) fun
    | .breaks 0 => return false
    | .breaks (n + 1) => throw (.breaks n)
    | .continues 0 => return true
    | .continues (n + 1) => throw (.continues n)
    | stop => throw stop

/-- Runs the body of a loop for each value of its variable. -/
def forEach (name : Text) (body : Run Unit) : List Text → Run Unit
  | [] => pure ()
  | value :: rest => do
    modify (Machine.assign name value)
    if ← iteration body then forEach name body rest

/-- Runs the first arm whose condition ends well. -/
def firstArm (ev : Evaluator) (otherwise : List Term) : List (List Term × List Term) → Run Unit
  | [] => do
    Run.status 0
    ev.run otherwise
  | (condition, body) :: rest => do
    Run.asCondition (ev.run condition)
    if (← get).status = 0 then ev.run body else firstArm ev otherwise rest

/-- Whether one of some patterns stands for a text. -/
def anyMatches (ev : Evaluator) (subject : Text) : List Word → Run Bool
  | [] => return false
  | w :: rest => do
    let pieces ← expandWord ev w
    if matchesAll (Piece.pattern pieces) subject then return true
    anyMatches ev subject rest

/-- Runs the first arm with a pattern that stands for a text. -/
def chooseArm (ev : Evaluator) (subject : Text) : List (List Word × List Term) → Run Unit
  | [] => Run.status 0
  | (patterns, body) :: rest => do
    if ← anyMatches ev subject patterns then
      Run.status 0
      ev.run body
    else chooseArm ev subject rest

/-- Runs a term beside the script: up to the moment when it waits. -/
def background (body : Run Unit) : Run Unit := do
  let m ← get
  set { m with limit := some m.clock }
  let beside := (Run.subshell body).onStop fun
    | .cut => pure ()
    | stop => throw stop
  beside.afterwards fun inner => { inner with limit := m.limit, clock := m.clock }
  Run.status 0

/-- Runs one term. -/
def step (ev : Evaluator) : Term → Run Unit
  | .simple assigned words => Run.checked (simple ev assigned words [])
  | .redirected (.simple assigned words) rs => Run.checked (simple ev assigned words rs)
  | .redirected a rs => underRedirects ev rs false (ev.run [a])
  | .group body => ev.run body
  | .subshell body => Run.checked (Run.subshell (ev.run body))
  | .branch arms otherwise => firstArm ev otherwise arms
  | .each name words body => do
    let values ← match words with
      | some words => do pure (← words.mapM (texts ev)).flatten
      | none => do pure (← get).arguments
    Run.status 0
    forEach name (ev.run body) values
  | .loop negated condition body => do
    Run.asCondition (ev.run condition)
    if ((← get).status = 0) != negated then
      if ← iteration (ev.run body) then ev.run [.loop negated condition body]
    else Run.status 0
  | .choose subject arms => do chooseArm ev (← oneText ev subject) arms
  | .andThen a b => do
    Run.asCondition (ev.run [a])
    if (← get).status = 0 then ev.run [b]
  | .orElse a b => do
    Run.asCondition (ev.run [a])
    if (← get).status ≠ 0 then ev.run [b]
  | .negated a => do
    Run.asCondition (ev.run [a])
    Run.truth ((← get).status ≠ 0)
  | .piped a b => Run.checked do
    let bytes ← Run.capture (ev.run [a])
    let m ← get
    set { m with input := bytes }
    (Run.subshell (ev.run [b])).afterwards fun inner => { inner with input := m.input }
  | .background a => background (ev.run [a])
  | .function name body => do
    modify fun m => { m with functions := (name, body) :: m.functions }
    Run.status 0

/-- The meaning of terms and words, to some depth. -/
def evaluator : (depth : Nat) → Evaluator
  | 0 => ⟨fun _ => throw .cut, fun _ => throw .cut⟩
  | depth + 1 =>
    ⟨fun terms => terms.forM fun t => step (evaluator depth) t,
      fun w => expandWord (evaluator depth) w⟩

/-- How deep a run may go. -/
def depthLimit : Nat := 5000

end NativeFreeze.Shell
