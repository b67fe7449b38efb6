import NativeFreeze.Manifest.Basic

/-!
# Arguments

The arguments of the command line. Some options hold for every task and may stand before or after
its name; one behind the name counts more. Arguments are read from left to right: the first that
cannot be understood refuses the whole line, and one that asks for help or for the version ends the
reading.
-/

namespace NativeFreeze.CommandLine

/-- The options of every task. -/
structure Options where
  /-- How often more records were asked for. -/
  verbosity : Nat := 0
  config : Option Path := none
  buildDir : Option Path := none
  python : Option Path := none
  deriving DecidableEq, Repr, Inhabited

/-- The options behind the name of a task on top of those before it. -/
def Options.over (behind before : Options) : Options where
  verbosity := if behind.verbosity = 0 then before.verbosity else behind.verbosity
  config := behind.config.or before.config
  buildDir := behind.buildDir.or before.buildDir
  python := behind.python.or before.python

/-- What the command line can be asked to do. -/
inductive Task
  | build (manifest : Path) (clean : Bool)
  | clean (manifest : Path)
  | trace (script : Path)
  | bundle (script outDir : Path)
  deriving DecidableEq, Repr

/-- The meaning of a line of arguments. -/
inductive Invocation
  | run (options : Options) (task : Task)
  | version
  | help
  | refused
  deriving DecidableEq, Repr

/-- The names of the tasks. -/
inductive Verb
  | build
  | clean
  | trace
  | bundle
  deriving DecidableEq, Repr

/-- The name of a task as it is written. -/
def Verb.ofText? (s : Text) : Option Verb :=
  match String.ofList s with
  | "build" => some .build
  | "clean" => some .clean
  | "trace" => some .trace
  | "bundle" => some .bundle
  | _ => none

/-- How many operands a task takes. -/
def Verb.arity : Verb → Nat
  | build => 0
  | clean => 0
  | trace => 1
  | bundle => 2

/-- An option. -/
inductive Switch
  | verbose
  | config
  | buildDir
  | python
  | manifest
  | clean
  | help
  | version
  deriving DecidableEq, Repr

namespace Switch

/-- Whether an option takes a value. -/
def takesValue : Switch → Bool
  | config | buildDir | python | manifest => true
  | verbose | clean | help | version => false

/-- Whether an option may stand behind the name of a task, or before any if there is none. -/
def allowed (verb : Option Verb) : Switch → Bool
  | verbose | config | buildDir | python | help => true
  | manifest => verb = some .build || verb = some .clean
  | clean => verb = some .build
  | version => verb = none

/-- The option with a long name. -/
def ofName? (name : Text) : Option Switch :=
  match String.ofList name with
  | "verbose" => some verbose
  | "config" => some config
  | "build-dir" => some buildDir
  | "python" => some python
  | "manifest" => some manifest
  | "clean" => some clean
  | "help" => some help
  | "version" => some version
  | _ => none

/-- The option with a letter. -/
def ofLetter? : Char → Option Switch
  | 'v' => some verbose
  | 'm' => some manifest
  | 'h' => some help
  | 'V' => some version
  | _ => none

end Switch

/-- What was read of a line, before or behind the name of the task. -/
structure Reading where
  options : Options := {}
  manifest : Option Path := none
  clean : Bool := false
  operands : List Path := []
  /-- Whether only operands follow. -/
  operandsOnly : Bool := false
  deriving DecidableEq, Repr, Inhabited

/-- Sets a value that was not set before and that is not empty. -/
def setOnce (old : Option Path) (value : Text) : Except Invocation (Option Path) :=
  if old.isSome || value.isEmpty then .error .refused else .ok (some ⟨value⟩)

namespace Reading

/-- Takes in an option without a value. -/
def flag (r : Reading) : Switch → Except Invocation Reading
  | .verbose => .ok { r with options.verbosity := r.options.verbosity + 1 }
  | .clean => if r.clean then .error .refused else .ok { r with clean := true }
  | .help => .error .help
  | .version => .error .version
  | _ => .error .refused

/-- Takes in an option with its value. -/
def setValue (r : Reading) (switch : Switch) (value : Text) : Except Invocation Reading :=
  match switch with
  | .config => do return { r with options.config := ← setOnce r.options.config value }
  | .buildDir => do return { r with options.buildDir := ← setOnce r.options.buildDir value }
  | .python => do return { r with options.python := ← setOnce r.options.python value }
  | .manifest => do return { r with manifest := ← setOnce r.manifest value }
  | _ => .error .refused

/-- Takes in an operand of a task. -/
def operand (r : Reading) (verb : Verb) (value : Text) : Except Invocation Reading :=
  if value.isEmpty || verb.arity ≤ r.operands.length then .error .refused
  else .ok { r with operands := r.operands ++ [⟨value⟩] }

end Reading

/-- What an argument is. -/
inductive Kind
  | separator
  /-- A long option with the value attached to it, if there is one. -/
  | long (name : Text) (value : Option Text)
  /-- Letters behind a hyphen. -/
  | letters (s : Text)
  | plain
  deriving DecidableEq, Repr

/-- The kind of an argument. A lone hyphen is plain. -/
def Kind.ofArgument : Text → Kind
  | ['-', '-'] => .separator
  | '-' :: '-' :: r =>
    match Text.cutAt? '=' r with
    | some (name, value) => .long name (some value)
    | none => .long r none
  | '-' :: c :: r => .letters (c :: r)
  | _ => .plain

/-- Reads options behind one hyphen: letters without values, up to one that takes a value. The rest
is its value, or else the value is still to come. -/
def readLetters (verb : Option Verb) (r : Reading) : Text →
    Except Invocation (Reading × Option Switch)
  | [] => .ok (r, none)
  | c :: rest =>
    match (Switch.ofLetter? c).filter (Switch.allowed verb) with
    | none => .error .refused
    | some switch =>
      if switch.takesValue then
        match rest with
        | [] => .ok (r, some switch)
        | '=' :: value => do return (← r.setValue switch value, none)
        | value => do return (← r.setValue switch value, none)
      else do readLetters verb (← r.flag switch) rest

/-- Reads one option, whose value may be still to come. -/
def readOption (verb : Option Verb) (r : Reading) : Kind →
    Except Invocation (Reading × Option Switch)
  | .long name value =>
    match (Switch.ofName? name).filter (Switch.allowed verb), value with
    | none, _ => .error .refused
    | some switch, some value =>
      if switch.takesValue then do return (← r.setValue switch value, none)
      else .error .refused
    | some switch, none =>
      if switch.takesValue then .ok (r, some switch)
      else do return (← r.flag switch, none)
  | .letters s => readLetters verb r s
  | _ => .error .refused

/-- Reads the arguments behind the name of a task. `pending` is the option whose value is still to
come. -/
def readTask (verb : Verb) : Reading → (pending : Option Switch) → List Text →
    Except Invocation Reading
  | r, none, [] => .ok r
  | _, some _, [] => .error .refused
  | r, some switch, a :: rest =>
    match Kind.ofArgument a with
    | .plain => do readTask verb (← r.setValue switch a) none rest
    | _ => .error .refused
  | r, none, a :: rest =>
    if r.operandsOnly then do readTask verb (← r.operand verb a) none rest
    else
      match Kind.ofArgument a with
      | .separator => readTask verb { r with operandsOnly := true } none rest
      | .plain => do readTask verb (← r.operand verb a) none rest
      | kind => do
        let (r, pending) ← readOption (some verb) r kind
        readTask verb r pending rest

/-- The manifest that is named, or else the one with the usual name. -/
def Reading.manifestPath (r : Reading) : Path :=
  r.manifest.getD ⟨Manifest.fileName⟩

/-- The task that a finished reading asks for. -/
def Reading.task? (r : Reading) (verb : Verb) : Option Task :=
  match verb, r.operands with
  | .build, [] => some (.build r.manifestPath r.clean)
  | .clean, [] => some (.clean r.manifestPath)
  | .trace, [script] => some (.trace script)
  | .bundle, [script, outDir] => some (.bundle script outDir)
  | _, _ => none

/-- What asking for help on some names means. -/
def helpOn : List Text → Invocation
  | [] => .help
  | [name] => if name = "help".toList || (Verb.ofText? name).isSome then .help else .refused
  | _ => .refused

/-- Reads the arguments up to the name of the task and those behind it. -/
def readLine : Reading → (pending : Option Switch) → List Text → Except Invocation Invocation
  | _, _, [] => .error .refused
  | r, some switch, a :: rest =>
    match Kind.ofArgument a with
    | .plain => do readLine (← r.setValue switch a) none rest
    | _ => .error .refused
  | r, none, a :: rest =>
    match Kind.ofArgument a with
    | .separator => .error .refused
    | .plain =>
      match Verb.ofText? a with
      | some verb => do
        let behind ← readTask verb {} none rest
        match behind.task? verb with
        | some task => return .run (behind.options.over r.options) task
        | none => .error .refused
      | none => .error (if a = "help".toList then helpOn rest else .refused)
    | kind => do
      let (r, pending) ← readOption none r kind
      readLine r pending rest

/-- The meaning of the arguments of the command line. -/
def Invocation.ofArguments (arguments : List Text) : Invocation :=
  match readLine {} none arguments with
  | .ok invocation => invocation
  | .error invocation => invocation

end NativeFreeze.CommandLine
