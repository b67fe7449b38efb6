import NativeFreeze.Shell.Arithmetic
import NativeFreeze.Shell.Glob
import NativeFreeze.Shell.Machine

/-!
# Expansion

The words of a script become the texts that a command is given. A word is expanded to pieces. Quoted
pieces stay whole, the others are split at blanks if they came from an expansion; what is then left
may be a pattern of paths. What an expansion needs to run, it runs through an evaluator.
-/

namespace NativeFreeze.Shell

/-- How a piece of an expanded word is treated. -/
inductive Manner
  | quoted
  | literal
  | spread
  deriving DecidableEq, Repr

/-- A piece of an expanded word. A border ends one text and starts the next. -/
inductive Piece
  | text (manner : Manner) (s : Text)
  | border
  deriving DecidableEq, Repr

/-- What terms and words mean. -/
structure Evaluator where
  run : List Term → Run Unit
  expand : Word → Run (List Piece)

/-- The text of some pieces, taken as one. -/
def Piece.joined (pieces : List Piece) : Text :=
  pieces.flatMap fun
    | .text _ s => s
    | .border => [' ']

/-- The pattern of some pieces. -/
def Piece.pattern (pieces : List Piece) : List Atom :=
  atoms 0 <| pieces.flatMap fun
    | .text manner s => s.map (manner == .quoted, ·)
    | .border => [(true, ' ')]

/-- A character at which texts are split. -/
def isSeparator (c : Char) : Bool :=
  c == ' ' || c == '\t' || c == '\n'

/-- The text that is under way, if there is one, and the texts that are finished. -/
abbrev Fields := Option Marked × List Marked

namespace Fields

/-- Ends the text that is under way. -/
def close : Fields → Fields
  | (current, done) => (none, done ++ current.toList)

/-- Goes on with the text that is under way. -/
def extend (s : Marked) : Fields → Fields
  | (current, done) => (some (current.getD [] ++ s), done)

/-- Takes in one piece. -/
def add (fields : Fields) : Piece → Fields
  | .border => fields.close
  | .text .quoted s => fields.extend (s.map (true, ·))
  | .text .literal s => if s.isEmpty then fields else fields.extend (s.map (false, ·))
  | .text .spread s =>
    s.foldl (fun fields c =>
      if isSeparator c then fields.close else fields.extend [(false, c)]) fields

/-- The texts that some pieces make. -/
def ofPieces (pieces : List Piece) : List Marked :=
  (close (pieces.foldl add (none, []))).2

end Fields

namespace Machine

/-- The number under which a script knows itself. -/
def processNumber : Text :=
  "100".toList

/-- The value of a parameter. -/
def parameter? (m : Machine) (name : Text) : Option Text :=
  match name with
  | ['@'] => some (Text.join [' '] m.arguments)
  | ['*'] => some (Text.join [' '] m.arguments)
  | ['#'] => some (Text.ofNat m.arguments.length)
  | ['?'] => some (Text.ofNat m.status)
  | ['$'] => some processNumber
  | ['-'] => some []
  | _ =>
    match Text.toNat? name with
    | some 0 => some m.name
    | some (n + 1) => m.arguments[n]?
    | none => m.valueOf? name

end Machine

/-- The word of a parameter operator. -/
def operand (quoted : Bool) (s : Text) : Word :=
  let read := if quoted then doubleQuoted false (s.length + 1) s
    else wordBody (fun _ => false) (s.length + 1) s
  (read.map (·.1)).getD []

/-- The output of a script without the line breaks at its end. -/
def scriptOutput (ev : Evaluator) (script : Text) : Run Text := do
  match read? script with
  | none => Run.leave 2
  | some terms =>
    let bytes ← Run.capture (ev.run terms)
    return Text.trimEnd (· == '\n') (Utf8.decodeLossy bytes)

/-- The value of an arithmetic expression, expanded before it is read. -/
def calculated (ev : Evaluator) (expression : Text) : Run Text := do
  let s := Piece.joined (← ev.expand (operand true expression))
  let m ← get
  match (Arithmetic.read? s).bind (Arithmetic.value fun name =>
      Arithmetic.numberOfVariable? (m.parameter? name)) with
  | some n => return (toString n.toInt).toList
  | none => Run.leave 2

/-- The arguments of a script, each a text of its own. -/
def allArguments (manner : Manner) : List Text → List Piece
  | [] => []
  | [a] => [.text manner a]
  | a :: rest => .text manner a :: .border :: allArguments manner rest

/-- A parameter under an operator. -/
def expandParameter (ev : Evaluator) (quoted : Bool) (name operator word : Text) :
    Run (List Piece) := do
  let m ← get
  let manner := if quoted then Manner.quoted else .spread
  let value? := m.parameter? name
  let filled? := value?.filter (!·.isEmpty)
  let shown := fun (value : Option Text) => [Piece.text manner (value.getD [])]
  let instead := ev.expand (operand quoted word)
  let trimmed := fun (trim : List Atom → Text → Text) => do
    let pieces ← ev.expand (operand false word)
    return shown (value?.map (trim (Piece.pattern pieces)))
  let setTo := do
    let value := Piece.joined (← instead)
    modify (Machine.assign name value)
    return shown (some value)
  let demand := fun (value : Option Text) => do
    match value with
    | some value => return shown (some value)
    | none => do
      Run.complain (name ++ ": ".toList ++ Piece.joined (← instead))
      Run.leave 2
  match String.ofList operator with
  | "" =>
    if name = ['@'] || (name = ['*'] && !quoted) then return allArguments manner m.arguments
    else if m.demanding && value?.isNone then
      Run.complain (name ++ ": parameter not set".toList)
      Run.leave 2
    else return shown value?
  | "#length" => return [.text manner (Text.ofNat (value?.getD []).length)]
  | ":-" => if filled?.isSome then return shown value? else instead
  | "-" => if value?.isSome then return shown value? else instead
  | ":+" => if filled?.isSome then instead else return shown none
  | "+" => if value?.isSome then instead else return shown none
  | ":=" => if filled?.isSome then return shown value? else setTo
  | "=" => if value?.isSome then return shown value? else setTo
  | ":?" => demand filled?
  | "?" => demand value?
  | "%" => trimmed (trimBack false)
  | "%%" => trimmed (trimBack true)
  | "#" => trimmed (trimFront false)
  | "##" => trimmed (trimFront true)
  | _ => Run.leave 2

/-- The pieces of a fragment. -/
def expandFragment (ev : Evaluator) : Fragment → Run (List Piece)
  | .literal quoted s => return [.text (if quoted then .quoted else .literal) s]
  | .parameter quoted name operator word => expandParameter ev quoted name operator word
  | .output quoted script => do
    return [.text (if quoted then .quoted else .spread) (← scriptOutput ev script)]
  | .arithmetic quoted expression => do
    return [.text (if quoted then .quoted else .spread) (← calculated ev expression)]

/-- Whether a word stands for the arguments alone. -/
def isAllArguments (w : Word) : Bool :=
  w.any (fun f => f matches .parameter _ ['@'] [] _) &&
    w.all fun f => f matches .parameter _ ['@'] [] _ | .literal true []

/-- The pieces of a word. Without arguments, a word that stands for them is nothing. -/
def expandWord (ev : Evaluator) (w : Word) : Run (List Piece) := do
  if isAllArguments w && (← get).arguments.isEmpty then return []
  return (← w.mapM (expandFragment ev)).flatten

/-- The texts that a word stands for. -/
def texts (ev : Evaluator) (w : Word) : Run (List Text) := do
  let fields := Fields.ofPieces (← expandWord ev w)
  return fields.flatMap (Marked.paths (← get).files)

/-- The one text that a word stands for. -/
def oneText (ev : Evaluator) (w : Word) : Run Text := do
  return Piece.joined (← expandWord ev w)

end NativeFreeze.Shell
