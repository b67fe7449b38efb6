import NativeFreeze.Text.Basic

/-!
# A piece of Python

The finder is a Python script. This module reads as much of the language as the script is written in:
imports, classes, methods, branches, returns and assignments, over names, numbers, strings, attributes,
items, calls, `or`, `<` and `!=`. A script that needs more is not parsed. A method runs on an object,
with the attributes that the initialiser of its class has set; where the language raises an error, the
method has no answer.
-/

namespace NativeFreeze.Python

/-! ## Tokens -/

/-- A name, keyword or number, a string, or any other character but a blank. -/
inductive Token
  | word (w : Text)
  | string (s : Text)
  | sign (c : Char)
  deriving DecidableEq, Repr

/-- What a scanner is in the middle of. -/
inductive Scanning
  | between
  | word (w : Text)
  | string (s : Text)

/-- Whether a character can stand in a name or number. -/
def isWordChar (c : Char) : Bool :=
  c.isAlphanum || c == '_'

/-- Scans a character between two tokens. -/
def scanBetween (c : Char) : List Token × Scanning :=
  if c = ' ' then ([], .between)
  else if c = '"' then ([], .string [])
  else if isWordChar c then ([], .word [c])
  else ([.sign c], .between)

/-- Scans a character: the tokens that it ends or is, and what the scanner is in the middle of then. A
string with a backslash is not read. -/
def scanChar : Scanning → Char → Option (List Token × Scanning)
  | .between, c => some (scanBetween c)
  | .word w, c =>
    if isWordChar c then some ([], .word (w ++ [c]))
    else if c = '"' && w = ['r'] then some ([], .string [])
    else some (.word w :: (scanBetween c).1, (scanBetween c).2)
  | .string s, c =>
    if c = '"' then some ([.string s], .between)
    else if c = '\\' then none
    else some ([], .string (s ++ [c]))

/-- The tokens up to the end of a line. -/
def scanFrom : Scanning → Text → Option (List Token)
  | .between, [] => some []
  | .word w, [] => some [.word w]
  | .string _, [] => none
  | scanning, c :: r => do
    let (tokens, next) ← scanChar scanning c
    return tokens ++ (← scanFrom next r)

/-- A line: how far it is indented, and what stands in it. -/
structure Line where
  indent : Nat
  tokens : List Token

/-- The lines of a script, without the empty ones. -/
def scan (script : List Text) : Option (List Line) :=
  (script.filter fun line => !line.isEmpty).mapM fun line => do
    return ⟨(line.takeWhile (· = ' ')).length, ← scanFrom .between line⟩

/-! ## Syntax -/

mutual

/-- An expression. -/
inductive Expr
  | name (x : Text)
  | none
  | int (n : Int)
  | string (s : Text)
  | attribute (e : Expr) (x : Text)
  | item (e i : Expr)
  | call (f : Expr) (arguments : Arguments)
  | less (a b : Expr)
  | differ (a b : Expr)
  | or (a b : Expr)
  deriving DecidableEq, Repr

/-- The arguments of a call. -/
inductive Arguments
  | nil
  | cons (e : Expr) (rest : Arguments)
  deriving DecidableEq, Repr

end

/-- A parameter of a method, and what it is without an argument. -/
structure Parameter where
  name : Text
  default : Option Expr := none
  deriving DecidableEq, Repr

/-- A statement of one line. -/
inductive Simple
  | imports (module : Text)
  | returns (e : Expr)
  | assign (target e : Expr)
  | evaluate (e : Expr)
  deriving DecidableEq, Repr

/-- What opens a block. -/
inductive Head
  | branch (test : Expr)
  | method (name : Text) (parameters : List Parameter)
  | type (name : Text) (base : Expr)
  deriving DecidableEq, Repr

/-- Some statements, one after the other. -/
inductive Suite
  | done
  | simple (statement : Simple) (rest : Suite)
  | block (head : Head) (body rest : Suite)
  deriving DecidableEq, Repr

/-! ## Parsing -/

/-- Takes something off the front of some tokens. -/
abbrev Parser := StateT (List Token) Option

/-- The words that are no names. -/
def keywords : List Text :=
  (["False", "None", "True", "and", "as", "assert", "async", "await", "break", "class", "continue",
    "def", "del", "elif", "else", "except", "finally", "for", "from", "global", "if", "import", "in",
    "is", "lambda", "nonlocal", "not", "or", "pass", "raise", "return", "try", "while", "with",
    "yield"] : List String).map String.toList

/-- Whether a word is a name. -/
def isName (w : Text) : Bool :=
  !keywords.contains w && !(w.headD '0').isDigit

namespace Parser

/-- Takes a token if it comes next. -/
def accept (token : Token) : Parser Bool := fun tokens =>
  if tokens.head? = some token then some (true, tokens.tail) else some (false, tokens)

/-- Takes a character that has to come next. -/
def sign (c : Char) : Parser Unit := do
  guard (← accept (.sign c))

/-- Takes a keyword if it comes next. -/
def keyword (w : String) : Parser Bool :=
  accept (.word w.toList)

/-- Takes a name. -/
def name : Parser Text
  | .word w :: rest => if isName w then some (w, rest) else none
  | _ => none

/-- Takes a dotted name. -/
def dotted : (fuel : Nat) → Parser Text
  | 0 => failure
  | fuel + 1 => do
    let x ← name
    if ← accept (.sign '.') then return x ++ '.' :: (← dotted fuel) else return x

/-- Takes a number. -/
def number : Parser Nat
  | .word w :: rest => (Text.toNat? w).map (·, rest)
  | _ => none

/-- Takes a string. -/
def string : Parser Text
  | .string s :: rest => some (s, rest)
  | _ => none

/-- Takes an expression without parts. -/
def atom : Parser Expr := do
  if ← keyword "None" then return .none
  else
    Expr.string <$> string <|> (fun n : Nat => Expr.int n) <$> number <|> Expr.name <$> name

mutual

/-- Takes an expression. Every parser of expressions is given a bound on its depth. -/
def expr : (fuel : Nat) → Parser Expr
  | 0 => failure
  | fuel + 1 => do
    let a ← comparison fuel
    if ← keyword "or" then return .or a (← expr fuel) else return a

/-- Takes an operand of `or`. -/
def comparison : (fuel : Nat) → Parser Expr
  | 0 => failure
  | fuel + 1 => do
    let a ← operand fuel
    if ← accept (.sign '<') then return .less a (← operand fuel)
    else if ← accept (.sign '!') then
      sign '='
      return .differ a (← operand fuel)
    else return a

/-- Takes an operand of a comparison. -/
def operand : (fuel : Nat) → Parser Expr
  | 0 => failure
  | fuel + 1 => do
    if ← accept (.sign '-') then return .int (-(← number))
    else trailers fuel (← atom)

/-- Takes the attributes, calls and items behind an expression. -/
def trailers : (fuel : Nat) → Expr → Parser Expr
  | 0, _ => failure
  | fuel + 1, e => do
    if ← accept (.sign '.') then trailers fuel (.attribute e (← name))
    else if ← accept (.sign '(') then trailers fuel (.call e (← arguments fuel))
    else if ← accept (.sign '[') then
      let i ← expr fuel
      sign ']'
      trailers fuel (.item e i)
    else return e

/-- Takes the arguments of a call, with the parenthesis behind them. -/
def arguments : (fuel : Nat) → Parser Arguments
  | 0 => failure
  | fuel + 1 => do
    if ← accept (.sign ')') then return .nil
    let e ← expr fuel
    if ← accept (.sign ',') then return .cons e (← arguments fuel)
    sign ')'
    return .cons e .nil

end

/-- Takes the parameters of a method, with the parenthesis behind them. -/
def parameters : (fuel : Nat) → Parser (List Parameter)
  | 0 => failure
  | fuel + 1 => do
    if ← accept (.sign ')') then return []
    let x ← name
    let default ← if ← accept (.sign '=') then some <$> expr fuel else pure none
    if ← accept (.sign ',') then return ⟨x, default⟩ :: (← parameters fuel)
    sign ')'
    return [⟨x, default⟩]

/-- Takes a statement of one line, or what opens a block. -/
def statement (fuel : Nat) : Parser (Simple ⊕ Head) := do
  if ← keyword "import" then return .inl (.imports (← dotted fuel))
  else if ← keyword "return" then return .inl (.returns (← expr fuel))
  else if ← keyword "if" then
    let test ← expr fuel
    sign ':'
    return .inr (.branch test)
  else if ← keyword "def" then
    let x ← name
    sign '('
    let parameters ← parameters fuel
    sign ':'
    return .inr (.method x parameters)
  else if ← keyword "class" then
    let x ← name
    sign '('
    let base ← expr fuel
    sign ')'
    sign ':'
    return .inr (.type x base)
  else
    let e ← expr fuel
    if ← accept (.sign '=') then return .inl (.assign e (← expr fuel))
    else return .inl (.evaluate e)

end Parser

/-- What stands in a line. Four parsers can nest without taking a token. -/
def Line.parse (line : Line) : Option (Simple ⊕ Head) := do
  let (statement, rest) ← Parser.statement (4 * line.tokens.length + 4) line.tokens
  guard rest.isEmpty
  return statement

/-- Takes the statements that are indented by `depth` off the front of some lines. `fuel` bounds the
number of lines. -/
def takeSuite : (fuel depth : Nat) → List Line → Option (Suite × List Line)
  | 0, _, _ => none
  | _ + 1, _, [] => some (.done, [])
  | fuel + 1, depth, line :: lines =>
    if line.indent < depth then some (.done, line :: lines)
    else do
      guard (line.indent = depth)
      match ← line.parse with
      | .inl statement =>
        let (rest, lines) ← takeSuite fuel depth lines
        return (.simple statement rest, lines)
      | .inr head =>
        let (body, lines) ← takeSuite fuel (depth + 4) lines
        guard (body ≠ .done)
        let (rest, lines) ← takeSuite fuel depth lines
        return (.block head body rest, lines)

/-- Parses a script. -/
def parse (script : List Text) : Option Suite := do
  let lines ← scan script
  let (suite, _) ← takeSuite (lines.length + 1) 0 lines
  return suite

/-! ## Values -/

/-- A value. Texts have no other parts than their characters, and lists hold texts only. -/
inductive Value
  | none
  | bool (b : Bool)
  | int (n : Int)
  | text (s : Text)
  | list (items : List Text)
  /-- The object on which a method runs. -/
  | self
  /-- The object as one of the base class. -/
  | super
  /-- What is known by a dotted name: a function, a class or a module. -/
  | known (name : Text)
  /-- A method of a value. -/
  | method (of : Value) (name : Text)
  /-- The loader of a native module: its name, and the file that holds it. -/
  | loader (name file : Text)
  /-- The answer to an import: the name and the loader of the module. -/
  | spec (name : Text) (loader : Value)
  deriving DecidableEq, Repr

/-- Whether a value counts as true. -/
def Value.isTrue : Value → Bool
  | .none => false
  | .bool b => b
  | .int n => n != 0
  | .text s => !s.isEmpty
  | .list items => !items.isEmpty
  | _ => true

/-- The item at an index; a negative index counts from the end. -/
def item? (items : List Text) (i : Int) : Option Text :=
  let place := if i < 0 then i + items.length else i
  if place < 0 then none else items[place.toNat]?

theorem item?_back (items : List Text) {k : Nat} (pos : 0 < k) :
    item? items (-k) = if k ≤ items.length then items[items.length - k]? else none := by
  have negative : (-k : Int) < 0 := by omega
  simp only [item?, negative, if_true]
  by_cases within : k ≤ items.length
  · have place : (-k + items.length : Int).toNat = items.length - k := by omega
    rw [if_neg (by omega), if_pos within, place]
  · rw [if_pos (by omega), if_neg within]

/-- The functions that need no import. -/
def builtins : List Text :=
  ["len".toList, "super".toList]

/-- What a function answers. A function of a module has to be imported with its module. -/
def callKnown (modules : List Text) (name : Text) : List Value → Option Value
  | [] => if name = "super".toList then some .super else none
  | [.list items] => if name = "len".toList then some (.int items.length) else none
  | [.text symbol, .text file] =>
    if name = "importlib.machinery.ExtensionFileLoader".toList &&
      modules.contains "importlib.machinery".toList then some (.loader symbol file) else none
  | [.text symbol, .loader x file] =>
    if name = "importlib.util.spec_from_loader".toList &&
      modules.contains "importlib.util".toList then some (.spec symbol (.loader x file)) else none
  | _ => none

/-- What a method of a text answers. The text is split at a single character only. -/
def callText (s name : Text) : List Value → Option Value
  | [.text [c]] => if name = "split".toList then some (.list (Text.split c s)) else none
  | [.text old, .text new] =>
    if name = "replace".toList then some (.text (Text.replace old new s)) else none
  | _ => none

/-- What a call answers. The initialiser of the base class takes nothing and answers nothing. -/
def callValue (modules : List Text) : Value → List Value → Option Value
  | .known name, arguments => callKnown modules name arguments
  | .method (.text s) name, arguments => callText s name arguments
  | .method .super name, [] => if name = "__init__".toList then some .none else none
  | _, _ => none

/-! ## Methods -/

/-- Where a method stands: the imported modules, the attributes of its object, and the names that it
has assigned. -/
structure Frame where
  modules : List Text
  attributes : List (Text × Value) := []
  locals : List (Text × Value) := []
  deriving DecidableEq, Repr

/-- The value of a name. -/
def Frame.name? (f : Frame) (x : Text) : Option Value :=
  match f.locals.lookup x with
  | some v => some v
  | none =>
    if builtins.contains x || f.modules.any fun m => (Text.split '.' m).head? = some x then
      some (.known x)
    else none

/-- An attribute of a value. -/
def Frame.attribute? (f : Frame) (x : Text) : Value → Option Value
  | .self => f.attributes.lookup x
  | .known name => some (.known (name ++ '.' :: x))
  | .text s => some (.method (.text s) x)
  | .super => some (.method .super x)
  | _ => none

mutual

/-- The value of an expression. -/
def Expr.eval (f : Frame) : Expr → Option Value
  | .name x => f.name? x
  | .none => some .none
  | .int n => some (.int n)
  | .string s => some (.text s)
  | .attribute e x => do f.attribute? x (← e.eval f)
  | .item e i => do
    match ← e.eval f, ← i.eval f with
    | .list items, .int i => .text <$> item? items i
    | _, _ => none
  | .call g arguments => do callValue f.modules (← g.eval f) (← arguments.eval f)
  | .less a b => do
    match ← a.eval f, ← b.eval f with
    | .int m, .int n => return .bool (m < n)
    | _, _ => none
  | .differ a b => do
    match ← a.eval f, ← b.eval f with
    | .text s, .text t => return .bool (s != t)
    | _, _ => none
  | .or a b => do
    let v ← a.eval f
    if v.isTrue then return v else b.eval f

/-- The values of some arguments. -/
def Arguments.eval (f : Frame) : Arguments → Option (List Value)
  | .nil => some []
  | .cons e rest => return (← e.eval f) :: (← rest.eval f)

end

/-- Assigns a value to a name, or to an attribute of the object. -/
def Frame.assign (f : Frame) (v : Value) : Expr → Option Frame
  | .name x => some { f with locals := (x, v) :: f.locals }
  | .attribute e x => do
    guard ((← e.eval f) = .self)
    return { f with attributes := (x, v) :: f.attributes }
  | _ => none

/-- Runs the body of a method: what it returns, if it does, and where it stands then. -/
def Suite.run : Suite → Frame → Option (Option Value × Frame)
  | .done, f => some (none, f)
  | .simple (.returns e) _, f => (e.eval f).map fun v => (some v, f)
  | .simple (.evaluate e) rest, f => do
    let _ ← e.eval f
    rest.run f
  | .simple (.assign target e) rest, f => do rest.run (← f.assign (← e.eval f) target)
  | .block (.branch test) body rest, f => do
    if (← test.eval f).isTrue then
      match ← body.run f with
      | (some v, f) => return (some v, f)
      | (none, f) => rest.run f
    else rest.run f
  | _, _ => none

/-- The modules that a script imports. -/
def Suite.modules : Suite → List Text
  | .done => []
  | .simple (.imports m) rest => m :: rest.modules
  | .simple _ rest => rest.modules
  | .block _ _ rest => rest.modules

/-- The body of a class. -/
def Suite.type? (name : Text) : Suite → Option Suite
  | .done => none
  | .simple _ rest => rest.type? name
  | .block (.type x _) body rest => (rest.type? name).or (if x = name then some body else none)
  | .block _ _ rest => rest.type? name

/-- The parameters and the body of a method. -/
def Suite.method? (name : Text) : Suite → Option (List Parameter × Suite)
  | .done => none
  | .simple _ rest => rest.method? name
  | .block (.method x parameters) body rest =>
    (rest.method? name).or (if x = name then some (parameters, body) else none)
  | .block _ _ rest => rest.method? name

/-- Gives parameters their arguments in order, and those that are left their defaults. -/
def bindParameters (f : Frame) : List Parameter → List Value → Option (List (Text × Value))
  | [], [] => some []
  | [], _ :: _ => none
  | p :: ps, v :: vs => (bindParameters f ps vs).map ((p.name, v) :: ·)
  | p :: ps, [] => do
    let v ← (← p.default).eval f
    return (p.name, v) :: (← bindParameters f ps [])

/-- Calls a method of a class on an object. -/
def Suite.call (methods : Suite) (name : Text) (arguments : List Value) (f : Frame) :
    Option (Value × Frame) := do
  let (parameters, body) ← methods.method? name
  let locals ← bindParameters f parameters (.self :: arguments)
  let (answer, f) ← body.run { f with locals := locals }
  return (answer.getD .none, f)

/-- Makes an object of a class of a script and calls a method on it. -/
def Suite.ask (script : Suite) (type : Text) (made : List Value) (method : Text)
    (arguments : List Value) : Option Value := do
  let methods ← script.type? type
  let (_, f) ← methods.call "__init__".toList made { modules := script.modules }
  let (answer, _) ← methods.call method arguments { modules := f.modules, attributes := f.attributes }
  return answer

end NativeFreeze.Python
