import NativeFreeze.Text.Basic

/-!
# Shell arithmetic

The expressions of arithmetic expansions: numbers and variables, joined by operators that bind more
or less tightly. Values are words of 64 bits and wrap around.
-/

namespace NativeFreeze.Shell.Arithmetic

/-- An expression. -/
inductive Expression
  | number (n : Int64)
  | named (name : Text)
  | unary (operator : Text) (a : Expression)
  | binary (operator : Text) (a b : Expression)
  | choice (condition a b : Expression)
  deriving Repr, Inhabited

/-- A token of an expression. -/
inductive Token
  | word (s : Text)
  | operator (s : Text)
  deriving DecidableEq, Repr

/-- The binary operators, the loosest ones first. -/
def levels : List (List Text) :=
  [["||"], ["&&"], ["|"], ["^"], ["&"], ["==", "!="], ["<=", ">=", "<", ">"], ["<<", ">>"],
    ["+", "-"], ["*", "/", "%"]].map (·.map String.toList)

/-- The other operators. -/
def singles : List Text :=
  ["!", "~", "?", ":", "(", ")"].map String.toList

/-- The operator at the start of a text. -/
def operator? (s : Text) : Option Text :=
  let all := levels.flatten ++ singles
  [2, 1].findSome? fun n => if all.contains (s.take n) then some (s.take n) else none

/-- A character of a number or a name. -/
def isWordChar (c : Char) : Bool :=
  c.isAlphanum || c == '_'

/-- The tokens of a text. `fuel` bounds its length. -/
def tokens : (fuel : Nat) → Text → Option (List Token)
  | 0, _ => none
  | _ + 1, [] => some []
  | fuel + 1, c :: r =>
    if c = ' ' || c = '\t' || c = '\n' then tokens fuel r
    else
      let word := (c :: r).takeWhile isWordChar
      if word ≠ [] then (tokens fuel ((c :: r).drop word.length)).map (.word word :: ·)
      else do
        let operator ← operator? (c :: r)
        let rest ← tokens fuel ((c :: r).drop operator.length)
        return .operator operator :: rest

/-- The value of a digit in some base. -/
def digit? (base : Nat) (c : Char) : Option Nat :=
  let n :=
    if c.isDigit then c.toNat - '0'.toNat
    else if c.isAlpha then 10 + (c.toLower.toNat - 'a'.toNat)
    else base
  if n < base then some n else none

/-- The value of a numeral in some base. -/
def numeral? (base : Nat) (s : Text) : Option Int64 :=
  if s.isEmpty then none
  else s.foldlM (fun n c => (digit? base c).map fun d => n * Int64.ofNat base + Int64.ofNat d) 0

/-- The value of a number: a leading zero makes it octal, `0x` hexadecimal. -/
def number? : Text → Option Int64
  | '0' :: 'x' :: r => numeral? 16 r
  | '0' :: 'X' :: r => numeral? 16 r
  | '0' :: c :: r => numeral? 8 (c :: r)
  | s => numeral? 10 s

/-- The value of a variable: a number with or without a sign, zero if it is not set. -/
def numberOfVariable? (value : Option Text) : Option Int64 :=
  match value with
  | none => some 0
  | some [] => some 0
  | some ('-' :: r) => (number? r).map (- ·)
  | some ('+' :: r) => number? r
  | some s => number? s

mutual

/-- An expression in front of some tokens. -/
def expression : (fuel : Nat) → List Token → Option (Expression × List Token)
  | 0, _ => none
  | fuel + 1, ts => do
    let (a, rest) ← joined fuel levels ts
    match rest with
    | .operator ['?'] :: rest =>
      let (b, rest) ← expression fuel rest
      match rest with
      | .operator [':'] :: rest =>
        let (c, rest) ← expression fuel rest
        return (.choice a b c, rest)
      | _ => none
    | rest => return (a, rest)

/-- An expression whose operators are of some levels. -/
def joined : (fuel : Nat) → List (List Text) → List Token → Option (Expression × List Token)
  | 0, _, _ => none
  | fuel + 1, [], ts => operand fuel ts
  | fuel + 1, operators :: tighter, ts => do
    let (a, rest) ← joined fuel tighter ts
    joinedRest fuel operators tighter a rest

/-- The rest of an expression whose left side is known; operators of one level are joined from the
left. -/
def joinedRest : (fuel : Nat) → (operators : List Text) → (tighter : List (List Text)) →
    Expression → List Token → Option (Expression × List Token)
  | 0, _, _, _, _ => none
  | fuel + 1, operators, tighter, a, .operator s :: rest =>
    if operators.contains s then do
      let (b, rest) ← joined fuel tighter rest
      joinedRest fuel operators tighter (.binary s a b) rest
    else some (a, .operator s :: rest)
  | _, _, _, a, ts => some (a, ts)

/-- An operand. -/
def operand : (fuel : Nat) → List Token → Option (Expression × List Token)
  | 0, _ => none
  | _ + 1, .word w :: rest =>
    if (w.head?.map Char.isDigit).getD false then (number? w).map fun n => (.number n, rest)
    else some (.named w, rest)
  | fuel + 1, .operator ['('] :: rest => do
    let (a, rest) ← expression fuel rest
    if rest.head? = some (.operator [')']) then return (a, rest.drop 1) else none
  | fuel + 1, .operator s :: rest =>
    if (["+", "-", "!", "~"].map String.toList).contains s then
      (operand fuel rest).map fun (a, rest) => (.unary s a, rest)
    else none
  | _, [] => none

end

/-- The expression of a text. A blank text is zero. -/
def read? (s : Text) : Option Expression := do
  let ts ← tokens (s.length + 1) s
  if ts.isEmpty then return .number 0
  let (e, rest) ← expression (12 * ts.length + 12) ts
  if rest.isEmpty then some e else none

/-- The value of a truth value. -/
def truth (b : Bool) : Int64 :=
  if b then 1 else 0

/-- What a unary operator makes of a value. -/
def applied (operator : Text) (a : Int64) : Int64 :=
  match String.ofList operator with
  | "-" => -a
  | "!" => truth (a = 0)
  | "~" => ~~~a
  | _ => a

/-- What a binary operator makes of two values. Nothing is divided by zero. -/
def combined? (operator : Text) (a b : Int64) : Option Int64 :=
  match String.ofList operator with
  | "|" => some (a ||| b)
  | "^" => some (a ^^^ b)
  | "&" => some (a &&& b)
  | "==" => some (truth (a = b))
  | "!=" => some (truth (a ≠ b))
  | "<=" => some (truth (a ≤ b))
  | ">=" => some (truth (b ≤ a))
  | "<" => some (truth (a < b))
  | ">" => some (truth (b < a))
  | "<<" => some (a <<< b)
  | ">>" => some (a >>> b)
  | "+" => some (a + b)
  | "-" => some (a - b)
  | "*" => some (a * b)
  | "/" => if b = 0 then none else some (a / b)
  | "%" => if b = 0 then none else some (a % b)
  | _ => none

/-- The value of an expression among variables. The second side of `&&` and `||` counts only if the
first side does not settle them. -/
def value (variableOf : Text → Option Int64) : Expression → Option Int64
  | .number n => some n
  | .named name => variableOf name
  | .unary operator a => (value variableOf a).map (applied operator)
  | .binary operator a b => do
    let x ← value variableOf a
    if operator = "&&".toList then
      if x = 0 then return 0 else return truth ((← value variableOf b) ≠ 0)
    else if operator = "||".toList then
      if x ≠ 0 then return 1 else return truth ((← value variableOf b) ≠ 0)
    else combined? operator x (← value variableOf b)
  | .choice condition a b => do
    if (← value variableOf condition) ≠ 0 then value variableOf a else value variableOf b

end NativeFreeze.Shell.Arithmetic
