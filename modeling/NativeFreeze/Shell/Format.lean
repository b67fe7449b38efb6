import NativeFreeze.Text.Utf8

/-!
# Formatted output

What `echo` and `printf` write. Escapes can name any byte, so the output is made of bytes.
-/

namespace NativeFreeze.Shell

/-- The value of a text of octal digits. -/
def octal (digits : Text) : Nat :=
  digits.foldl (fun n c => 8 * n + (c.toNat - '0'.toNat)) 0

/-- A digit of an octal number. -/
def isOctal (c : Char) : Bool :=
  '0' ≤ c && c ≤ '7'

/-- The octal digits at the start of a text, at most `limit` of them. -/
def octalDigits (limit : Nat) (s : Text) : Text :=
  (s.take limit).takeWhile isOctal

/-- What an escape with a letter stands for. -/
def escaped? : Char → Option UInt8
  | '\\' => some 92
  | 'a' => some 7
  | 'b' => some 8
  | 'f' => some 12
  | 'n' => some 10
  | 'r' => some 13
  | 't' => some 9
  | 'v' => some 11
  | _ => none

/-- A text with its escapes replaced, and whether an escape ended the output. Octal numbers follow
the backslash, or also a zero if `zero` says so. `skip` counts characters of the escape before. -/
def unescape (zero : Bool) : (skip : Nat) → Text → Bytes × Bool
  | _, [] => ([], false)
  | skip + 1, _ :: r => unescape zero skip r
  | 0, '\\' :: c :: r =>
    if zero && c = 'c' then ([], true)
    else if zero && c = '0' then
      let digits := octalDigits 3 r
      let (rest, ended) := unescape zero digits.length r
      (UInt8.ofNat (octal digits) :: rest, ended)
    else if isOctal c then
      let digits := octalDigits 3 (c :: r)
      let (rest, ended) := unescape zero (digits.length - 1) r
      (UInt8.ofNat (octal digits) :: rest, ended)
    else
      let (rest, ended) := unescape zero 0 r
      match escaped? c with
      | some b => (b :: rest, ended)
      | none => (Text.bytes ['\\', c] ++ rest, ended)
  | 0, c :: r =>
    let (rest, ended) := unescape zero 0 r
    (Text.bytes [c] ++ rest, ended)

/-- What `echo` writes. -/
def echoed (arguments : List Text) : Bytes :=
  let (silent, words) := match arguments with
    | ['-', 'n'] :: rest => (true, rest)
    | words => (false, words)
  let (bytes, ended) := unescape true 0 (Text.join [' '] words)
  if silent || ended then bytes else bytes ++ [10]

/-- A piece of a format. -/
inductive Conversion
  | plain (bytes : Bytes)
  /-- A directive: aligned to the left, filled with zeros, its width and precision. -/
  | directive (left zeros : Bool) (width : Nat) (precision : Option Nat) (kind : Char)
  deriving DecidableEq, Repr

/-- The pieces of a format. `fuel` bounds its length. -/
def conversions : (fuel : Nat) → Text → List Conversion
  | 0, _ => []
  | _ + 1, [] => []
  | fuel + 1, '%' :: '%' :: r => .plain [37] :: conversions fuel r
  | fuel + 1, '%' :: r =>
    let isFlag := fun c => ['-', '+', ' ', '#', '0'].contains c
    let flags := r.takeWhile isFlag
    let r := r.dropWhile isFlag
    let width := r.takeWhile Char.isDigit
    let r := r.dropWhile Char.isDigit
    let (precision, r) := match r with
      | '.' :: r => (some ((Text.toNat? (r.takeWhile Char.isDigit)).getD 0),
          r.dropWhile Char.isDigit)
      | r => (none, r)
    match r with
    | kind :: r =>
      .directive (flags.contains '-') (flags.contains '0') ((Text.toNat? width).getD 0) precision
        kind :: conversions fuel r
    | [] => []
  | fuel + 1, c :: r =>
    let literal := (c :: r).takeWhile (· != '%')
    .plain (unescape false 0 literal).1 :: conversions fuel ((c :: r).drop literal.length)

/-- The integer that a text names, and whether it is one. -/
def integer (s : Text) : Int × Bool :=
  let (negative, digits) := match s with
    | '-' :: r => (true, r)
    | '+' :: r => (false, r)
    | r => (false, r)
  let front := digits.takeWhile Char.isDigit
  let n : Nat := match digits with
    | '0' :: _ => octal (octalDigits digits.length digits)
    | _ => (Text.toNat? front).getD 0
  (if negative then -(n : Int) else n,
    s.isEmpty || (!front.isEmpty && front.length = digits.length))

/-- Bytes filled up to a width. -/
def padded (left zeros : Bool) (width : Nat) (bytes : Bytes) : Bytes :=
  let fill := List.replicate (width - bytes.length) (if zeros && !left then 48 else 32)
  if left then bytes ++ fill else fill ++ bytes

/-- What a directive makes of an argument: bytes, whether the argument suits it, and whether the
output ends there. -/
def converted (left zeros : Bool) (width : Nat) (precision : Option Nat) (kind : Char)
    (argument : Text) : Bytes × Bool × Bool :=
  let cut := fun (bytes : Bytes) => match precision with
    | some n => bytes.take n
    | none => bytes
  let number := fun (digits : Nat → Text) =>
    let (n, fine) := integer argument
    let body := digits n.natAbs
    let body := List.replicate (precision.getD 1 - body.length) '0' ++ body
    (padded left (zeros && precision.isNone) width
      (Text.bytes (if n < 0 then '-' :: body else body)), fine, false)
  match kind with
  | 's' => (padded left false width (cut argument.bytes), true, false)
  | 'b' =>
    let (bytes, ended) := unescape true 0 argument
    (padded left false width (cut bytes), true, ended)
  | 'c' => (padded left false width (Text.bytes (argument.take 1)), true, false)
  | 'd' => number Text.ofNat
  | 'i' => number Text.ofNat
  | 'u' => number Text.ofNat
  | 'x' => number (Nat.toDigits 16)
  | 'X' => number fun n => (Nat.toDigits 16 n).map Char.toUpper
  | 'o' => number (Nat.toDigits 8)
  | _ => ([], false, true)

/-- What a format makes of some arguments in one pass: bytes, the arguments that are left, whether
all suited it, and whether the output ended. -/
def formatOnce : List Conversion → List Text → Bytes × List Text × Bool × Bool
  | [], arguments => ([], arguments, true, false)
  | .plain bytes :: rest, arguments =>
    let (more, left, fine, ended) := formatOnce rest arguments
    (bytes ++ more, left, fine, ended)
  | .directive left zeros width precision kind :: rest, arguments =>
    let (bytes, fine, ended) := converted left zeros width precision kind (arguments.headD [])
    if ended then (bytes, [], fine, true)
    else
      let (more, arguments, fineRest, ended) := formatOnce rest (arguments.drop 1)
      (bytes ++ more, arguments, fine && fineRest, ended)

/-- What a format makes of some arguments, used again while there are arguments left, and whether
all suited it. `fuel` bounds how often. -/
def formatAll (format : List Conversion) : (fuel : Nat) → List Text → Bytes × Bool
  | 0, _ => ([], true)
  | fuel + 1, arguments =>
    let (bytes, left, fine, ended) := formatOnce format arguments
    if ended || left.isEmpty || left.length = arguments.length then (bytes, fine)
    else
      let (more, fineRest) := formatAll format fuel left
      (bytes ++ more, fine && fineRest)

/-- What `printf` writes, and whether its arguments suit the format. -/
def formatted (format : Text) (arguments : List Text) : Bytes × Bool :=
  formatAll (conversions (format.length + 1) format) (arguments.length + 1) arguments

end NativeFreeze.Shell
