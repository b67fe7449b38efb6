import NativeFreeze.Toml.Value

/-!
# Scalars of configuration documents

Readers for strings, numbers, truth values and dates. A reader takes a value off the front of a text
and answers it with the rest, or refuses the text.
-/

namespace NativeFreeze.Toml

/-- Takes something off the front of a text. -/
abbrev Reader (α : Type) := Text → Option (α × Text)

/-- A space or tab. -/
def isGap (c : Char) : Bool :=
  c == ' ' || c == '\t'

/-- A character that may stand in a comment or in a string as it is. -/
def isPrintable (c : Char) : Bool :=
  c == '\t' || (0x20 ≤ c.toNat && c.toNat != 0x7f)

/-- What follows a line break, if the text starts with one. -/
def afterBreak? : Text → Option Text
  | '\n' :: r => some r
  | '\r' :: '\n' :: r => some r
  | _ => none

/-- The text behind gaps, line breaks and comments; the flag tells that a comment has begun. -/
def skipFiller : (comment : Bool) → Text → Option Text
  | _, [] => some []
  | _, '\n' :: r => skipFiller false r
  | _, '\r' :: '\n' :: r => skipFiller false r
  | true, c :: r => if isPrintable c then skipFiller true r else none
  | false, c :: r =>
    if isGap c then skipFiller false r
    else if c = '#' then skipFiller true r
    else some (c :: r)

/-- The text of the next line, if only gaps and a comment are left of this one. -/
def nextLine? (s : Text) : Option Text :=
  let rest := match s.dropWhile isGap with
    | '#' :: r => r.dropWhile isPrintable
    | r => r
  if rest.isEmpty then some [] else afterBreak? rest

/-- The value of a digit below `base`. -/
def digit? (base : Nat) (c : Char) : Option Nat :=
  let value :=
    if c.isDigit then c.toNat - '0'.toNat
    else if 'a' ≤ c ∧ c ≤ 'f' then c.toNat - 'a'.toNat + 10
    else if 'A' ≤ c ∧ c ≤ 'F' then c.toNat - 'A'.toNat + 10
    else base
  if value < base then some value else none

/-- The value of a run of digits below `base`. -/
def digits? (base : Nat) (s : Text) : Option Nat :=
  s.foldl (fun n c => do return (← n) * base + (← digit? base c)) (some 0)

/-- The character with this number, given in hexadecimal digits. -/
def scalar? (s : Text) : Option Char := do
  let n ← digits? 16 s
  if n < 0xd800 ∨ (0xdfff < n ∧ n < 0x110000) then some (Char.ofNat n) else none

/-- The character that an escape stands for, its backslash read. -/
def escape : Reader Char
  | 'b' :: r => some ('\x08', r)
  | 't' :: r => some ('\t', r)
  | 'n' :: r => some ('\n', r)
  | 'f' :: r => some ('\x0c', r)
  | 'r' :: r => some ('\r', r)
  | 'e' :: r => some ('\x1b', r)
  | '"' :: r => some ('"', r)
  | '\\' :: r => some ('\\', r)
  | 'x' :: r => if r.length < 2 then none else (scalar? (r.take 2)).map (·, r.drop 2)
  | 'u' :: r => if r.length < 4 then none else (scalar? (r.take 4)).map (·, r.drop 4)
  | 'U' :: r => if r.length < 8 then none else (scalar? (r.take 8)).map (·, r.drop 8)
  | _ => none

/-- The rest of a string of one line between double quotes. `fuel` bounds its length. -/
def basicBody : (fuel : Nat) → Reader Text
  | 0, _ => none
  | _ + 1, '"' :: r => some ([], r)
  | fuel + 1, '\\' :: r => do
    let (c, r) ← escape r
    let (s, r) ← basicBody fuel r
    return (c :: s, r)
  | fuel + 1, c :: r =>
    if isPrintable c then (basicBody fuel r).map fun (s, r) => (c :: s, r) else none
  | _ + 1, [] => none

/-- The rest of a string of one line between single quotes. -/
def literalBody : Reader Text
  | '\'' :: r => some ([], r)
  | c :: r => if isPrintable c then (literalBody r).map fun (s, r) => (c :: s, r) else none
  | [] => none

/-- The quotes at the end of a string of several lines that belong to it. The text starts with
three quotes, and one or two more may come before those that close the string. -/
def closing (quote : Char) (s : Text) : Text × Text :=
  let extra := min ((s.takeWhile (· == quote)).length - 3) 2
  (List.replicate extra quote, s.drop (extra + 3))

/-- The text behind an escaped line break: all blanks and line breaks are left out. -/
def joinLines? (s : Text) : Option Text :=
  (afterBreak? (s.dropWhile isGap)).map fun r =>
    r.dropWhile fun c => isGap c || c == '\n' || c == '\r'

/-- The rest of a string of several lines between double quotes. `fuel` bounds its length. -/
def basicLines : (fuel : Nat) → Reader Text
  | 0, _ => none
  | _ + 1, '"' :: '"' :: '"' :: r => some (closing '"' ('"' :: '"' :: '"' :: r))
  | fuel + 1, '\\' :: r =>
    match joinLines? r with
    | some r => basicLines fuel r
    | none => do
      let (c, r) ← escape r
      let (s, r) ← basicLines fuel r
      return (c :: s, r)
  | fuel + 1, '\r' :: '\n' :: r => (basicLines fuel r).map fun (s, r) => ('\n' :: s, r)
  | fuel + 1, c :: r =>
    if isPrintable c || c == '\n' then (basicLines fuel r).map fun (s, r) => (c :: s, r) else none
  | _ + 1, [] => none

/-- The rest of a string of several lines between single quotes. -/
def literalLines : Reader Text
  | '\'' :: '\'' :: '\'' :: r => some (closing '\'' ('\'' :: '\'' :: '\'' :: r))
  | '\r' :: '\n' :: r => (literalLines r).map fun (s, r) => ('\n' :: s, r)
  | c :: r =>
    if isPrintable c || c == '\n' then (literalLines r).map fun (s, r) => (c :: s, r) else none
  | [] => none

/-- The text without a line break at its start. -/
def dropBreak (s : Text) : Text :=
  (afterBreak? s).getD s

/-- A string of any of the four forms. -/
def string : Reader Text
  | '"' :: '"' :: '"' :: r => basicLines (r.length + 1) (dropBreak r)
  | '\'' :: '\'' :: '\'' :: r => literalLines (dropBreak r)
  | '"' :: r => basicBody (r.length + 1) r
  | '\'' :: r => literalBody r
  | _ => none

/-- A string of one line. -/
def lineString : Reader Text
  | '"' :: r => basicBody (r.length + 1) r
  | '\'' :: r => literalBody r
  | _ => none

/-- Digits in which each `_` stands between two digits, without those `_`. -/
def ungrouped? (s : Text) : Option Text :=
  let pieces := Text.split '_' s
  if pieces.any List.isEmpty then none else some pieces.flatten

/-- Decimal digits without a needless zero at the front. -/
def decimal? (s : Text) : Option Nat := do
  let ds ← ungrouped? s
  if ds.length > 1 && ds.head? == some '0' then none else digits? 10 ds

/-- A sign and what follows it. -/
def signed : Text → Int × Text
  | '+' :: r => (1, r)
  | '-' :: r => (-1, r)
  | r => (1, r)

/-- An integer. -/
def integer? : Text → Option Int
  | '0' :: 'x' :: r => do return Int.ofNat (← digits? 16 (← ungrouped? r))
  | '0' :: 'o' :: r => do return Int.ofNat (← digits? 8 (← ungrouped? r))
  | '0' :: 'b' :: r => do return Int.ofNat (← digits? 2 (← ungrouped? r))
  | s => do
    let (sign, r) := signed s
    return sign * Int.ofNat (← decimal? r)

/-- Whether a text is a run of decimal digits with `_` between them. -/
def isDigits (s : Text) : Bool :=
  match ungrouped? s with
  | some ds => !ds.isEmpty && ds.all Char.isDigit
  | none => false

/-- Whether a text is a float. -/
def isFloat (s : Text) : Bool :=
  let r := (signed s).2
  if r == "inf".toList || r == "nan".toList then true
  else
    let mantissa := r.takeWhile fun c => c != 'e' && c != 'E'
    let exponent := (r.dropWhile fun c => c != 'e' && c != 'E').drop 1
    let hasExponent := mantissa.length < r.length
    let exponentFits := !hasExponent || isDigits (signed exponent).2
    match Text.cutAt? '.' mantissa with
    | none => hasExponent && exponentFits && (decimal? mantissa).isSome
    | some (whole, fraction) => exponentFits && (decimal? whole).isSome && isDigits fraction

/-- A number of exactly `width` digits between two bounds. -/
def isField (width low high : Nat) (s : Text) : Bool :=
  s.length == width && s.all Char.isDigit &&
    match Text.toNat? s with
    | some n => low ≤ n && n ≤ high
    | none => false

/-- Whether a text is a day of the calendar. -/
def isDate (s : Text) : Bool :=
  match Text.split '-' s with
  | [year, month, day] =>
    let y := (Text.toNat? year).getD 0
    let m := (Text.toNat? month).getD 0
    let leap := y % 4 == 0 && (y % 100 != 0 || y % 400 == 0)
    let days :=
      if m == 2 then (if leap then 29 else 28)
      else if m == 4 || m == 6 || m == 9 || m == 11 then 30 else 31
    isField 4 0 9999 year && isField 2 1 12 month && isField 2 1 days day
  | _ => false

/-- Whether a text is a time of the day. -/
def isTime (s : Text) : Bool :=
  let whole := s.takeWhile (· != '.')
  let fraction := s.drop (whole.length + 1)
  let fractionFits := whole.length == s.length || (!fraction.isEmpty && fraction.all Char.isDigit)
  match Text.split ':' whole with
  | [hour, minute] => whole.length == s.length && isField 2 0 23 hour && isField 2 0 59 minute
  | [hour, minute, second] =>
    fractionFits && isField 2 0 23 hour && isField 2 0 59 minute && isField 2 0 60 second
  | _ => false

/-- Whether a text is a time of the day, perhaps with an offset. -/
def isOffsetTime (s : Text) : Bool :=
  if s.getLast? == some 'Z' || s.getLast? == some 'z' then isTime s.dropLast
  else
    let time := s.takeWhile fun c => c != '+' && c != '-'
    let offset := s.drop (time.length + 1)
    isTime time && (time.length == s.length ||
      match Text.split ':' offset with
      | [hour, minute] => isField 2 0 23 hour && isField 2 0 59 minute
      | _ => false)

/-- Whether a text is a date, a time, or both. -/
def isMoment (s : Text) : Bool :=
  isDate s || isTime s ||
    (isDate (s.take 10) && ['T', 't', ' '].contains ((s.drop 10).headD 'x') &&
      isOffsetTime (s.drop 11))

/-- A character of an unquoted value. -/
def isTokenChar (c : Char) : Bool :=
  c.isAlphanum || ['_', '+', '-', '.', ':'].contains c

/-- An unquoted value and the rest. A date and a time may be separated by a space. -/
def token (s : Text) : Text × Text :=
  let first := s.takeWhile isTokenChar
  let rest := s.dropWhile isTokenChar
  match rest with
  | ' ' :: c :: r =>
    if isDate first && c.isDigit then
      (first ++ ' ' :: (c :: r).takeWhile isTokenChar, (c :: r).dropWhile isTokenChar)
    else (first, rest)
  | _ => (first, rest)

/-- The value of an unquoted text. -/
def plain? (s : Text) : Option Value :=
  if s = "true".toList then some (.boolean true)
  else if s = "false".toList then some (.boolean false)
  else match integer? s with
    | some n => some (.integer n)
    | none => if isFloat s || isMoment s then some .other else none

end NativeFreeze.Toml
