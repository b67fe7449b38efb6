import NativeFreeze.Text.Basic

/-!
# Shell scripts

Tools of a workspace are small shell scripts. This module has the tokens and terms of such scripts
and the reader that makes terms of a text. Nested pieces of script, in substitutions and expansions,
are kept as text and read when they are run.
-/

namespace NativeFreeze.Shell

/-- A piece of a word. Quoted pieces are neither split nor read as patterns. -/
inductive Fragment
  | literal (quoted : Bool) (s : Text)
  /-- The value of a parameter, changed by an operator and its word. -/
  | parameter (quoted : Bool) (name operator word : Text)
  /-- The output of a script. -/
  | output (quoted : Bool) (script : Text)
  /-- The value of an arithmetic expression. -/
  | arithmetic (quoted : Bool) (expression : Text)
  deriving DecidableEq, Repr

/-- A word, piece by piece. -/
abbrev Word := List Fragment

/-- What a redirection does. -/
inductive RedirectKind
  | read
  | truncate
  | append
  | duplicate
  | here
  deriving DecidableEq, Repr

/-- A redirection of one of the standard streams. -/
structure Redirect where
  stream : Nat
  kind : RedirectKind
  target : Word
  deriving DecidableEq, Repr

/-- A token of a script. -/
inductive Token
  | word (w : Word)
  | operator (s : Text)
  /-- A redirection operator with the number in front of it, if there is one. -/
  | redirect (stream : Option Nat) (kind : RedirectKind) (output : Bool)
  /-- The body of a document that stands in the script. -/
  | document (w : Word)
  deriving DecidableEq, Repr

/-- A term of a script. -/
inductive Term
  | simple (assigned : List (Text × Word)) (words : List Word)
  | group (body : List Term)
  | subshell (body : List Term)
  | branch (arms : List (List Term × List Term)) (otherwise : List Term)
  | each (name : Text) (words : Option (List Word)) (body : List Term)
  | loop (negated : Bool) (condition body : List Term)
  | choose (subject : Word) (arms : List (List Word × List Term))
  | andThen (a b : Term)
  | orElse (a b : Term)
  | negated (a : Term)
  | piped (a b : Term)
  | background (a : Term)
  | redirected (a : Term) (redirects : List Redirect)
  | function (name : Text) (body : Term)
  deriving Inhabited

/-- A character that may start a parameter name. -/
def isNameStart (c : Char) : Bool :=
  c.isAlpha || c == '_'

/-- A character of a parameter name. -/
def isNameChar (c : Char) : Bool :=
  c.isAlphanum || c == '_'

/-- The text up to the bracket that closes a nest, and what follows. `depth` counts the brackets
that are open, `quote` is the quote inside which brackets do not count. -/
def nested (opening closing : Char) : (depth : Nat) → (quote : Option Char) → Text →
    Option (Text × Text)
  | _, _, [] => none
  | depth, some q, c :: r =>
    (nested opening closing depth (if c = q then none else some q) r).map fun (s, r) => (c :: s, r)
  | depth, none, c :: r =>
    if c = closing then
      match depth with
      | 0 => some ([], r)
      | depth + 1 => (nested opening closing depth none r).map fun (s, r) => (c :: s, r)
    else if c = opening then
      (nested opening closing (depth + 1) none r).map fun (s, r) => (c :: s, r)
    else
      (nested opening closing depth (if c = '\'' || c = '"' then some c else none) r).map
        fun (s, r) => (c :: s, r)

/-- The inside of `${…}` as a parameter, an operator and a word. -/
def bracedParameter (inside : Text) : Text × Text × Text :=
  match inside with
  | '#' :: c :: r => (c :: r, "#length".toList, [])
  | _ =>
    let name :=
      if (inside.head?.map isNameStart).getD false then inside.takeWhile isNameChar
      else if (inside.head?.map Char.isDigit).getD false then inside.takeWhile Char.isDigit
      else inside.take 1
    let rest := inside.drop name.length
    match rest with
    | ':' :: c :: word => (name, [':', c], word)
    | '%' :: '%' :: word => (name, "%%".toList, word)
    | '#' :: '#' :: word => (name, "##".toList, word)
    | c :: word => (name, [c], word)
    | [] => (name, [], [])

/-- A fragment that starts with a dollar, the dollar read. -/
def dollar (quoted : Bool) (s : Text) : Option (Fragment × Text) :=
  match s with
  | '(' :: r => do
    match ← nested '(' ')' 0 none r with
    | ('(' :: inside, r) =>
      if inside.getLast? = some ')' then return (.arithmetic quoted inside.dropLast, r) else none
    | (script, r) => return (.output quoted script, r)
  | '\x7b' :: r => (nested '\x7b' '\x7d' 0 none r).map fun (inside, r) =>
      let (name, operator, word) := bracedParameter inside
      (.parameter quoted name operator word, r)
  | c :: r =>
    if isNameStart c then
      some (.parameter quoted ((c :: r).takeWhile isNameChar) [] [],
        (c :: r).dropWhile isNameChar)
    else if c.isDigit || ['@', '*', '#', '?', '$', '!', '-'].contains c then
      some (.parameter quoted [c] [] [], r)
    else some (.literal quoted ['$'], c :: r)
  | [] => some (.literal quoted ['$'], [])

/-- The text up to an unescaped backquote, and what follows. -/
def backquoted : Text → Option (Text × Text)
  | [] => none
  | '\x60' :: r => some ([], r)
  | '\\' :: c :: r =>
    (backquoted r).map fun (s, r) =>
      (if c = '\x60' || c = '\\' || c = '$' then c :: s else '\\' :: c :: s, r)
  | c :: r => (backquoted r).map fun (s, r) => (c :: s, r)

/-- The rest of a double-quoted piece. With no quote to end it, the piece is the whole text.
`fuel` bounds its length. -/
def doubleQuoted (ends : Bool) : (fuel : Nat) → Text → Option (Word × Text)
  | 0, _ => none
  | _ + 1, [] => if ends then none else some ([], [])
  | fuel + 1, '\\' :: c :: r =>
    if c = '\n' then doubleQuoted ends fuel r
    else
      let s := if ['$', '\x60', '"', '\\'].contains c then [c] else ['\\', c]
      (doubleQuoted ends fuel r).map fun (w, r) => (.literal true s :: w, r)
  | fuel + 1, '$' :: r => do
    let (f, r) ← dollar true r
    let (w, r) ← doubleQuoted ends fuel r
    return (f :: w, r)
  | fuel + 1, '\x60' :: r => do
    let (script, r) ← backquoted r
    let (w, r) ← doubleQuoted ends fuel r
    return (.output true script :: w, r)
  | fuel + 1, c :: r =>
    if ends && c = '"' then some ([], r)
    else (doubleQuoted ends fuel r).map fun (w, r) => (.literal true [c] :: w, r)

/-- A character that ends a word. -/
def endsWord (c : Char) : Bool :=
  [' ', '\t', '\n', ';', '&', '|', '<', '>', '(', ')'].contains c

/-- The rest of a word. `stops` says which characters end it. `fuel` bounds its length. -/
def wordBody (stops : Char → Bool) : (fuel : Nat) → Text → Option (Word × Text)
  | 0, _ => none
  | _ + 1, [] => some ([], [])
  | fuel + 1, '\\' :: '\n' :: r => wordBody stops fuel r
  | fuel + 1, '\\' :: c :: r =>
    (wordBody stops fuel r).map fun (w, r) => (.literal true [c] :: w, r)
  | fuel + 1, '\'' :: r => do
    let (inside, r) ← Text.cutAt? '\'' r
    let (w, r) ← wordBody stops fuel r
    return (.literal true inside :: w, r)
  | fuel + 1, '"' :: r => do
    let (inside, r) ← doubleQuoted true fuel r
    let (w, r) ← wordBody stops fuel r
    return (.literal true [] :: inside ++ w, r)
  | fuel + 1, '$' :: r => do
    let (f, r) ← dollar false r
    let (w, r) ← wordBody stops fuel r
    return (f :: w, r)
  | fuel + 1, '\x60' :: r => do
    let (script, r) ← backquoted r
    let (w, r) ← wordBody stops fuel r
    return (.output false script :: w, r)
  | fuel + 1, c :: r =>
    if stops c then some ([], c :: r)
    else (wordBody stops fuel r).map fun (w, r) => (.literal false [c] :: w, r)

/-- The text of a word that is not quoted anywhere. -/
def bare? : Word → Option Text
  | [] => some []
  | .literal false s :: w => (bare? w).map (s ++ ·)
  | _ => none

/-- The text of a word with its quotes removed and nothing expanded. -/
def plain (w : Word) : Text :=
  w.flatMap fun
    | .literal _ s => s
    | _ => []

/-- Whether a word is quoted somewhere. -/
def isQuoted (w : Word) : Bool :=
  w.any fun
    | .literal q _ => q
    | _ => false

/-- The lines of a document up to its end line, and the lines behind that. -/
def documentLines (tabs : Bool) (endLine : Text) : List Text → List Text × List Text
  | [] => ([], [])
  | [[]] => ([], [])
  | line :: rest =>
    let line := if tabs then line.dropWhile (· == '\t') else line
    if line = endLine then ([], rest)
    else
      let (inside, rest) := documentLines tabs endLine rest
      (line :: inside, rest)

/-- The document named by the rest of a line, and the script without it. -/
def document (tabs : Bool) (s : Text) : Option (Word × Text) := do
  let (mark, r) ← wordBody endsWord (s.length + 1) (s.dropWhile fun c => c == ' ' || c == '\t')
  let line := r.takeWhile (· != '\n')
  let below := (r.dropWhile (· != '\n')).drop 1
  let (inside, rest) := documentLines tabs (plain mark) (Text.split '\n' below)
  let body := inside.flatMap (· ++ ['\n'])
  let w ← if isQuoted mark then some [.literal true body]
    else (doubleQuoted false (body.length + 1) body).map (·.1)
  return (w, line ++ '\n' :: Text.join ['\n'] rest)

/-- A redirection operator at the start of a text. -/
def redirectOperator? : Text → Option (RedirectKind × Bool × Text)
  | '>' :: '>' :: r => some (.append, true, r)
  | '>' :: '&' :: r => some (.duplicate, true, r)
  | '>' :: '|' :: r => some (.truncate, true, r)
  | '>' :: r => some (.truncate, true, r)
  | '<' :: '&' :: r => some (.duplicate, false, r)
  | '<' :: r => some (.read, false, r)
  | _ => none

/-- The tokens of a script. `fuel` bounds its length. -/
def tokens : (fuel : Nat) → Text → Option (List Token)
  | 0, _ => none
  | _ + 1, [] => some []
  | fuel + 1, ' ' :: r => tokens fuel r
  | fuel + 1, '\t' :: r => tokens fuel r
  | fuel + 1, '\\' :: '\n' :: r => tokens fuel r
  | fuel + 1, '#' :: r => tokens fuel (r.dropWhile (· != '\n'))
  | fuel + 1, '\n' :: r => (tokens fuel r).map (.operator ['\n'] :: ·)
  | fuel + 1, '&' :: '&' :: r => (tokens fuel r).map (.operator "&&".toList :: ·)
  | fuel + 1, '|' :: '|' :: r => (tokens fuel r).map (.operator "||".toList :: ·)
  | fuel + 1, ';' :: ';' :: r => (tokens fuel r).map (.operator ";;".toList :: ·)
  | fuel + 1, '<' :: '<' :: '-' :: r => do
    let (w, r) ← document true r
    return .redirect none .here false :: .document w :: (← tokens fuel r)
  | fuel + 1, '<' :: '<' :: r => do
    let (w, r) ← document false r
    return .redirect none .here false :: .document w :: (← tokens fuel r)
  | fuel + 1, c :: r =>
    match redirectOperator? (c :: r) with
    | some (kind, out, r) => (tokens fuel r).map (.redirect none kind out :: ·)
    | none =>
      if ['&', '|', ';', '(', ')'].contains c then (tokens fuel r).map (.operator [c] :: ·)
      else
        let number := (c :: r).takeWhile Char.isDigit
        match number.isEmpty, redirectOperator? ((c :: r).dropWhile Char.isDigit) with
        | false, some (kind, out, r) =>
          (tokens fuel r).map (.redirect (Text.toNat? number) kind out :: ·)
        | _, _ => do
          let (w, r) ← wordBody endsWord (fuel + 1) (c :: r)
          return .word w :: (← tokens fuel r)

/-- The reserved word at the front of some tokens. -/
def reserved? : List Token → Option (Text × List Token)
  | .word w :: r => (bare? w).map (·, r)
  | _ => none

/-- What follows an expected reserved word. -/
def afterWord (expected : String) (ts : List Token) : Option (List Token) :=
  match reserved? ts with
  | some (w, r) => if w = expected.toList then some r else none
  | none => none

/-- What follows an expected operator. -/
def afterOperator (expected : String) : List Token → Option (List Token)
  | .operator s :: r => if s = expected.toList then some r else none
  | _ => none

/-- The tokens behind line breaks. -/
def skipBreaks : List Token → List Token
  | .operator ['\n'] :: r => skipBreaks r
  | ts => ts

/-- The tokens behind line breaks and semicolons. -/
def skipEnds : List Token → List Token
  | .operator ['\n'] :: r => skipEnds r
  | .operator [';'] :: r => skipEnds r
  | ts => ts

/-- The reserved words that end a list of terms. -/
def closers : List Text :=
  ["then", "do", "done", "fi", "else", "elif", "esac", "\x7d"].map String.toList

/-- The reserved words that start a term. -/
def openers : List Text :=
  ["if", "while", "until", "for", "case", "\x7b"].map String.toList

/-- Whether a list of terms ends in front of some tokens. -/
def atEnd : List Token → Bool
  | [] => true
  | .operator s :: _ => s = [')'] || s = ";;".toList
  | .word w :: _ => (bare? w).any closers.contains
  | _ => false

/-- The redirections at the front of some tokens. -/
def redirects : (fuel : Nat) → List Token → List Redirect × List Token
  | fuel + 1, .redirect n kind out :: .word w :: r =>
    let (rs, r) := redirects fuel r
    (⟨n.getD (if out then 1 else 0), kind, w⟩ :: rs, r)
  | fuel + 1, .redirect n kind _ :: .document w :: r =>
    let (rs, r) := redirects fuel r
    (⟨n.getD 0, kind, w⟩ :: rs, r)
  | _, ts => ([], ts)

/-- A term with redirections, if there are any. -/
def withRedirects (t : Term) (rs : List Redirect) : Term :=
  if rs.isEmpty then t else .redirected t rs

/-- The name and value of an assignment. -/
def assignment? (w : Word) : Option (Text × Word) :=
  let front := w.takeWhile fun f => match f with
    | .literal false s => s != ['=']
    | _ => false
  match bare? front, w.drop front.length with
  | some name, _ :: value =>
    if (name.head?.map isNameStart).getD false && name.all isNameChar then some (name, value)
    else none
  | _, _ => none

/-- The words, assignments and redirections of a simple command. -/
def simpleParts : (fuel : Nat) → List Token → List (Text × Word) → List Word → List Redirect →
    Term × List Token
  | 0, ts, assigned, words, rs => (withRedirects (.simple assigned words) rs, ts)
  | fuel + 1, ts, assigned, words, rs =>
    match ts with
    | .word w :: r =>
      match words.isEmpty, assignment? w with
      | true, some a => simpleParts fuel r (assigned ++ [a]) words rs
      | _, _ => simpleParts fuel r assigned (words ++ [w]) rs
    | .redirect .. :: _ =>
      match redirects 1 ts with
      | ([], _) => (withRedirects (.simple assigned words) rs, ts)
      | (new, r) => simpleParts fuel r assigned words (rs ++ new)
    | _ => (withRedirects (.simple assigned words) rs, ts)

/-- The words of a `for` loop, up to its end. -/
def loopWords : List Token → List Word × List Token
  | .word w :: r =>
    let (ws, r) := loopWords r
    (w :: ws, r)
  | ts => ([], ts)

/-- The patterns of an arm of a `case`. -/
def armPatterns : (fuel : Nat) → List Token → Option (List Word × List Token)
  | fuel + 1, .word w :: .operator ['|'] :: r => do
    let (ws, r) ← armPatterns fuel r
    return (w :: ws, r)
  | _ + 1, .word w :: .operator [')'] :: r => some ([w], r)
  | _, _ => none

mutual

/-- A list of terms. -/
def terms : (fuel : Nat) → List Token → Option (List Term × List Token)
  | 0, _ => none
  | fuel + 1, ts =>
    let ts := skipEnds ts
    if atEnd ts then some ([], ts) else do
      let (t, r) ← chain fuel ts
      match r with
      | .operator ['&'] :: r =>
        let (rest, r) ← terms fuel r
        return (.background t :: rest, r)
      | .operator s :: _ =>
        if s = [';'] || s = ['\n'] then
          let (rest, r) ← terms fuel r
          return (t :: rest, r)
        else return ([t], r)
      | _ => if atEnd r then return ([t], r) else none

/-- Pipelines joined by `&&` and `||`. -/
def chain : (fuel : Nat) → List Token → Option (Term × List Token)
  | 0, _ => none
  | fuel + 1, ts => do
    let (t, r) ← pipeline fuel ts
    chainRest fuel t r

/-- The rest of a chain whose left side is known. -/
def chainRest : (fuel : Nat) → Term → List Token → Option (Term × List Token)
  | 0, _, _ => none
  | fuel + 1, t, ts =>
    match afterOperator "&&" ts, afterOperator "||" ts with
    | some r, _ => do
      let (u, r) ← pipeline fuel (skipBreaks r)
      chainRest fuel (.andThen t u) r
    | _, some r => do
      let (u, r) ← pipeline fuel (skipBreaks r)
      chainRest fuel (.orElse t u) r
    | none, none => some (t, ts)

/-- Commands joined by `|`. -/
def pipeline : (fuel : Nat) → List Token → Option (Term × List Token)
  | 0, _ => none
  | fuel + 1, ts =>
    match afterWord "!" ts with
    | some r => do
      let (t, r) ← pipeline fuel r
      return (.negated t, r)
    | none => do
      let (t, r) ← command fuel ts
      match afterOperator "|" r with
      | some r =>
        let (u, r) ← pipeline fuel (skipBreaks r)
        return (.piped t u, r)
      | none => return (t, r)

/-- A command. -/
def command : (fuel : Nat) → List Token → Option (Term × List Token)
  | 0, _ => none
  | fuel + 1, ts => do
    match afterOperator "(" ts with
    | some r =>
      let (body, r) ← terms fuel r
      let r ← afterOperator ")" r
      let (rs, r) := redirects r.length r
      return (withRedirects (.subshell body) rs, r)
    | none =>
    match compound fuel ts with
    | some (t, r) =>
      let (rs, r) := redirects r.length r
      return (withRedirects t rs, r)
    | none =>
    match ts with
    | .word w :: .operator ['('] :: .operator [')'] :: r =>
      let name ← bare? w
      let (body, r) ← command fuel (skipBreaks r)
      return (.function name body, r)
    | _ =>
      if (reserved? ts).any fun (w, _) => openers.contains w || closers.contains w then none
      else
        let (t, r) := simpleParts ts.length ts [] [] []
        if r.length = ts.length then none else return (t, r)

/-- A command that starts with a reserved word. -/
def compound : (fuel : Nat) → List Token → Option (Term × List Token)
  | 0, _ => none
  | fuel + 1, ts => do
    let (w, r) ← reserved? ts
    if w = ['\x7b'] then
      let (body, r) ← terms fuel r
      return (.group body, ← afterWord "\x7d" r)
    else if w = "if".toList then branches fuel r
    else if w = "while".toList || w = "until".toList then
      let (condition, r) ← terms fuel r
      let (body, r) ← terms fuel (← afterWord "do" r)
      return (.loop (w = "until".toList) condition body, ← afterWord "done" r)
    else if w = "for".toList then
      let (name, r) ← reserved? r
      let r := skipBreaks r
      let (words, r) := match afterWord "in" r with
        | some r => (some (loopWords r).1, (loopWords r).2)
        | none => (none, r)
      let (body, r) ← terms fuel (← afterWord "do" (skipEnds r))
      return (.each name words body, ← afterWord "done" r)
    else if w = "case".toList then
      match r with
      | .word subject :: r =>
        let (found, r) ← arms fuel (skipBreaks (← afterWord "in" (skipBreaks r)))
        return (.choose subject found, r)
      | _ => none
    else none

/-- The arms of an `if`, behind the word that opens one. -/
def branches : (fuel : Nat) → List Token → Option (Term × List Token)
  | 0, _ => none
  | fuel + 1, ts => do
    let (condition, r) ← terms fuel ts
    let (body, r) ← terms fuel (← afterWord "then" r)
    let (w, r) ← reserved? r
    if w = "elif".toList then
      let (t, r) ← branches fuel r
      match t with
      | .branch others otherwise => return (.branch ((condition, body) :: others) otherwise, r)
      | _ => none
    else if w = "else".toList then
      let (otherwise, r) ← terms fuel r
      return (.branch [(condition, body)] otherwise, ← afterWord "fi" r)
    else if w = "fi".toList then return (.branch [(condition, body)] [], r)
    else none

/-- The arms of a `case`, up to its end. -/
def arms : (fuel : Nat) → List Token → Option (List (List Word × List Term) × List Token)
  | 0, _ => none
  | fuel + 1, ts =>
    let ts := skipBreaks ts
    match afterWord "esac" ts with
    | some r => some ([], r)
    | none => do
      let ts := (afterOperator "(" ts).getD ts
      let (patterns, r) ← armPatterns ts.length ts
      let (body, r) ← terms fuel r
      match afterOperator ";;" r with
      | some r =>
        let (rest, r) ← arms fuel r
        return ((patterns, body) :: rest, r)
      | none => return ([(patterns, body)], ← afterWord "esac" (skipEnds r))

end

/-- The terms of a script. -/
def read? (script : Text) : Option (List Term) := do
  let ts ← tokens (script.length + 1) script
  let (found, rest) ← terms (8 * ts.length + 8) ts
  if rest.isEmpty then some found else none

end NativeFreeze.Shell
