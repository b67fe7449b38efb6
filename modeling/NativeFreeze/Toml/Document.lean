import NativeFreeze.Toml.Scalar

/-!
# Configuration documents

A document is a list of lines: entries with dotted keys, and headers that open a table or another
element of a growing list. Reading one line at a time adds to the table of the document; a line that
would define something twice is refused.
-/

namespace NativeFreeze.Toml

/-- A character of an unquoted key. -/
def isKeyChar (c : Char) : Bool :=
  c.isAlphanum || c == '_' || c == '-'

/-- One key. -/
def simpleKey (s : Text) : Option (Text × Text) :=
  match s with
  | '"' :: _ => lineString s
  | '\'' :: _ => lineString s
  | s =>
    let key := s.takeWhile isKeyChar
    if key.isEmpty then none else some (key, s.dropWhile isKeyChar)

/-- A dotted key and the rest of the line, gaps left out. `fuel` bounds its length. -/
def dottedKey : (fuel : Nat) → Reader (List Text)
  | 0, _ => none
  | fuel + 1, s => do
    let (key, r) ← simpleKey (s.dropWhile isGap)
    match r.dropWhile isGap with
    | '.' :: r =>
      let (keys, r) ← dottedKey fuel r
      return (key :: keys, r)
    | r => return ([key], r)

/-- The entries with `v` in the place of the value of `key`. -/
def replaceEntry (key : Text) (v : Value) (es : Entries) : Entries :=
  es.map fun (k, old) => if k = key then (k, v) else (k, old)

/-- Changes the table that `path` leads to, and makes what is missing on the way. A path of dotted
keys leads only through tables that dotted keys may add to. -/
def descend (dotted : Bool) : (path : List Text) → (Entries → Option Entries) → Entries →
    Option Entries
  | [], change, es => change es
  | key :: path, change, es =>
    match es.lookup key with
    | none => do
      let inner ← descend dotted path change []
      return es ++ [(key, .table (if dotted then .dotted else .implied) inner)]
    | some (.table kind inner) =>
      if kind = .inline || (dotted && kind = .opened) then none
      else do return replaceEntry key (.table kind (← descend dotted path change inner)) es
    | some (.list true elements) =>
      match dotted, elements.getLast? with
      | false, some (.table kind inner) => do
        let inner ← descend dotted path change inner
        return replaceEntry key (.list true (elements.dropLast ++ [.table kind inner])) es
      | _, _ => none
    | some _ => none

/-- Adds a value under a key that is still free. -/
def addEntry (key : Text) (v : Value) (es : Entries) : Option Entries :=
  if (es.lookup key).isSome then none else some (es ++ [(key, v)])

/-- Adds a value under a dotted key. -/
def addDotted (keys : List Text) (v : Value) (es : Entries) : Option Entries :=
  match keys.getLast? with
  | some key => descend true keys.dropLast (addEntry key v) es
  | none => none

/-- Opens a table by its header. -/
def openTable (key : Text) (es : Entries) : Option Entries :=
  match es.lookup key with
  | none => some (es ++ [(key, .table .opened [])])
  | some (.table .implied inner) => some (replaceEntry key (.table .opened inner) es)
  | some _ => none

/-- Opens another element of a growing list. -/
def openElement (key : Text) (es : Entries) : Option Entries :=
  match es.lookup key with
  | none => some (es ++ [(key, .list true [.table .opened []])])
  | some (.list true elements) =>
    some (replaceEntry key (.list true (elements ++ [.table .opened []])) es)
  | some _ => none

mutual

/-- A value. `fuel` bounds its length. -/
def value : (fuel : Nat) → Reader Value
  | 0, _ => none
  | fuel + 1, s =>
    match s with
    | '"' :: _ => (string s).map fun (t, r) => (.text t, r)
    | '\'' :: _ => (string s).map fun (t, r) => (.text t, r)
    | '[' :: r => (elements fuel r).map fun (vs, r) => (.list false vs, r)
    | '\x7b' :: r => (inlineEntries fuel [] r).map fun (es, r) => (.table .inline es, r)
    | s =>
      let (t, r) := token s
      (plain? t).map (·, r)

/-- The rest of a list. -/
def elements : (fuel : Nat) → Reader (List Value)
  | 0, _ => none
  | fuel + 1, s => do
    match ← skipFiller false s with
    | ']' :: r => return ([], r)
    | s =>
      let (v, r) ← value fuel s
      match ← skipFiller false r with
      | ',' :: r =>
        let (vs, r) ← elements fuel r
        return (v :: vs, r)
      | ']' :: r => return ([v], r)
      | _ => none

/-- The rest of a table between braces, of which the entries `es` are read. -/
def inlineEntries : (fuel : Nat) → Entries → Reader Entries
  | 0, _, _ => none
  | fuel + 1, es, s => do
    match ← skipFiller false s with
    | '\x7d' :: r => return (es, r)
    | s =>
      let (keys, r) ← dottedKey (s.length + 1) s
      match r with
      | '=' :: r =>
        let (v, r) ← value fuel (r.dropWhile isGap)
        let es ← addDotted keys v es
        match ← skipFiller false r with
        | ',' :: r => inlineEntries fuel es r
        | '\x7d' :: r => return (es, r)
        | _ => none
      | _ => none

end

/-- A document while it is read: its table and the path of the table that entries go to. -/
structure Progress where
  root : Entries
  current : List Text

/-- Applies a header: `open_` adds the table of its last key. -/
def Progress.header (p : Progress) (keys : List Text)
    (open_ : Text → Entries → Option Entries) : Option Progress := do
  let key ← keys.getLast?
  let root ← descend false keys.dropLast (open_ key) p.root
  return ⟨root, keys⟩

/-- Reads one line that is not empty. -/
def readLine (p : Progress) (s : Text) : Option (Progress × Text) :=
  match s with
  | '[' :: '[' :: r => do
    let (keys, r) ← dottedKey (r.length + 1) r
    match r with
    | ']' :: ']' :: r => return (← p.header keys openElement, ← nextLine? r)
    | _ => none
  | '[' :: r => do
    let (keys, r) ← dottedKey (r.length + 1) r
    match r with
    | ']' :: r => return (← p.header keys openTable, ← nextLine? r)
    | _ => none
  | s => do
    let (keys, r) ← dottedKey (s.length + 1) s
    match r with
    | '=' :: r =>
      let r := r.dropWhile isGap
      let (v, r) ← value (2 * r.length + 2) r
      let root ← descend false p.current (addDotted keys v) p.root
      return (⟨root, p.current⟩, ← nextLine? r)
    | _ => none

/-- Reads the lines of a document. `fuel` bounds their number. -/
def readLines : (fuel : Nat) → Progress → Text → Option Entries
  | 0, _, _ => none
  | fuel + 1, p, s => do
    match ← skipFiller false s with
    | [] => return p.root
    | s =>
      let (p, r) ← readLine p s
      readLines fuel p r

/-- The table of a document. A byte order mark at its start is left out. -/
def parse? (s : Text) : Option Value :=
  let s := match s with
    | '\ufeff' :: r => r
    | s => s
  (readLines (s.length + 1) ⟨[], []⟩ s).map (Value.table .opened)

end NativeFreeze.Toml
