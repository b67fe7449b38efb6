import NativeFreeze.Layout.Basic
import NativeFreeze.Text.Word

/-!
# Import logs

A verbose interpreter prints one line for each import and, before it, lines about the files it
tried. A log is read in groups: the lines up to an import line, which is their context, and the import line
itself. Each group yields the artifact paths below the install root that its context mentions.
-/

namespace NativeFreeze.ImportLog

/-- The text without a quote at its start. -/
def dropQuote : Text → Text
  | '\'' :: r => r
  | s => s

/-- The module that a line reports as imported: the word `import`, a dotted name, which may stand in
quotes, and a comment. -/
def imported? (line : Text) : Option Text :=
  match Text.after? "import".toList line with
  | none => none
  | some rest =>
    let body := dropQuote (rest.dropWhile Text.isBlank)
    let name := body.takeWhile fun c => Text.isWord c || c == '.'
    let tail := dropQuote (body.dropWhile fun c => Text.isWord c || c == '.')
    let blanks := fun s : Text => !(s.takeWhile Text.isBlank).isEmpty
    if blanks rest && !name.isEmpty && blanks tail &&
        (tail.dropWhile Text.isBlank).head? == some '#'
    then some name else none

/-- A line as paths are compared: on a case-insensitive host without ASCII case and with slashes. -/
def folded (h : Layout) (s : Text) : Text :=
  if h.caseInsensitive then Path.slashed (Text.lower s) else s

/-- The line with each pair of backslashes made one. -/
def unescaped (line : Text) : Text :=
  Text.replace ['\\', '\\'] ['\\'] line

/-- The pieces of a line that start with the install root. -/
def rooted (h : Layout) (line : Text) : List Text :=
  if h.installRoot.text.isEmpty then []
  else
    Text.piecesAt (fun s => (folded h h.installRoot.text).isPrefixOf (folded h s))
      h.installRoot.text.length line

/-- Whether a name may go on with this text, so that a suffix before it is no suffix. -/
def goesOn : Text → Bool
  | [] => false
  | c :: _ => c.isAlphanum || c == '_'

/-- The lengths of the parts of `s` that end in `suffix`, for occurrences found from left to right
without overlap; `read` counts the characters before `s`, `skip` those of an occurrence still to be
passed. -/
def endsFrom (suffix : Text) : (read skip : Nat) → Text → List (Nat × Text)
  | read, 0, [] => if suffix.isEmpty then [(read, [])] else []
  | _, _ + 1, [] => []
  | read, skip + 1, _ :: r => endsFrom suffix (read + 1) skip r
  | read, 0, c :: r =>
    match Text.after? suffix (c :: r) with
    | some rest => (read + suffix.length, rest) :: endsFrom suffix (read + 1) (suffix.length - 1) r
    | none => endsFrom suffix (read + 1) 0 r

/-- The length of the shortest part of `s` that ends in `suffix` where no name goes on. -/
def shortestEnd? (suffix s : Text) : Option Nat :=
  ((endsFrom suffix 0 0 s).find? fun (_, rest) => !goesOn rest).map (·.1)

/-- The smallest of some numbers. -/
def least? : List Nat → Option Nat
  | [] => none
  | n :: ns => some (ns.foldl min n)

/-- The artifact path at the start of a piece that starts with the install root: its shortest part
that ends, behind the root, in an artifact suffix. -/
def artifact? (h : Layout) (piece : Text) : Option Text :=
  let width := h.installRoot.text.length
  (least? (h.artifactSuffixes.filterMap fun suffix => shortestEnd? suffix (piece.drop width))).map
    fun n => piece.take (width + n)

/-- The artifact paths that a context line mentions; those of bytecode are left out. -/
def pathsIn (h : Layout) (line : Text) : List Path :=
  (rooted h (unescaped line)).filterMap fun piece =>
    match artifact? h piece with
    | some p => if Text.endsWith h.bytecodeSuffix p then none else some ⟨p⟩
    | none => none

/-- Paths without those that have the components of an earlier one. -/
def distinct (ps : List Path) : List Path :=
  (ps.foldl (fun seen p => if seen.any p.same then seen else p :: seen) []).reverse

/-- The paths of a group: those of its context, each once, and the shim of the FFI bridge if that is
what was imported. -/
def groupPaths (h : Layout) (context : List Text) (name : Text) : List Path :=
  distinct (context.flatMap (pathsIn h)) ++
    if name = h.ffiBridgeModule then h.ffiShim.toList else []

/-- The paths of the groups in some lines, of which `context` came before. -/
def parseLines (h : Layout) : (context lines : List Text) → List Path
  | _, [] => []
  | context, line :: rest =>
    match imported? line with
    | some name => groupPaths h context name ++ parseLines h [] rest
    | none => parseLines h (context ++ [line]) rest

/-- The lines of a log, without carriage returns at their ends. -/
def lines (log : Text) : List Text :=
  (Text.lines log).map (Text.trimEnd (· == '\r'))

/-- The paths that a log mentions, in order. -/
def parse (h : Layout) (log : Text) : List Path :=
  parseLines h [] (lines log)

/-- The paths that a log mentions and the files that the interpreter always needs. -/
def dependencies (h : Layout) (log : Text) : List Path :=
  parse h log ++ h.requiredFiles

end NativeFreeze.ImportLog
