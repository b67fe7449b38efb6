import NativeFreeze.Log

/-!
# Log filters

A filter is a list of directives. A directive sets the least serious level that is written for the
topics whose names start with its own; the one with the longest name decides. A filter without
directives writes errors only.
-/

namespace NativeFreeze.Log

/-- A directive: the start of a topic name, which may be empty, and the rank of the least serious
level that is written. Rank zero writes nothing. -/
structure Directive where
  topic : Text
  rank : Nat
  deriving DecidableEq, Repr

/-- A filter: its directives and a piece of text that every message must hold. -/
structure Filter where
  directives : List Directive
  piece : Text := []
  deriving DecidableEq, Repr

/-- The rank of the least serious level. -/
def mostRecords : Nat := 5

/-- The rank that a text names. -/
def rank? (s : Text) : Option Nat :=
  match String.ofList (Text.lower s) with
  | "off" => some 0
  | "error" => some 1
  | "warn" => some 2
  | "info" => some 3
  | "debug" => some 4
  | "trace" => some 5
  | _ => none

/-- A blank around a directive. -/
def isBlank (c : Char) : Bool :=
  c.isWhitespace

/-- The directive that a text describes: a level, a topic, or both. -/
def Directive.ofText? (s : Text) : Option Directive :=
  let s := Text.trim isBlank s
  match Text.split '=' s with
  | [whole] =>
    if whole.isEmpty then none
    else some (match rank? whole with
      | some rank => ⟨[], rank⟩
      | none => ⟨whole, mostRecords⟩)
  | [topic, level] =>
    let level := Text.trim isBlank level
    if level.isEmpty then some ⟨topic, mostRecords⟩
    else (rank? level).map (Directive.mk topic)
  | _ => none

namespace Filter

/-- The directives in which the last one for each topic holds. -/
def lastOfEach (ds : List Directive) : List Directive :=
  ds.foldl (fun kept d => kept.filter (·.topic != d.topic) ++ [d]) []

/-- The filter that a text describes: directives between commas, and behind a slash the piece of
text that messages must hold. With more slashes it says nothing. -/
def ofText (s : Text) : Filter :=
  let directives := fun (list : Text) =>
    lastOfEach ((Text.split ',' list).filterMap Directive.ofText?)
  match Text.split '/' s with
  | [list] => ⟨directives list, []⟩
  | [list, piece] => ⟨directives list, piece⟩
  | _ => ⟨[], []⟩

/-- The filter that a number of requests for more records stands for. -/
def ofVerbosity : Nat → Filter
  | 0 => ⟨[⟨[], Level.warn.rank⟩], []⟩
  | 1 => ⟨[⟨[], Level.info.rank⟩], []⟩
  | 2 => ⟨[⟨[], Level.debug.rank⟩], []⟩
  | _ => ⟨[⟨[], Level.trace.rank⟩], []⟩

/-- The directive with the longest name that starts the name of a topic. -/
def decisive? (ds : List Directive) (topic : Topic) : Option Directive :=
  (ds.filter fun d => d.topic.isPrefixOf topic.name).foldl (fun best d =>
    match best with
    | some b => if d.topic.length < b.topic.length then some b else some d
    | none => some d) none

/-- Whether a record is written. -/
def admits (f : Filter) (r : Record) : Bool :=
  let directives := if f.directives.isEmpty then [⟨[], Level.error.rank⟩] else f.directives
  ((decisive? directives r.topic).any fun d => r.level.rank ≤ d.rank) &&
    Text.holds f.piece r.message

end Filter

end NativeFreeze.Log
