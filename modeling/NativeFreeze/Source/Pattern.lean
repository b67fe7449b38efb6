import NativeFreeze.Source.Basic
import NativeFreeze.Workspace

/-!
# Source patterns

The last component of a pattern may hold wildcards: `*` as the whole stem stands for any stem, `.*`
as the extension for any extension. A pattern is expanded to the regular files of one directory, in
ascending order; without a wildcard it stands for itself.
-/

namespace NativeFreeze

/-- A path whose last component may hold wildcards. Its separators are slashes. -/
structure Pattern where
  path : Path
  deriving DecidableEq, Repr

namespace Pattern

/-- The pattern that a path spells; `\` separates as `/` does. -/
def ofPath (p : Path) : Pattern :=
  ⟨⟨Path.slashed p.text⟩⟩

/-- The stem that a pattern asks for. -/
def stem (p : Pattern) : Text :=
  p.path.stem?.getD []

/-- Whether a pattern admits any stem. -/
def anyStem (p : Pattern) : Bool :=
  p.stem == ['*']

/-- Whether a pattern admits any extension. -/
def anySuffix (p : Pattern) : Bool :=
  p.path.suffix == ['.', '*']

/-- Whether a pattern has to be expanded. -/
def isWild (p : Pattern) : Bool :=
  p.anyStem || p.anySuffix

/-- The directory whose files a pattern stands for, as the pattern gives it. -/
def directory (p : Pattern) : Path :=
  p.path.parent?.getD ⟨[]⟩

/-- The directory to be listed; the empty path stands for the working directory. -/
def searched (p : Pattern) (home : Option Path) : Path :=
  let dir := match home with
    | some home => home.join p.directory
    | none => p.directory
  if dir.text.isEmpty then ⟨['.']⟩ else dir

/-- Whether a pattern admits a file name. -/
def admits (p : Pattern) (name : Text) : Bool :=
  let file : Path := ⟨name⟩
  (p.anyStem || file.stem?.getD [] == p.stem) && (p.anySuffix || file.suffix == p.path.suffix)

/-- The paths, in ascending order, of the files among `entries` that a pattern admits. -/
def select (p : Pattern) (entries : List (Text × Entry)) : List Path :=
  Path.sort <| entries.filterMap fun (name, e) =>
    if e.isFile && p.admits name then some (p.directory.child name) else none

/-- The paths that a pattern stands for, relative to `home`. -/
def expand (p : Pattern) (home : Option Path) : Action (List Path) := do
  if p.isWild then
    return p.select (← Action.ask (some (.listing (p.searched home))) (·.list (p.searched home)))
  else
    return [p.path]

end Pattern

end NativeFreeze
