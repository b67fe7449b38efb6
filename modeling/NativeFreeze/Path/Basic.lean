import NativeFreeze.Text.Basic

/-!
# Paths

A path is a text in which `/` separates names. The text is kept as it was written. What a path
names is its list of components: repeated separators, a `.` that is not the first name, and a
separator at the end do not count. Equality of what two paths name (`Path.same`), their order and
the relation "lies below" go by components; joining and taking parents work on the text.
-/

namespace NativeFreeze

/-- A path, as written. -/
structure Path where
  text : Text
  deriving DecidableEq, Repr, Inhabited

namespace Path

/-- One step of a path: the root, the directory itself, the directory above, or a name. -/
inductive Component
  | root
  | here
  | up
  | name (text : Text)
  deriving DecidableEq, Repr

/-- The text of a component. -/
def Component.text : Component → Text
  | root => ['/']
  | here => ['.']
  | up => ['.', '.']
  | name s => s

/-- How a path starts: at the root, with an explicit `.`, or with neither. -/
inductive Anchor
  | root
  | here
  | none
  deriving DecidableEq, Repr

/-- The text of an anchor. -/
def Anchor.text : Anchor → Text
  | root => ['/']
  | here => ['.']
  | none => []

/-- The components that an anchor stands for. -/
def Anchor.components : Anchor → List Component
  | root => [.root]
  | here => [.here]
  | none => []

/-- A path text as its anchor and the pieces between the separators behind it. -/
def parse (s : Text) : Anchor × List Text :=
  match s with
  | '/' :: r => (.root, Text.split '/' r)
  | ['.'] => (.here, [])
  | '.' :: '/' :: r => (.here, [] :: Text.split '/' r)
  | s => (.none, Text.split '/' s)

/-- Whether a piece between two separators adds nothing to a path. -/
def isIdle (piece : Text) : Bool :=
  piece.isEmpty || piece == ['.']

/-- The component that a piece stands for. -/
def component (piece : Text) : Component :=
  if piece = ['.', '.'] then .up else .name piece

/-- The components of a path. -/
def components (p : Path) : List Component :=
  (parse p.text).1.components ++ ((parse p.text).2.filter fun s => !isIdle s).map component

/-- The names among the components. -/
def names (p : Path) : List Text :=
  p.components.filterMap fun
    | .name s => some s
    | _ => none

/-- Pieces without the idle ones at the end. -/
def dropIdle (pieces : List Text) : List Text :=
  (pieces.reverse.dropWhile isIdle).reverse

/-- The text of a path given by its anchor and pieces. -/
def unparse (anchor : Anchor) (pieces : List Text) : Path :=
  ⟨anchor.text ++ Text.join ['/'] pieces⟩

/-- Whether a path starts at the root. -/
def isAbsolute (p : Path) : Bool :=
  p.text.head? == some '/'

/-- The path `q` seen from `p`. An absolute `q` stands for itself; otherwise the texts are joined,
with a separator unless `p` is empty or ends with one. -/
def join (p q : Path) : Path :=
  if q.isAbsolute || p.text.isEmpty then q
  else if p.text.getLast? = some '/' then ⟨p.text ++ q.text⟩
  else ⟨p.text ++ '/' :: q.text⟩

/-- The path of the entry `name` of `p`. -/
def child (p : Path) (name : Text) : Path :=
  p.join ⟨name⟩

/-- The path without its last component, unless there is none or it is the root. -/
def parent? (p : Path) : Option Path :=
  let (anchor, pieces) := parse p.text
  match dropIdle pieces with
  | [] => if anchor = .here then some ⟨[]⟩ else none
  | body => some (unparse anchor (dropIdle body.dropLast))

/-- The path itself, its parent, the parent of that, and so on; `fuel` bounds their number. -/
def ancestorsWithin : Nat → Path → List Path
  | 0, p => [p]
  | fuel + 1, p =>
    match p.parent? with
    | none => [p]
    | some q => p :: ancestorsWithin fuel q

/-- The path itself, its parent, the parent of that, and so on. -/
def ancestors (p : Path) : List Path :=
  ancestorsWithin p.text.length p

/-- The last component, if it is a name. -/
def fileName? (p : Path) : Option Text :=
  match (dropIdle (parse p.text).2).getLast? with
  | some s => if s = ['.', '.'] then none else some s
  | none => none

/-- A file name cut at its last dot into stem and extension. A name without a dot, or whose only
dot is its first character, has no extension. -/
def cutExtension (name : Text) : Text × Option Text :=
  match Text.cutAt? '.' name.reverse with
  | none => (name, none)
  | some (ext, stem) => if stem.isEmpty then (name, none) else (stem.reverse, some ext.reverse)

/-- The file name without its extension. -/
def stem? (p : Path) : Option Text :=
  p.fileName?.map fun name => (cutExtension name).1

/-- The extension with its leading dot, or the empty text. -/
def suffix (p : Path) : Text :=
  match p.fileName? with
  | none => []
  | some name =>
    match (cutExtension name).2 with
    | none => []
    | some ext => '.' :: ext

/-- The path with its extension, and what follows it, replaced by `suffix`, which is empty or starts
with a dot. A path without a file name stays as it is. Where only two dots are left in front of the
extension, they are an upward step and take no suffix. -/
def withSuffix (p : Path) (suffix : Text) : Path :=
  match p.fileName? with
  | none => p
  | some name =>
    let stem := (cutExtension name).1
    if stem = ['.'] && Text.endsWith name p.text then
      ⟨p.text.take (p.text.length - (name.length - 2))⟩
    else
      let (anchor, pieces) := parse p.text
      ⟨(unparse anchor ((dropIdle pieces).dropLast ++ [stem])).text ++ suffix⟩

/-- The components of a path that follow those of `base`, if it starts with them. -/
def componentsAfter? : (base p : List Component) → Option (List Component)
  | [], p => some p
  | _ :: _, [] => none
  | b :: bs, c :: cs => if b = c then componentsAfter? bs cs else none

/-- The components of `p` below `base`, if `p` is `base` or lies below it. -/
def below? (base p : Path) : Option (List Component) :=
  componentsAfter? base.components p.components

/-- Whether two paths have the same components. -/
def same (p q : Path) : Bool :=
  p.components == q.components

/-- The rank of a component's kind: root, the directory itself, the one above, names. -/
def Component.rank : Component → Nat
  | root => 0
  | here => 1
  | up => 2
  | name _ => 3

/-- Components are ordered by kind, names among themselves as texts. -/
def Component.compare : Component → Component → Ordering
  | name a, name b => Text.compare a b
  | a, b => Ord.compare a.rank b.rank

/-- Lists of components are ordered component by component. -/
def compareComponents : List Component → List Component → Ordering
  | [], [] => .eq
  | [], _ :: _ => .lt
  | _ :: _, [] => .gt
  | a :: as, b :: bs => (a.compare b).then (compareComponents as bs)

/-- The order of paths. -/
def compare (p q : Path) : Ordering :=
  compareComponents p.components q.components

/-- Whether `p` comes no later than `q`. -/
def le (p q : Path) : Bool :=
  (p.compare q).isLE

/-- Paths in ascending order; those that compare equal keep their places. -/
def sort (ps : List Path) : List Path :=
  ps.mergeSort le

/-- Every `\` turned into `/`. -/
def slashed (s : Text) : Text :=
  s.map fun c => if c = '\\' then '/' else c

@[simp]
theorem join_absolute {p q : Path} (h : q.isAbsolute = true) : p.join q = q := by
  simp [join, h]

@[simp]
theorem length_slashed (s : Text) : (slashed s).length = s.length := by
  simp [slashed]

theorem componentsAfter?_eq_some_iff {base p rest : List Component} :
    componentsAfter? base p = some rest ↔ p = base ++ rest := by
  induction base generalizing p with
  | nil => simp [componentsAfter?]
  | cons b bs ih =>
    cases p with
    | nil => simp [componentsAfter?]
    | cons c cs =>
      by_cases h : b = c
      · subst h; simp [componentsAfter?, ih]
      · simp [componentsAfter?, h, Ne.symm h]

end Path

end NativeFreeze
