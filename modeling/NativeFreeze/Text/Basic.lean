/-!
# Text

A text is the list of its characters, so that a statement about a text is a statement about a list.
This module holds the operations the rest of the library is built from: splitting and joining,
finding and replacing a piece of text, and decimal numerals.
-/

namespace NativeFreeze

/-- A text is the list of its characters. -/
abbrev Text := List Char

namespace Text

/-- Puts `c` in front of the first piece. -/
def consFirst (c : Char) : List Text → List Text
  | [] => [[c]]
  | p :: ps => (c :: p) :: ps

/-- The pieces between the characters that satisfy `sep`. There is always one piece more than
there are separators. -/
def splitOn (sep : Char → Bool) : Text → List Text
  | [] => [[]]
  | c :: r => if sep c then [] :: splitOn sep r else consFirst c (splitOn sep r)

/-- The pieces between the occurrences of the character `sep`. -/
def split (sep : Char) (s : Text) : List Text :=
  splitOn (· == sep) s

/-- The pieces with `sep` between neighbours. -/
def join (sep : Text) (pieces : List Text) : Text :=
  sep.intercalate pieces

/-- What follows `head` in `s`, if `s` starts with it. -/
def after? : (head s : Text) → Option Text
  | [], s => some s
  | _ :: _, [] => none
  | h :: hs, c :: cs => if h = c then after? hs cs else none

/-- Whether `s` ends with `tail`. -/
def endsWith (tail s : Text) : Bool :=
  tail.isSuffixOf s

/-- `s` cut in two in front of the first occurrence of `piece`. -/
def cutBefore? (piece : Text) : Text → Option (Text × Text)
  | [] => if piece.isEmpty then some ([], []) else none
  | c :: r =>
    if piece.isPrefixOf (c :: r) then some ([], c :: r)
    else (cutBefore? piece r).map fun (front, rest) => (c :: front, rest)

/-- `s` cut in two in front of its first occurrence of `sep`, which is dropped. -/
def cutAt? (sep : Char) : Text → Option (Text × Text)
  | [] => none
  | c :: r =>
    if c = sep then some ([], r)
    else (cutAt? sep r).map fun (front, rest) => (c :: front, rest)

/-- Whether `piece` occurs in `s`. -/
def holds (piece s : Text) : Bool :=
  (cutBefore? piece s).isSome

/-- Replaces the occurrences of a nonempty `old` from left to right; the first argument counts the
characters of an occurrence that are still to be dropped. -/
def replaceFrom (old new : Text) : Nat → Text → Text
  | _, [] => []
  | k + 1, _ :: r => replaceFrom old new k r
  | 0, c :: r =>
    if old.isPrefixOf (c :: r) then new ++ replaceFrom old new (old.length - 1) r
    else c :: replaceFrom old new 0 r

/-- Every occurrence of `old` replaced by `new`, found from left to right without overlap. The
empty text occurs in front of every character and at the end. -/
def replace (old new s : Text) : Text :=
  if old.isEmpty then s.foldr (fun c r => new ++ c :: r) new
  else replaceFrom old new 0 s

/-- Cuts a text in front of each place where `hit` holds of the rest; a place found hides the ones
inside the next `width` characters. The first piece is what comes before the first place. -/
def cutsFrom (hit : Text → Bool) (width : Nat) : Nat → Text → List Text
  | _, [] => [[]]
  | k + 1, c :: r => consFirst c (cutsFrom hit width k r)
  | 0, c :: r =>
    if hit (c :: r) then [] :: consFirst c (cutsFrom hit width (width - 1) r)
    else consFirst c (cutsFrom hit width 0 r)

/-- The pieces of `s` that start at the places where `hit` holds. -/
def piecesAt (hit : Text → Bool) (width : Nat) (s : Text) : List Text :=
  (cutsFrom hit width 0 s).tail

/-- The lines of a text; a line break at the very end does not open another line. -/
def lines (s : Text) : List Text :=
  match (split '\n' s).reverse with
  | [] :: rest => rest.reverse
  | _ => split '\n' s

/-- `s` without the characters at its end that satisfy `p`. -/
def trimEnd (p : Char → Bool) (s : Text) : Text :=
  (s.reverse.dropWhile p).reverse

/-- `s` without the characters at its start and end that satisfy `p`. -/
def trim (p : Char → Bool) (s : Text) : Text :=
  trimEnd p (s.dropWhile p)

/-- The decimal numeral of a natural number. -/
def ofNat (n : Nat) : Text :=
  Nat.toDigits 10 n

/-- The value of a nonempty run of decimal digits. -/
def toNat? (s : Text) : Option Nat :=
  if s.isEmpty || !s.all Char.isDigit then none
  else some (s.foldl (fun n c => 10 * n + (c.toNat - '0'.toNat)) 0)

/-- `s` with ASCII capitals made small. -/
def lower (s : Text) : Text :=
  s.map Char.toLower

/-- Characters are ordered by code point, texts character by character; a text comes before its
extensions. -/
def compare : Text → Text → Ordering
  | [], [] => .eq
  | [], _ :: _ => .lt
  | _ :: _, [] => .gt
  | a :: as, b :: bs => (Ord.compare a.toNat b.toNat).then (compare as bs)

/-- Whether `a` comes no later than `b`. -/
def le (a b : Text) : Bool :=
  (compare a b).isLE

@[simp]
theorem consFirst_ne_nil (c : Char) (ps : List Text) : consFirst c ps ≠ [] := by
  cases ps <;> simp [consFirst]

@[simp]
theorem splitOn_ne_nil (sep : Char → Bool) (s : Text) : splitOn sep s ≠ [] := by
  cases s with
  | nil => simp [splitOn]
  | cons c r => by_cases h : sep c <;> simp [splitOn, h]

@[simp]
theorem flatten_consFirst (c : Char) (ps : List Text) :
    (consFirst c ps).flatten = c :: ps.flatten := by
  cases ps <;> simp [consFirst]

/-- Cutting loses nothing. -/
theorem flatten_cutsFrom (hit : Text → Bool) (width k : Nat) (s : Text) :
    (cutsFrom hit width k s).flatten = s := by
  induction s generalizing k with
  | nil => cases k <;> simp [cutsFrom]
  | cons c r ih =>
    cases k with
    | zero => by_cases h : hit (c :: r) <;> simp [cutsFrom, h, ih]
    | succ k => simp [cutsFrom, ih]

/-- The two parts of a cut make up the text. -/
theorem append_of_cutBefore? {piece s front rest : Text}
    (h : cutBefore? piece s = some (front, rest)) :
    front ++ rest = s := by
  induction s generalizing front with
  | nil => by_cases hp : piece.isEmpty <;> simp_all [cutBefore?]
  | cons c r ih =>
    by_cases hp : piece.isPrefixOf (c :: r)
    · simp_all [cutBefore?]
    · simp only [cutBefore?, hp, Bool.false_eq_true, if_false, Option.map_eq_some_iff, Prod.exists,
        Prod.mk.injEq] at h
      obtain ⟨a, b, hab, rfl, rfl⟩ := h
      simp [ih hab]

end Text

end NativeFreeze
