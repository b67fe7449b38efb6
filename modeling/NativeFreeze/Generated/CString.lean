import NativeFreeze.Text.Basic

/-!
# String literals of C

`CString.escape` writes a text without line breaks so that it can stand between double quotes;
`CString.piece` makes a literal of a line.
-/

namespace NativeFreeze.CString

/-- A text as the inside of a string literal: a backslash goes before `\` and `"`. -/
def escape (s : Text) : Text :=
  s.flatMap fun c => if c = '\\' || c = '"' then ['\\', c] else [c]

/-- The literal of a line and its line break. -/
def piece (line : Text) : Text :=
  '"' :: escape line ++ "\\n\"".toList

@[simp]
theorem escape_nil : escape [] = [] := rfl

@[simp]
theorem escape_append (s t : Text) : escape (s ++ t) = escape s ++ escape t := by
  simp [escape]

end NativeFreeze.CString
