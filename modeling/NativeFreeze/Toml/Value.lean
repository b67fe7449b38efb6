import NativeFreeze.Text.Basic

/-!
# Configuration values

The values of a TOML document, and how records are read from them. A record is written as a table of
its fields or as a list of their values in order. Floats and dates are told apart from the other
values only, since no field takes them.
-/

namespace NativeFreeze.Toml

/-- How a table came to be, which decides what may be added to it. -/
inductive TableKind
  /-- Written between braces; nothing may be added. -/
  | inline
  /-- Only named in front of a subtable; it may still be opened or added to. -/
  | implied
  /-- Made by a dotted key; other dotted keys may add to it. -/
  | dotted
  /-- Opened by its own header. -/
  | opened
  deriving DecidableEq, Repr

/-- A value. -/
inductive Value
  | text (s : Text)
  | integer (n : Int)
  | boolean (b : Bool)
  | other
  /-- A list; one that is written table by table is `growing`. -/
  | list (growing : Bool) (elements : List Value)
  | table (kind : TableKind) (entries : List (Text × Value))

/-- The entries of a table, in the order in which they were written. -/
abbrev Entries := List (Text × Value)

namespace Value

/-- A text. -/
def text? : Value → Option Text
  | text s => some s
  | _ => none

/-- A truth value. -/
def boolean? : Value → Option Bool
  | boolean b => some b
  | _ => none

/-- A natural number below `bound`. -/
def below? (bound : Nat) : Value → Option Nat
  | integer n => if 0 ≤ n ∧ n.toNat < bound then some n.toNat else none
  | _ => none

/-- A list whose elements can all be read. -/
def list? {α : Type} (element? : Value → Option α) : Value → Option (List α)
  | list _ elements => elements.mapM element?
  | _ => none

/-- The fields of a record with these names. In a table that is not `lenient` there are no other
keys; of a list, what goes beyond the names is left out. -/
def fields? (names : List String) (lenient : Bool) : Value → Option Entries
  | table _ entries =>
    if lenient || entries.all fun (key, _) => (names.map String.toList).contains key
    then some entries else none
  | list _ elements => some ((names.map String.toList).zip elements)
  | _ => none

end Value

namespace Entries

/-- A field that has to be there. -/
def required {α : Type} (es : Entries) (key : String) (read? : Value → Option α) : Option α :=
  match es.lookup key.toList with
  | some v => read? v
  | none => none

/-- A field that may be left out. -/
def optional {α : Type} (es : Entries) (key : String) (read? : Value → Option α) :
    Option (Option α) :=
  match es.lookup key.toList with
  | some v => (read? v).map some
  | none => some none

/-- A field with a default. -/
def withDefault {α : Type} (es : Entries) (key : String) (read? : Value → Option α) (default : α) :
    Option α :=
  match es.lookup key.toList with
  | some v => read? v
  | none => some default

end Entries

end NativeFreeze.Toml
