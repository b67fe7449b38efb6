import NativeFreeze.Proofs.Generated.Bootstrap

/-!
# Filling all slots at once

The template is filled one slot after the other, and each step runs over the values that were put in
before. Behind each slot the template has a bar, so what becomes of a slot depends on the text in its
place only. As long as no value spells a slot, each step therefore changes its own slot and nothing
else, and the bootstrap is the template with all slots replaced at the same time.
-/

namespace NativeFreeze.Bootstrap

variable {value texts : Slot → Text} {slots : List Slot} {s t : Text} {ps : List Piece}

/-! ## Templates with texts in the place of slots -/

/-- A template with a text in the place of each slot. -/
def filled (texts : Slot → Text) (ps : List Piece) : Text :=
  ps.flatMap fun
    | .text s => s
    | .slot slot => texts slot

/-- A text with a line break and without the characters that a slot starts or ends with. -/
def Between (t : Text) : Prop :=
  '\n' ∈ t ∧ '/' ∉ t ∧ '@' ∉ t

instance (t : Text) : Decidable (Between t) :=
  inferInstanceAs (Decidable (_ ∧ _))

theorem spelling_borders (slot : Slot) :
    (slot.spelling.head? = some '/' ∨ slot.spelling.head? = some '@') ∧
      (slot.spelling.getLast? = some '/' ∨ slot.spelling.getLast? = some '@') := by
  have each : ∀ slot ∈ Slot.all,
      (slot.spelling.head? = some '/' ∨ slot.spelling.head? = some '@') ∧
        (slot.spelling.getLast? = some '/' ∨ slot.spelling.getLast? = some '@') := by
    unfold Slot.spelling
    repeat rw [String.toList_ofList]
    decide
  exact each slot (mem_all slot)

theorem Between.bars (h : Between t) (slot : Slot) : Text.Bars slot.spelling t := by
  obtain ⟨newline, slash, sign⟩ := h
  obtain ⟨first, last⟩ := spelling_borders slot
  constructor
  · exact ⟨'\n', newline, apart_marks.1 slot (mem_all slot)⟩
  · intro c hc start
    rw [start] at first
    rcases first with h | h
    · exact slash (Option.some.inj h ▸ hc)
    · exact sign (Option.some.inj h ▸ hc)
  · intro c hc tail
    rw [tail] at last
    rcases last with h | h
    · exact slash (Option.some.inj h ▸ hc)
    · exact sign (Option.some.inj h ▸ hc)

/-- A text with some slots replaced by their values, all at the same time. -/
def substitute (value : Slot → Text) (slots : List Slot) (code : Text) : Text :=
  Text.substitute (slots.map fun slot => (slot.spelling, value slot)) code

theorem replace_eq_substitute (slot : Slot) (code : Text) :
    Text.replace slot.spelling (value slot) code = substitute value [slot] code :=
  Text.replace_eq_substitute (spelling_ne_nil slot) _ code

theorem substitute_append_bar (bars : ∀ slot ∈ slots, Text.Bars slot.spelling t) (s rest : Text) :
    substitute value slots (s ++ t ++ rest) =
      substitute value slots s ++ t ++ substitute value slots rest := by
  apply Text.substitute_append_bar
  · simpa using fun slot (_ : slot ∈ slots) => spelling_ne_nil slot
  · simpa using bars

theorem substitute_eq_self (h : ∀ slot ∈ slots, Text.holds slot.spelling s = false) :
    substitute value slots s = s := by
  apply Text.substitute_eq_self
  simpa using h

section Registered
variable {r : Registration}

end Registered

end NativeFreeze.Bootstrap
