import Mathlib.Data.List.Basic
import NativeFreeze.Proofs.Path.Components
import NativeFreeze.Proofs.Path.Order

/-!
# Paths that differ in their extension

A path with a new extension has the components that it had, up to the last one, which is the stem and
the new extension. So two paths with the same new extension are the same exactly if they were twins: the
same but for the extension. A name whose stem is a dot is left out: without its extension it is a step,
not a name.
-/

namespace NativeFreeze

theorem Text.join_concat (sep : Char) (front : List Text) (last : Text) :
    Text.join [sep] (front ++ [last]) = front.flatMap (· ++ [sep]) ++ last := by
  induction front with
  | nil => simp [Text.join]
  | cons first front ih =>
    have step : Text.join [sep] (first :: (front ++ [last])) =
        first ++ sep :: Text.join [sep] (front ++ [last]) := by
      cases front <;> simp [Text.join]
    rw [List.cons_append, step, ih]
    simp

theorem Text.join_append {sep : Char} {front : List Text} (full : front ≠ []) (rest : List Text) :
    Text.join [sep] (front ++ rest) = Text.join [sep] front ++ rest.flatMap (sep :: ·) := by
  obtain ⟨first, front, rfl⟩ := List.exists_cons_of_ne_nil full
  rw [List.cons_append, Text.join_cons, Text.join_cons, List.flatMap_append, List.append_assoc]

namespace Path

variable {p q : Path} {s t name piece head stem ext : Text}

/-! ## File names -/

theorem getLast?_trail (s : Text) : (trail s).getLast? = (lastPiece? s).map component := by
  rw [trail, List.getLast?_map, List.getLast?_eq_head?_reverse, ← List.filter_reverse,
    List.head?_filter, lastPiece?]

/-- The file name of a path is its last component, if that is a name. -/
theorem fileName?_eq_some_iff :
    p.fileName? = some name ↔ p.components.getLast? = some (.name name) := by
  have anchor : (parse p.text).1.components.getLast? ≠ some (.name name) := by
    cases (parse p.text).1 <;> simp [Anchor.components]
  rw [fileName?_eq, components_eq, List.getLast?_append, getLast?_trail, Option.filter_eq_some_iff]
  cases lastPiece? p.text with
  | none => simpa using anchor
  | some piece =>
    by_cases up : piece = ['.', '.']
    · subst up
      refine iff_of_false ?_ (by simp [component])
      rintro ⟨same, other⟩
      simp [← Option.some.inj same] at other
    · simp only [Option.some.injEq, Option.map_some, Option.some_or, component, if_neg up,
        Component.name.injEq]
      constructor
      · exact fun h => h.1
      · rintro rfl
        simpa using up

theorem components_of_fileName? (h : p.fileName? = some name) :
    p.components = p.components.dropLast ++ [.name name] :=
  (List.dropLast_append_getLast? _ (fileName?_eq_some_iff.mp h)).symm

theorem fileName?_of_same (h : p.same q = true) : p.fileName? = q.fileName? := by
  have same := same_iff.mp h
  apply Option.ext
  intro name
  rw [fileName?_eq_some_iff, fileName?_eq_some_iff, same]

theorem suffix_of_same (h : p.same q = true) : p.suffix = q.suffix := by
  rw [suffix, suffix, fileName?_of_same h]

/-! ## Where the file name stands -/

theorem text_parse (s : Text) : (parse s).1.text ++ Text.join ['/'] (parse s).2 = s := by
  unfold parse
  split
  · simp [Anchor.text]
  · rfl
  · rename_i r
    have pieces : Text.join ['/'] ([] :: Text.split '/' r) = '/' :: r := by
      obtain ⟨first, rest, hr⟩ := List.exists_cons_of_ne_nil (Text.split_ne_nil '/' r)
      have whole := Text.join_split '/' r
      rw [hr] at whole ⊢
      rw [← whole]
      simp [Text.join]
    simp [Anchor.text, pieces]
  · simp [Anchor.text]

/-- A piece in front of which there is nothing, or a separator, is a component of its own. -/
theorem components_append_piece (front : head = [] ∨ head.getLast? = some '/')
    (whole : '/' ∉ piece) (busy : isIdle piece = false) :
    components ⟨head ++ piece⟩ = components ⟨head⟩ ++ [component piece] := by
  have alone : trail piece = [component piece] := by
    simp [trail, Text.split_eq_singleton whole, busy]
  rcases front with rfl | slash
  · have mem : component piece ∈ trail piece := alone ▸ List.mem_singleton_self _
    have itself := components_of_mem_trail mem
    rw [component_text] at itself
    exact itself
  · obtain ⟨back, rfl⟩ := List.getLast?_eq_some_iff.mp slash
    rw [List.append_assoc, List.singleton_append, components_slash, alone]

theorem components_append_idle {pieces : List Text} (full : s ≠ [])
    (idle : ∀ piece ∈ pieces, isIdle piece = true) :
    components ⟨s ++ pieces.flatMap ('/' :: ·)⟩ = components ⟨s⟩ := by
  induction pieces generalizing s with
  | nil => simp
  | cons piece pieces ih =>
    obtain ⟨first, others⟩ := List.forall_mem_cons.mp idle
    have nothing : trail piece = [] := by
      rcases (by simpa [isIdle] using first : piece = [] ∨ piece = ['.']) with rfl | rfl <;> rfl
    have longer : s ++ '/' :: piece ≠ [] := by simp
    rw [List.flatMap_cons, ← List.append_assoc, ih longer others, components_append full, nothing,
      List.append_nil]

theorem parse_here (h : (parse s).1 = .here) : ∀ first ∈ (parse s).2.head?, first = [] := by
  unfold parse at h ⊢
  split at h <;> simp_all

theorem dropIdle_of_fileName? (h : p.fileName? = some name) :
    ∃ front, dropIdle (parse p.text).2 = front ++ [name] := by
  rw [fileName?] at h
  split at h
  · rename_i piece last
    split at h
    · simp at h
    · exact List.getLast?_eq_some_iff.mp (h ▸ last)
  · simp at h

theorem exists_dropIdle_append (pieces : List Text) :
    ∃ tail, dropIdle pieces ++ tail = pieces ∧ ∀ piece ∈ tail, isIdle piece = true := by
  refine ⟨(pieces.reverse.takeWhile isIdle).reverse, ?_, fun piece hp => ?_⟩
  · rw [dropIdle, ← List.reverse_append, List.takeWhile_append_dropWhile, List.reverse_reverse]
  · exact List.mem_takeWhile_imp (List.mem_reverse.mp hp)

/-- A path is its file name behind a head, with idle pieces behind the name. A new extension is put
behind the stem. -/
theorem exists_text_of_fileName? (h : p.fileName? = some name) : ∃ (head : Text) (tail : List Text),
    (head = [] ∨ head.getLast? = some '/') ∧ p.text = head ++ name ++ tail.flatMap ('/' :: ·) ∧
      (∀ piece ∈ tail, isIdle piece = true) ∧
      ((cutExtension name).1 ≠ ['.'] →
        ∀ s, p.withSuffix s = ⟨head ++ ((cutExtension name).1 ++ s)⟩) := by
  obtain ⟨-, busy⟩ := mem_of_fileName? h
  obtain ⟨front, named⟩ := dropIdle_of_fileName? h
  obtain ⟨tail, pieces, idle⟩ := exists_dropIdle_append (parse p.text).2
  rw [named] at pieces
  refine ⟨(parse p.text).1.text ++ front.flatMap (· ++ ['/']), tail, ?_, ?_, idle, fun plain s => ?_⟩
  · rcases List.eq_nil_or_concat front with rfl | ⟨front, last, rfl⟩
    · cases anchor : (parse p.text).1 with
      | root => exact .inr rfl
      | none => exact .inl rfl
      | here =>
        have empty : name = [] := parse_here anchor name (by simp [← pieces])
        simp [empty, isIdle] at busy
    · right
      simp
  · have text := text_parse p.text
    rw [← pieces, Text.join_append (by simp), Text.join_concat, ← List.append_assoc,
      ← List.append_assoc] at text
    exact text.symm
  · have suffixed : p.withSuffix s = ⟨(unparse (parse p.text).1
        ((dropIdle (parse p.text).2).dropLast ++ [(cutExtension name).1])).text ++ s⟩ := by
      rw [withSuffix, h]
      simp [plain]
    rw [suffixed, unparse, named, List.dropLast_concat, Text.join_concat]
    simp

/-- What stands behind the file name does not count. -/
theorem exists_head_of_fileName? (h : p.fileName? = some name) : ∃ head : Text,
    (head = [] ∨ head.getLast? = some '/') ∧ p.components = components ⟨head ++ name⟩ ∧
      ((cutExtension name).1 ≠ ['.'] →
        ∀ s, p.withSuffix s = ⟨head ++ ((cutExtension name).1 ++ s)⟩) := by
  obtain ⟨-, busy⟩ := mem_of_fileName? h
  obtain ⟨head, tail, front, text, idle, suffixed⟩ := exists_text_of_fileName? h
  refine ⟨head, front, ?_, suffixed⟩
  have full : head ++ name ≠ [] := by
    intro none
    obtain ⟨-, empty⟩ := List.append_eq_nil_iff.mp none
    simp [empty, isIdle] at busy
  rw [← components_append_idle full idle, ← text]

/-! ## New extensions -/

theorem cutExtension_append (full : stem ≠ []) (dot : '.' ∉ ext) :
    cutExtension (stem ++ '.' :: ext) = (stem, some ext) := by
  have cut : Text.cutAt? '.' (stem ++ '.' :: ext).reverse = some (ext.reverse, stem.reverse) := by
    rw [List.reverse_append, List.reverse_cons, List.append_assoc]
    exact Text.cutAt?_append (by simpa using dot) _
  rw [cutExtension, cut]
  simp [full]

theorem append_of_cutExtension (h : (cutExtension name).2 = some ext) :
    name = (cutExtension name).1 ++ '.' :: ext := by
  unfold cutExtension at h ⊢
  split at h
  · simp at h
  · rename_i back front cut
    split at h
    · simp at h
    · rename_i full
      have whole := Text.append_of_cutAt? cut
      obtain rfl := Option.some.inj h
      rw [if_neg full]
      simpa using congrArg List.reverse whole

/-- Two paths that are the same but for their extension. -/
def Twins (p q : Path) : Prop :=
  p.components.dropLast = q.components.dropLast ∧ p.stem? = q.stem?

instance (p q : Path) : Decidable (Twins p q) :=
  inferInstanceAs (Decidable (_ ∧ _))

section Extension
variable (slash : '/' ∉ ext) (dot : '.' ∉ ext)
include slash

/-- The components of a path with a new extension. -/
theorem components_withSuffix (hp : p.stem? = some stem) (plain : stem ≠ ['.']) :
    (p.withSuffix ('.' :: ext)).components =
      p.components.dropLast ++ [.name (stem ++ '.' :: ext)] := by
  obtain ⟨name, named, rfl⟩ := Option.map_eq_some_iff.mp hp
  obtain ⟨inside, busy⟩ := mem_of_fileName? named
  obtain ⟨head, front, whole, suffixed⟩ := exists_head_of_fileName? named
  have segment : '/' ∉ name := Text.not_mem_of_mem_split inside
  have old : p.components.dropLast = components ⟨head⟩ := by
    rw [whole, components_append_piece front segment busy, List.dropLast_concat]
  have outside : '/' ∉ (cutExtension name).1 := fun h => segment (stem_subset name h)
  have segment' : '/' ∉ (cutExtension name).1 ++ '.' :: ext := by
    simp [slash, outside]
  rw [suffixed plain, old]
  have full := stem_ne_nil busy
  generalize (cutExtension name).1 = stem at plain full segment' ⊢
  have busy' : isIdle (stem ++ '.' :: ext) = false := by
    cases stem <;> simp [isIdle] at full ⊢
  have real : stem ++ '.' :: ext ≠ ['.', '.'] := by
    intro dots
    rcases stem with _ | ⟨c, _ | ⟨d, rest⟩⟩
    · exact full rfl
    · simp only [List.cons_append, List.nil_append, List.cons.injEq] at dots
      exact plain (by rw [dots.1])
    · simp at dots
  rw [components_append_piece front segment' busy', component, if_neg real]

/-- With the same new extension, two paths are the same exactly if they are twins. -/
theorem withSuffix_same_iff (hp : p.stem? = some s) (hq : q.stem? = some t) (plainS : s ≠ ['.'])
    (plainT : t ≠ ['.']) :
    (p.withSuffix ('.' :: ext)).same (q.withSuffix ('.' :: ext)) = true ↔ Twins p q := by
  rw [same_iff, components_withSuffix slash hp plainS, components_withSuffix slash hq plainT,
    List.append_singleton_inj, Component.name.injEq, List.append_left_inj, Twins, hp, hq,
    Option.some.injEq]

include dot

/-- A path with a new extension is the same as another exactly if that is its twin and has the
extension. -/
theorem withSuffix_same_iff_suffix (hp : p.stem? = some stem) (plain : stem ≠ ['.']) :
    (p.withSuffix ('.' :: ext)).same q = true ↔ Twins p q ∧ q.suffix = '.' :: ext := by
  have full : stem ≠ [] := by
    obtain ⟨name, named, rfl⟩ := Option.map_eq_some_iff.mp hp
    exact stem_ne_nil (mem_of_fileName? named).2
  rw [same_iff, components_withSuffix slash hp plain]
  constructor
  · intro same
    have named : q.fileName? = some (stem ++ '.' :: ext) := by
      rw [fileName?_eq_some_iff, ← same, List.getLast?_concat]
    refine ⟨⟨?_, ?_⟩, ?_⟩
    · rw [← same, List.dropLast_concat]
    · rw [hp, stem?, named, Option.map_some, cutExtension_append full dot]
    · rw [suffix, named]
      dsimp only
      rw [cutExtension_append full dot]
  · rintro ⟨⟨front, stems⟩, ends⟩
    rw [hp] at stems
    obtain ⟨name, named, cut⟩ := Option.map_eq_some_iff.mp stems.symm
    rw [suffix, named] at ends
    dsimp only at ends
    cases tail : (cutExtension name).2 with
    | none => simp [tail] at ends
    | some ext' =>
      obtain rfl : ext' = ext := by simpa [tail] using ends
      rw [components_of_fileName? named, front, append_of_cutExtension tail, cut]

end Extension

end Path

end NativeFreeze
