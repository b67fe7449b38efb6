import NativeFreeze.Proofs.Path

/-!
# Components of paths

The components of a path are those of its anchor and then those of its pieces that are not idle. So
a text that is added behind a separator adds its own components, and the path of an entry has the
components of the directory and the one of the entry.
-/

namespace NativeFreeze.Path

variable {p q : Path} {s t piece : Text} {c : Component}

/-- The components that the pieces of a text stand for. -/
def trail (s : Text) : List Component :=
  ((Text.split '/' s).filter fun piece => !isIdle piece).map component

theorem trail_append (s t : Text) : trail (s ++ '/' :: t) = trail s ++ trail t := by
  rw [trail, Text.split_append, List.filter_append, List.map_append]
  rfl

@[simp]
theorem trail_nil : trail [] = [] := rfl

theorem trail_slash (t : Text) : trail ('/' :: t) = trail t :=
  trail_append [] t

/-- An anchor adds nothing but idle pieces to the pieces of a text. -/
theorem components_eq (p : Path) : p.components = (parse p.text).1.components ++ trail p.text := by
  obtain ⟨text⟩ := p
  unfold components parse
  dsimp only
  split
  · rename_i r
    rw [trail_slash]
    rfl
  · rfl
  · rename_i r
    rw [show '.' :: '/' :: r = ['.'] ++ '/' :: r from rfl, trail_append]
    rfl
  · rfl

theorem parse_append (full : s ≠ []) (t : Text) : (parse (s ++ '/' :: t)).1 = (parse s).1 := by
  cases s with
  | nil => exact absurd rfl full
  | cons a r =>
    by_cases slash : a = '/'
    · subst slash
      rfl
    · by_cases dot : a = '.'
      · subst dot
        cases r with
        | nil => rfl
        | cons b r =>
          by_cases slash : b = '/'
          · subst slash
            rfl
          · simp [parse, slash]
      · simp [parse, slash, dot]

/-- A text behind a separator adds its components. -/
theorem components_append (full : s ≠ []) (t : Text) :
    components ⟨s ++ '/' :: t⟩ = components ⟨s⟩ ++ trail t := by
  rw [components_eq, components_eq ⟨s⟩, parse_append full, trail_append, List.append_assoc]

/-- What follows a separator adds its components also where nothing but the root is before it. -/
theorem components_slash (s t : Text) :
    components ⟨s ++ '/' :: t⟩ = components ⟨s ++ ['/']⟩ ++ trail t := by
  by_cases empty : s = []
  · subst empty
    rw [components_eq ⟨[] ++ '/' :: t⟩]
    exact congrArg ([Component.root] ++ ·) (trail_slash t)
  · rw [components_append empty, components_append empty, trail_nil, List.append_nil]

/-- A relative path adds its components to those of the path that it is joined to. -/
theorem components_join (full : p.text ≠ []) (relative : q.isAbsolute = false) :
    (p.join q).components = p.components ++ trail q.text := by
  have joined : p.join q = if p.text.getLast? = some '/' then ⟨p.text ++ q.text⟩
      else ⟨p.text ++ '/' :: q.text⟩ := by
    simp [join, relative, full]
  obtain ⟨text⟩ := p
  rw [joined]
  split
  · rename_i slash
    obtain ⟨s, rfl⟩ := List.getLast?_eq_some_iff.mp slash
    rw [List.append_assoc, List.singleton_append, components_slash]
  · exact components_append full q.text

/-- The texts of a directory's entries differ in the names alone, which stand behind a separator. -/
theorem exists_child_text (p : Path) : ∃ front : Text,
    (front = p.text ∨ front = p.text ++ ['/']) ∧ (front = [] ∨ front.getLast? = some '/') ∧
      ∀ name, isAbsolute ⟨name⟩ = false → (p.child name).text = front ++ name := by
  by_cases empty : p.text = []
  · refine ⟨[], .inl empty.symm, .inl rfl, fun name relative => ?_⟩
    simp [child, join, empty]
  · by_cases slash : p.text.getLast? = some '/'
    · refine ⟨p.text, .inl rfl, .inr slash, fun name relative => ?_⟩
      simp [child, join, empty, slash, relative]
    · refine ⟨p.text ++ ['/'], .inr rfl, .inr List.getLast?_concat, fun name relative => ?_⟩
      simp [child, join, empty, slash, relative]

theorem component_text (piece : Text) : (component piece).text = piece := by
  unfold component
  by_cases up : piece = ['.', '.']
  · rw [if_pos up, up]
    rfl
  · rw [if_neg up]
    rfl

/-- What a component of a trail is: the only one of its text, which neither starts at the root nor
names the directory itself. -/
theorem trail_text (hc : c ∈ trail s) :
    '/' ∉ c.text ∧ isIdle c.text = false ∧ trail c.text = [c] := by
  obtain ⟨piece, mem, rfl⟩ := List.mem_map.mp hc
  obtain ⟨mem, busy⟩ := List.mem_filter.mp mem
  have busy : isIdle piece = false := by simpa using busy
  have whole : '/' ∉ piece := Text.not_mem_of_mem_split mem
  rw [component_text]
  refine ⟨whole, busy, ?_⟩
  rw [trail, Text.split_eq_singleton whole]
  simp [busy]

theorem eq_name_of_mem_trail (hc : c ∈ trail s) (level : c ≠ .up) : .name c.text = c := by
  obtain ⟨piece, -, rfl⟩ := List.mem_map.mp hc
  rw [component_text]
  unfold component at level ⊢
  split
  · rename_i up
    exact absurd (if_pos up) level
  · rfl

theorem components_of_mem_trail (hc : c ∈ trail s) : components ⟨c.text⟩ = [c] := by
  obtain ⟨whole, busy, alone⟩ := trail_text hc
  have anchor : (parse c.text).1 = .none := by
    generalize c.text = piece at whole busy
    unfold parse
    split
    · simp at whole
    · simp [isIdle] at busy
    · simp at whole
    · rfl
  rw [components_eq, anchor, alone]
  rfl

/-- Behind the first component there are only those of the pieces. -/
theorem mem_trail_of_components {front rest : List Component}
    (hp : p.components = front ++ c :: rest) (later : front ≠ []) : c ∈ trail p.text := by
  rw [components_eq] at hp
  cases front with
  | nil => exact absurd rfl later
  | cons first front =>
    have behind : trail p.text = first :: front ++ c :: rest ∨ trail p.text = front ++ c :: rest := by
      cases h : (parse p.text).1 <;> rw [h] at hp
      case root => exact .inr (List.cons.inj hp).2
      case here => exact .inr (List.cons.inj hp).2
      case none => exact .inl hp
    rcases behind with behind | behind <;> simp [behind]

theorem isAbsolute_eq_false (whole : '/' ∉ s) : isAbsolute ⟨s⟩ = false := by
  cases s with
  | nil => rfl
  | cons c r =>
    have slash : c ≠ '/' := by
      rintro rfl
      exact whole List.mem_cons_self
    simp [isAbsolute, slash]

/-- A path that is not empty has a component. -/
theorem components_ne_nil (full : p.text ≠ []) : p.components ≠ [] := by
  obtain ⟨text⟩ := p
  obtain ⟨a, r, rfl⟩ := List.exists_cons_of_ne_nil full
  obtain ⟨q, qs, hr⟩ := List.exists_cons_of_ne_nil (Text.split_ne_nil '/' r)
  rw [components_eq]
  intro none
  obtain ⟨anchor, trail⟩ := List.append_eq_nil_iff.mp none
  by_cases slash : a = '/'
  · subst slash
    cases anchor
  · have pieces : Text.split '/' (a :: r) = (a :: q) :: qs := by
      rw [Text.split, Text.splitOn, if_neg (by simpa using slash)]
      exact congrArg (Text.consFirst a) hr
    have idle : isIdle (a :: q) = true := by
      cases busy : isIdle (a :: q) with
      | false => simp [Path.trail, pieces, busy] at trail
      | true => rfl
    obtain ⟨rfl, rfl⟩ : a = '.' ∧ q = [] := by simpa [isIdle] using idle
    have back : r = Text.join ['/'] ([] :: qs) := hr ▸ (Text.join_split '/' r).symm
    cases qs with
    | nil =>
      subst back
      cases anchor
    | cons next more =>
      obtain rfl : r = '/' :: Text.join ['/'] (next :: more) := back.trans (by simp [Text.join])
      cases anchor

/-- The path of an entry: the components of its directory and then its own. -/
theorem components_child {front : Path} {rest : List Component}
    (below : p.components = front.components ++ c :: rest) :
    (front.child c.text).components = front.components ++ [c] := by
  by_cases empty : front.text = []
  · have none : front.components = [] := by
      obtain ⟨text⟩ := front
      obtain rfl : text = [] := empty
      rfl
    have itself : front.child c.text = ⟨c.text⟩ := by simp [child, join, empty]
    rw [none, List.nil_append] at below
    rw [itself, none, List.nil_append]
    rw [components_eq] at below
    cases h : (parse p.text).1 <;> rw [h] at below
    case root =>
      obtain ⟨rfl, -⟩ := List.cons.inj below
      rfl
    case here =>
      obtain ⟨rfl, -⟩ := List.cons.inj below
      rfl
    case none =>
      have first : trail p.text = c :: rest := below
      exact components_of_mem_trail (s := p.text) (first ▸ List.mem_cons_self)
  · obtain ⟨whole, -, alone⟩ := trail_text (mem_trail_of_components below (components_ne_nil empty))
    exact (components_join empty (isAbsolute_eq_false whole)).trans
      (congrArg (front.components ++ ·) alone)

theorem trail_of_busy (whole : '/' ∉ s) (busy : isIdle s = false) : trail s = [component s] := by
  simp [trail, Text.split_eq_singleton whole, busy]

/-- A text without a separator that is not idle adds the component that it stands for. -/
theorem components_child_of_busy (p : Path) (whole : '/' ∉ s) (busy : isIdle s = false) :
    (p.child s).components = p.components ++ [component s] := by
  have own : trail s = [component s] := trail_of_busy whole busy
  by_cases empty : p.text = []
  · have itself : p.child s = ⟨(component s).text⟩ := by
      simp [child, join, empty, component_text]
    have none : p.components = [] := by
      obtain ⟨text⟩ := p
      obtain rfl : text = [] := empty
      rfl
    rw [itself, none, List.nil_append]
    apply components_of_mem_trail (s := s)
    simp [own]
  · exact own ▸ components_join empty (isAbsolute_eq_false whole)

/-- The way on from a directory through such texts, one after the other. -/
theorem components_foldl_of_busy (p : Path) {texts : List Text}
    (all : ∀ s ∈ texts, '/' ∉ s ∧ isIdle s = false) :
    (texts.foldl child p).components = p.components ++ texts.map component := by
  induction texts generalizing p with
  | nil => exact (List.append_nil _).symm
  | cons s texts ih =>
    obtain ⟨⟨whole, busy⟩, rest⟩ := List.forall_mem_cons.mp all
    rw [List.foldl_cons, ih _ rest, components_child_of_busy p whole busy, List.append_assoc]
    rfl

/-- A component is told by its text, unless that is the root's or the directory's own. -/
theorem component_text_of_mem (hc : c ∈ p.components) (whole : '/' ∉ c.text)
    (busy : isIdle c.text = false) : component c.text = c := by
  rw [components_eq] at hc
  rcases List.mem_append.mp hc with anchor | trail
  · cases start : (parse p.text).1 <;> simp [start, Anchor.components] at anchor <;> subst anchor
    · exact absurd List.mem_cons_self whole
    · exact absurd busy (by decide)
  · obtain ⟨piece, -, rfl⟩ := List.mem_map.mp trail
    rw [component_text]

/-- The path that leads on from a directory through entries has the components of both. -/
theorem components_foldl_child {front : Path} {names : List Text} {rest : List Component}
    (below : p.components = front.components ++ names.map .name ++ rest) :
    (names.foldl child front).components = front.components ++ names.map .name := by
  induction names generalizing front with
  | nil => exact (List.append_nil _).symm
  | cons name names ih =>
    have entry : (front.child name).components = front.components ++ [.name name] :=
      components_child (c := .name name) (by simpa using below)
    rw [List.foldl_cons, ih (by simpa [entry] using below), entry]
    simp

theorem isAbsolute_iff : p.isAbsolute = true ↔ p.components.head? = some .root := by
  obtain ⟨text⟩ := p
  have later : (trail text).head? ≠ some .root := by
    intro h
    obtain ⟨piece, -, root⟩ := List.mem_map.mp (List.mem_of_head? h)
    unfold component at root
    split at root <;> cases root
  rw [components_eq]
  dsimp only
  unfold parse
  split
  · exact iff_of_true rfl rfl
  · exact iff_of_false nofun nofun
  · exact iff_of_false nofun nofun
  · rename_i slash _ _
    refine iff_of_false ?_ later
    cases text with
    | nil => exact nofun
    | cons c r => simpa [isAbsolute] using slash r

/-- A character that no path is rid of: neither a separator nor a dot. -/
def isSolid (c : Char) : Bool :=
  c != '/' && c != '.'

theorem filter_isSolid_of_isIdle (idle : isIdle piece = true) : piece.filter isSolid = [] := by
  rcases (by simpa [isIdle] using idle : piece = [] ∨ piece = ['.']) with rfl | rfl <;> rfl

theorem filter_isSolid_trail (s : Text) :
    ((trail s).flatMap Component.text).filter isSolid = s.filter isSolid := by
  have pieces (ps : List Text) :
      (((ps.filter fun piece => !isIdle piece).map component).flatMap Component.text).filter isSolid =
        ps.flatten.filter isSolid := by
    induction ps with
    | nil => rfl
    | cons piece ps ih =>
      rw [List.flatten_cons, List.filter_append, ← ih]
      cases idle : isIdle piece with
      | true => simp [idle, filter_isSolid_of_isIdle idle]
      | false => simp [idle, component_text]
  rw [trail, pieces, Text.flatten_split, List.filter_filter]
  refine List.filter_congr fun c _ => ?_
  cases slash : c == '/' <;> simp [isSolid, bne, slash]

/-- The components of a path hold its solid characters in their order. -/
theorem filter_isSolid_components (p : Path) :
    (p.components.flatMap Component.text).filter isSolid = p.text.filter isSolid := by
  rw [components_eq, List.flatMap_append, List.filter_append, filter_isSolid_trail]
  cases (parse p.text).1 <;> rfl

theorem mem_text_iff {ch : Char} (solid : isSolid ch = true) :
    ch ∈ p.text ↔ ∃ c ∈ p.components, ch ∈ c.text := by
  have kept (s : Text) : ch ∈ s ↔ ch ∈ s.filter isSolid := by simp [solid]
  rw [kept p.text, ← filter_isSolid_components, ← kept, List.mem_flatMap]

theorem name_mem_of_fileName? {name : Text} (h : p.fileName? = some name) :
    .name name ∈ p.components := by
  obtain ⟨mem, busy⟩ := mem_of_fileName? h
  have real : name ≠ ['.', '.'] := by
    rw [fileName?_eq, Option.filter_eq_some_iff] at h
    simpa using h.2
  have itself : component name = .name name := if_neg real
  rw [components_eq, ← itself]
  refine List.mem_append_right _ (List.mem_map_of_mem ?_)
  exact List.mem_filter.mpr ⟨mem, by simp [busy]⟩

end NativeFreeze.Path
