import NativeFreeze.Proofs.Path.Extension
import NativeFreeze.Proofs.Trace.ImportLog

/-!
# Groups of a log

A log is a list of groups, and behind them context that no import follows. A group is some context
and the import line that ends it. Nothing is carried over from one group to the next, so the paths of
a log are those of its groups, one after the other. Within a group each path is kept where it is
mentioned first, and the shim of the FFI bridge comes behind them.
-/

namespace NativeFreeze.ImportLog

variable {h : Layout} {log s : Text} {ls : List Text} {line name : Text}
  {ps qs seen : List Path} {p : Path}

/-! ## Paths kept once -/

/-- The paths that are kept, the last one first, with one more unless its like is among them. -/
def keep (seen : List Path) (p : Path) : List Path :=
  if seen.any p.same then seen else p :: seen

/-- Of paths with the same components the first is kept. -/
theorem distinct_eq_eraseDupsBy (ps : List Path) : distinct ps = ps.eraseDupsBy Path.same := by
  have kept (seen : List Path) :
      List.eraseDupsBy.loop Path.same ps seen = (ps.foldl keep seen).reverse := by
    induction ps generalizing seen with
    | nil => rfl
    | cons p ps ih =>
      rw [List.eraseDupsBy.loop, List.foldl_cons, keep]
      cases seen.any p.same with
      | true => exact ih seen
      | false => exact ih (p :: seen)
  exact (kept []).symm

/-- What is kept are different paths. -/
theorem pairwise_foldl_keep (start : seen.Pairwise fun p q => p.same q = false) (ps : List Path) :
    (ps.foldl keep seen).Pairwise fun p q => p.same q = false := by
  induction ps generalizing seen with
  | nil => exact start
  | cons p ps ih =>
    rw [List.foldl_cons]
    apply ih
    rw [keep]
    split
    · exact start
    · rename_i new
      refine List.pairwise_cons.mpr ⟨fun q hq => ?_, start⟩
      rw [Bool.eq_false_iff]
      exact fun same => new (List.any_eq_true.mpr ⟨q, hq, same⟩)

theorem pairwise_distinct (ps : List Path) :
    (distinct ps).Pairwise fun p q => p.same q = false := by
  apply List.pairwise_reverse.mpr
  apply (pairwise_foldl_keep List.Pairwise.nil ps).imp
  intro p q differ
  rwa [Path.same_comm]

theorem keep_of_exists_same (known : ∃ q ∈ seen, p.same q = true) : keep seen p = seen := by
  rw [keep, if_pos (List.any_eq_true.mpr known)]

theorem subset_foldl_keep (seen ps : List Path) : seen ⊆ ps.foldl keep seen := by
  induction ps generalizing seen with
  | nil => exact List.Subset.refl seen
  | cons p ps ih =>
    have first : seen ⊆ keep seen p := by
      rw [keep]
      split
      · exact List.Subset.refl seen
      · exact List.subset_cons_self p seen
    exact List.Subset.trans first (ih (keep seen p))

/-- The like of every path that comes up is kept. -/
theorem exists_same_foldl_keep (mem : p ∈ ps) (seen : List Path) :
    ∃ q ∈ ps.foldl keep seen, p.same q = true := by
  induction ps generalizing seen with
  | nil => exact absurd mem List.not_mem_nil
  | cons first rest ih =>
    rw [List.foldl_cons]
    rcases List.mem_cons.mp mem with rfl | later
    · have kept : ∃ q ∈ keep seen p, p.same q = true := by
        by_cases known : ∃ q ∈ seen, p.same q = true
        · rwa [keep_of_exists_same known]
        · rw [keep, if_neg (known ∘ List.any_eq_true.mp)]
          exact ⟨p, List.mem_cons_self, Path.same_refl p⟩
      obtain ⟨q, hq, same⟩ := kept
      exact ⟨q, subset_foldl_keep _ rest hq, same⟩
    · exact ih later (keep seen first)

theorem distinct_subset (ps : List Path) : distinct ps ⊆ ps := by
  have kept (seen : List Path) : ps.foldl keep seen ⊆ seen ++ ps := by
    induction ps generalizing seen with
    | nil => simp
    | cons p ps ih =>
      rw [List.foldl_cons, keep]
      split
      · exact List.Subset.trans (ih seen) (by simp)
      · exact List.Subset.trans (ih (p :: seen)) (by simp)
  intro q hq
  simpa using kept [] (List.mem_reverse.mp hq)

/-- Paths that are mentioned again are passed over. -/
theorem distinct_append_again (again : qs ⊆ ps) (more : List Path) :
    distinct (ps ++ qs ++ more) = distinct (ps ++ more) := by
  have passed : qs.foldl keep (ps.foldl keep []) = ps.foldl keep [] := by
    induction qs with
    | nil => rfl
    | cons q qs ih =>
      obtain ⟨mem, rest⟩ := List.cons_subset.mp again
      rw [List.foldl_cons, keep_of_exists_same (exists_same_foldl_keep mem [])]
      exact ih rest
  change ((ps ++ qs ++ more).foldl keep []).reverse = ((ps ++ more).foldl keep []).reverse
  rw [List.foldl_append, List.foldl_append, passed, ← List.foldl_append]

/-! ## Lines -/

/-- Lines, each with its line break. -/
def broken (ls : List Text) : Text :=
  ls.flatMap (· ++ ['\n'])

theorem broken_append (ls xs : List Text) : broken (ls ++ xs) = broken ls ++ broken xs :=
  List.flatMap_append

/-- A text behind which no line goes on: it is empty or ends with a line break. -/
def Ended (s : Text) : Prop :=
  s = [] ∨ ∃ front, s = front ++ ['\n']

theorem ended_broken (ls : List Text) : Ended (broken ls) := by
  rcases List.eq_nil_or_concat ls with rfl | ⟨front, last, rfl⟩
  · exact .inl rfl
  · exact .inr ⟨broken front ++ last, by simp [broken]⟩

theorem exists_broken_of_ended (ended : Ended s) :
    ∃ ls, s = broken ls ∧ ∀ line ∈ ls, '\n' ∉ line := by
  rcases ended with rfl | ⟨front, rfl⟩
  · exact ⟨[], rfl, List.forall_mem_nil _⟩
  · refine ⟨Text.split '\n' front, ?_, fun line mem => Text.not_mem_of_mem_split mem⟩
    have pieces : Text.split '\n' (front ++ ['\n']) = Text.split '\n' front ++ [[]] :=
      Text.split_append '\n' front []
    have whole := Text.join_split '\n' (front ++ ['\n'])
    rw [pieces, Text.join_concat, List.append_nil] at whole
    exact whole.symm

/-- What follows a line break has its own lines. -/
theorem lines_append_of_ended (ended : Ended s) (t : Text) : lines (s ++ t) = lines s ++ lines t := by
  have whole (s t : Text) : Text.lines (s ++ '\n' :: t) = Text.split '\n' s ++ Text.lines t := by
    obtain ⟨front, last, pieces⟩ := (List.eq_nil_or_concat (Text.split '\n' t)).resolve_left
      (Text.split_ne_nil '\n' t)
    rw [List.concat_eq_append] at pieces
    have longer : Text.split '\n' (s ++ '\n' :: t) = (Text.split '\n' s ++ front) ++ [last] := by
      rw [Text.split_append, pieces, List.append_assoc]
    rw [Text.lines_of_split longer, Text.lines_of_split pieces, List.append_assoc]
  rcases ended with rfl | ⟨front, rfl⟩
  · rfl
  · have alone : Text.lines (front ++ ['\n']) = Text.split '\n' front := by
      rw [whole]
      exact List.append_nil _
    rw [List.append_assoc, List.singleton_append, lines, lines, lines, whole, alone, List.map_append]

theorem lines_broken (single : ∀ line ∈ ls, '\n' ∉ line) :
    lines (broken ls) = ls.map (Text.trimEnd (· == '\r')) := by
  induction ls with
  | nil => rfl
  | cons line ls ih =>
    obtain ⟨one, rest⟩ := List.forall_mem_cons.mp single
    have first : lines (line ++ ['\n']) = [Text.trimEnd (· == '\r') line] := by
      have split : Text.split '\n' (line ++ ['\n']) = [line] ++ [[]] := by
        rw [Text.split_append, Text.split_eq_singleton one]
        rfl
      rw [lines, Text.lines_of_split split]
      rfl
    have ended : Ended (line ++ ['\n']) := .inr ⟨line, rfl⟩
    have cut : broken (line :: ls) = (line ++ ['\n']) ++ broken ls := rfl
    rw [cut, lines_append_of_ended ended, first, ih rest]
    rfl

/-! ## Groups -/

/-- The module that a line of a log reports as imported; carriage returns at its end do not count. -/
def lineImport? (line : Text) : Option Text :=
  imported? (Text.trimEnd (· == '\r') line)

/-- Lines of a log that report no import, and behind them one that does. -/
structure Group where
  context : List Text
  line : Text
  name : Text
  single : ∀ l ∈ context ++ [line], '\n' ∉ l
  waits : ∀ l ∈ context, lineImport? l = none
  imports : lineImport? line = some name

namespace Group

/-- A group as it stands in a log. -/
def text (g : Group) : Text :=
  broken (g.context ++ [g.line])

/-- The paths that the context of a group mentions. -/
def mentioned (g : Group) (h : Layout) : List Path :=
  (g.context.map (Text.trimEnd (· == '\r'))).flatMap (pathsIn h)

/-- The paths of a group's context, each where it is mentioned first. -/
def found (g : Group) (h : Layout) : List Path :=
  (g.mentioned h).eraseDupsBy Path.same

/-- The group `g'` is `g` with a line of the context again, anywhere behind the line. -/
structure Repeats (g g' : Group) : Prop where
  line : g'.line = g.line
  context : ∃ front again middle back, g.context = front ++ again :: (middle ++ back) ∧
    g'.context = front ++ again :: (middle ++ again :: back)

end Group

/-- A log that is empty or ends with a complete import line and its line break. -/
def Closed (log : Text) : Prop :=
  log = [] ∨ ∃ front line, log = front ++ line ++ ['\n'] ∧ Ended front ∧ '\n' ∉ line ∧
    (lineImport? line).isSome = true

theorem Closed.ended (closed : Closed log) : Ended log := by
  rcases closed with rfl | ⟨front, line, rfl, -⟩
  · exact .inl rfl
  · exact .inr ⟨front ++ line, rfl⟩

theorem closed_broken (context : List Text) (single : '\n' ∉ line)
    (imports : lineImport? line = some name) : Closed (broken (context ++ [line])) := by
  refine .inr ⟨broken context, line, ?_, ended_broken _, single, ?_⟩
  · simp [broken]
  · simp [imports]

theorem Group.closed (g : Group) : Closed g.text :=
  closed_broken g.context (g.single _ (by simp)) g.imports

/-! ## What is read of a group -/

/-- An import line leaves no context behind. -/
theorem contextAfter_concat (imports : (imported? line).isSome = true) (context ls : List Text) :
    contextAfter context (ls ++ [line]) = [] := by
  induction ls generalizing context with
  | nil => simp [contextAfter, imports]
  | cons first rest ih =>
    rw [List.cons_append, contextAfter]
    split
    · exact ih []
    · exact ih _

theorem contextAfter_lines (closed : Closed log) : contextAfter [] (lines log) = [] := by
  rcases closed with rfl | ⟨front, line, rfl, ended, single, imports⟩
  · rfl
  · have last : lines (line ++ ['\n']) = [Text.trimEnd (· == '\r') line] := by
      simpa [broken] using lines_broken (List.forall_mem_singleton.mpr single)
    rw [List.append_assoc, lines_append_of_ended ended, last]
    exact contextAfter_concat imports [] _

/-- Behind a complete import line a log is read on its own. -/
theorem parse_append_of_closed (closed : Closed log) (more : Text) :
    parse h (log ++ more) = parse h log ++ parse h more := by
  rw [parse, lines_append_of_ended closed.ended, parseLines_append, contextAfter_lines closed]
  rfl

theorem parseLines_of_none (waits : ∀ l ∈ ls, imported? l = none) (context more : List Text) :
    parseLines h context (ls ++ more) = parseLines h (context ++ ls) more := by
  induction ls generalizing context with
  | nil => simp
  | cons line ls ih =>
    obtain ⟨one, rest⟩ := List.forall_mem_cons.mp waits
    rw [List.cons_append, parseLines, one]
    dsimp only
    rw [ih rest, List.append_assoc, List.singleton_append]

/-- Context that no import follows yields nothing. -/
theorem parse_eq_nil (waits : ∀ l ∈ lines log, imported? l = none) : parse h log = [] := by
  have all := parseLines_of_none (h := h) waits [] []
  rw [List.append_nil] at all
  rw [parse, all]
  rfl

/-- A group yields the paths that its context mentions, each once, and behind them the shim. -/
theorem Group.parse_text (g : Group) (h : Layout) : parse h g.text =
    g.found h ++ if g.name = h.ffiBridgeModule then h.ffiShim.toList else [] := by
  have waits : ∀ l ∈ g.context.map (Text.trimEnd (· == '\r')), imported? l = none := by
    intro l hl
    obtain ⟨l, mem, rfl⟩ := List.mem_map.mp hl
    exact g.waits l mem
  have imports : imported? (Text.trimEnd (· == '\r') g.line) = some g.name := g.imports
  rw [parse, text, lines_broken g.single, List.map_append, parseLines_of_none waits]
  simp only [List.map_cons, List.map_nil, List.nil_append, parseLines, imports, groupPaths,
    distinct_eq_eraseDupsBy, List.append_nil]
  rfl

theorem Group.pairwise_found (g : Group) (h : Layout) :
    (g.found h).Pairwise fun p q => p.same q = false := by
  rw [found, ← distinct_eq_eraseDupsBy]
  exact pairwise_distinct _

theorem Group.Repeats.found_eq {g g' : Group} (repeats : g.Repeats g') (h : Layout) :
    g'.found h = g.found h := by
  obtain ⟨front, again, middle, back, before, after⟩ := repeats.context
  simp only [found, mentioned, ← distinct_eq_eraseDupsBy, before, after]
  have known : pathsIn h (Text.trimEnd (· == '\r') again) ⊆
      (((front ++ again :: middle).map (Text.trimEnd (· == '\r'))).flatMap (pathsIn h)) := by
    intro p hp
    simp only [List.map_append, List.map_cons, List.flatMap_append, List.flatMap_cons,
      List.mem_append]
    exact .inr (.inl hp)
  have once := distinct_append_again known ((back.map (Text.trimEnd (· == '\r'))).flatMap (pathsIn h))
  simpa [List.flatMap_append] using once

theorem Group.Repeats.parse_eq {g g' : Group} (repeats : g.Repeats g') (h : Layout) :
    parse h g'.text = parse h g.text := by
  have names : g'.name = g.name := by
    have imports := g'.imports
    rw [repeats.line, g.imports] at imports
    exact (Option.some.inj imports).symm
  rw [g.parse_text, g'.parse_text, repeats.found_eq, names]

/-- Groups are read one by one. -/
theorem parse_flatMap_text (gs : List Group) (more : Text) : parse h (gs.flatMap Group.text ++ more) =
    gs.flatMap (fun g => parse h g.text) ++ parse h more := by
  induction gs with
  | nil => rfl
  | cons g gs ih =>
    rw [List.flatMap_cons, List.append_assoc, parse_append_of_closed g.closed, ih, List.flatMap_cons,
      List.append_assoc]

/-! ## The groups of a log -/

/-- Lines make up groups, and behind them context that no import follows. -/
theorem exists_groups_of_broken (context ls : List Text) (waits : ∀ l ∈ context, lineImport? l = none)
    (single : ∀ l ∈ context ++ ls, '\n' ∉ l) :
    ∃ (gs : List Group) (rest : List Text), broken (context ++ ls) =
      gs.flatMap Group.text ++ broken rest ∧ ∀ l ∈ rest, '\n' ∉ l ∧ lineImport? l = none := by
  induction ls generalizing context with
  | nil =>
    rw [List.append_nil] at single ⊢
    exact ⟨[], context, rfl, fun l hl => ⟨single l hl, waits l hl⟩⟩
  | cons line ls ih =>
    have cut : context ++ line :: ls = (context ++ [line]) ++ ls := by simp
    rw [cut] at single ⊢
    cases imports : lineImport? line with
    | none => exact ih (context ++ [line]) (by simpa [or_imp, forall_and, imports] using waits) single
    | some name =>
      obtain ⟨first, later⟩ := List.forall_mem_append.mp single
      obtain ⟨gs, rest, made, last⟩ := ih [] (List.forall_mem_nil _) later
      refine ⟨⟨context, line, name, first, waits, imports⟩ :: gs, rest, ?_, last⟩
      rw [List.nil_append] at made
      rw [broken_append, made, List.flatMap_cons, List.append_assoc]
      rfl

theorem exists_groups (ended : Ended log) : ∃ (gs : List Group) (rest : Text),
    log = gs.flatMap Group.text ++ rest ∧ ∀ l ∈ lines rest, imported? l = none := by
  obtain ⟨ls, rfl, single⟩ := exists_broken_of_ended ended
  obtain ⟨gs, rest, made, last⟩ := exists_groups_of_broken [] ls (List.forall_mem_nil _) single
  refine ⟨gs, broken rest, made, ?_⟩
  rw [lines_broken fun l hl => (last l hl).1]
  intro l hl
  obtain ⟨l, mem, rfl⟩ := List.mem_map.mp hl
  exact (last l mem).2

/-- Each import consumes its own context. Behind a complete import line a log is read on its own; a
group yields the paths that its context mentions, no two of them alike, and behind them the shim if
the bridge is imported and there is one; a context line that comes again changes nothing, and context
that no import follows yields nothing. And every log that ends with a line break is made of groups and
such context. -/
theorem parse_of_groups (h : Layout) :
    (∀ log more, Closed log → parse h (log ++ more) = parse h log ++ parse h more) ∧
      (∀ g : Group, (g.found h).Pairwise (fun p q => p.same q = false) ∧
        parse h g.text =
          g.found h ++ if g.name = h.ffiBridgeModule then h.ffiShim.toList else []) ∧
      (∀ g g' : Group, g.Repeats g' → parse h g'.text = parse h g.text) ∧
      (∀ log more, Closed log → (∀ l ∈ lines more, imported? l = none) →
        parse h (log ++ more) = parse h log) ∧
      ∀ log, Ended log → ∃ (gs : List Group) (rest : Text), log = gs.flatMap Group.text ++ rest ∧
        (∀ l ∈ lines rest, imported? l = none) ∧
        parse h log = gs.flatMap fun g => parse h g.text := by
  refine ⟨fun log more closed => parse_append_of_closed closed more, fun g => ?_,
    fun g g' repeats => repeats.parse_eq h, fun log more closed waits => ?_, fun log ended => ?_⟩
  · exact ⟨g.pairwise_found h, g.parse_text h⟩
  · rw [parse_append_of_closed closed, parse_eq_nil waits, List.append_nil]
  · obtain ⟨gs, rest, rfl, waits⟩ := exists_groups ended
    refine ⟨gs, rest, rfl, waits, ?_⟩
    rw [parse_flatMap_text, parse_eq_nil waits, List.append_nil]

end NativeFreeze.ImportLog
