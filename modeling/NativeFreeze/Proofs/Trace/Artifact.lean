import Mathlib.Order.Bounds.Basic
import Mathlib.Order.Nat
import NativeFreeze.Proofs.Text.Lines
import NativeFreeze.Trace.ImportLog

/-!
# Artifacts in a log

Behind the install root an artifact path goes on up to the first place where an artifact suffix ends
and no name goes on. The suffixes have a single dot, at their start; so no occurrence of one overlaps
another, and the search finds every end.
-/

namespace NativeFreeze.ImportLog

variable {h : Layout} {suffix ext s t more rest piece : Text} {n : Nat} {p : Path}

/-! ## Where a suffix ends -/

/-- The first `n` characters of `s` end with a suffix, and no name goes on behind them. -/
structure EndsAt (suffix s : Text) (n : Nat) : Prop where
  within : n ≤ s.length
  ends : suffix <:+ s.take n
  stops : goesOn (s.drop n) = false

theorem exists_front_iff {c : Char} {r : Text} {read : Nat} :
    (∃ front, c :: r = front ++ suffix ++ rest ∧ n = read + (front ++ suffix).length) ↔
      (c :: r = suffix ++ rest ∧ n = read + suffix.length) ∨
        ∃ front, r = front ++ suffix ++ rest ∧ n = read + 1 + (front ++ suffix).length := by
  constructor
  · rintro ⟨front, whole, rfl⟩
    cases front with
    | nil => exact .inl ⟨whole, rfl⟩
    | cons d front =>
      obtain ⟨rfl, rfl⟩ := List.cons.inj whole
      refine .inr ⟨front, rfl, ?_⟩
      simp only [List.cons_append, List.length_cons]
      omega
  · rintro (⟨whole, rfl⟩ | ⟨front, rfl, rfl⟩)
    · exact ⟨[], whole, rfl⟩
    · refine ⟨c :: front, rfl, ?_⟩
      simp only [List.cons_append, List.length_cons]
      omega

/-- Where an end is found, the suffix is in front of it. -/
theorem exists_of_mem_endsFrom {read skip : Nat} (found : (n, rest) ∈ endsFrom suffix read skip s) :
    ∃ front, s = front ++ suffix ++ rest ∧ n = read + (front ++ suffix).length := by
  induction s generalizing read skip with
  | nil =>
    cases skip with
    | succ skip => exact nomatch found
    | zero =>
      rw [endsFrom] at found
      split at found
      · rename_i empty
        obtain ⟨rfl, rfl⟩ := Prod.mk.inj (List.mem_singleton.mp found)
        exact ⟨[], by simpa using empty, by simpa using empty⟩
      · exact nomatch found
  | cons c r ih =>
    rw [exists_front_iff]
    cases skip with
    | succ skip => exact .inr (ih found)
    | zero =>
      rw [endsFrom] at found
      split at found
      · rename_i behind after
        rcases List.mem_cons.mp found with first | later
        · obtain ⟨rfl, rfl⟩ := Prod.mk.inj first
          exact .inl ⟨Text.after?_eq_some_iff.mp after, rfl⟩
        · exact .inr (ih later)
      · exact .inr (ih found)

theorem endsAt_of_shortestEnd? (found : shortestEnd? suffix s = some n) : EndsAt suffix s n := by
  obtain ⟨⟨m, behind⟩, first, rfl⟩ := Option.map_eq_some_iff.mp found
  have stops := List.find?_some first
  obtain ⟨front, rfl, rfl⟩ := exists_of_mem_endsFrom (List.mem_of_find?_eq_some first)
  simp only [Nat.zero_add]
  constructor
  · simp
  · rw [List.take_left' rfl]
    exact List.suffix_append front suffix
  · rw [List.drop_left' rfl]
    simpa using stops

section Dotted
variable (dot : '.' ∉ ext)
include dot

/-- A suffix with a single dot, at its start, does not overlap itself, so that no occurrence is passed
over. -/
theorem mem_endsFrom_iff {read skip : Nat} (passed : '.' ∉ s.take skip) :
    (n, rest) ∈ endsFrom ('.' :: ext) read skip s ↔
      ∃ front, s = front ++ '.' :: ext ++ rest ∧ n = read + (front ++ '.' :: ext).length := by
  induction s generalizing read skip with
  | nil => cases skip <;> simp [endsFrom]
  | cons c r ih =>
    rw [exists_front_iff]
    cases skip with
    | succ skip =>
      simp only [List.take_succ_cons, List.mem_cons, not_or] at passed
      rw [endsFrom, ih passed.2, or_iff_right]
      rintro ⟨whole, -⟩
      exact passed.1 (List.cons.inj whole).1.symm
    | zero =>
      cases after : Text.after? ('.' :: ext) (c :: r) with
      | none =>
        rw [endsFrom, after]
        dsimp only
        rw [ih (by simp), or_iff_right]
        rintro ⟨whole, -⟩
        simp [Text.after?_eq_some_iff.mpr whole] at after
      | some behind =>
        have whole := Text.after?_eq_some_iff.mp after
        have tail : r = ext ++ behind := (List.cons.inj whole).2
        have passed : '.' ∉ r.take ext.length := by rwa [tail, List.take_left' rfl]
        rw [endsFrom, after]
        dsimp only
        rw [List.mem_cons, ih (by simpa using passed), whole]
        simp [and_comm, eq_comm]

theorem mem_ends_iff : (n, rest) ∈ endsFrom ('.' :: ext) 0 0 s ↔
    n ≤ s.length ∧ '.' :: ext <:+ s.take n ∧ rest = s.drop n := by
  rw [mem_endsFrom_iff dot (by simp)]
  constructor
  · rintro ⟨front, rfl, rfl⟩
    rw [Nat.zero_add]
    refine ⟨by simp, ?_, (List.drop_left' rfl).symm⟩
    rw [List.take_left' rfl]
    exact List.suffix_append front _
  · rintro ⟨within, ⟨front, taken⟩, rfl⟩
    refine ⟨front, ?_, ?_⟩
    · rw [taken, List.take_append_drop]
    · rw [taken, List.length_take, Nat.zero_add, Nat.min_eq_left within]

/-- Ends are found from left to right. -/
theorem pairwise_endsFrom {read skip : Nat} (passed : '.' ∉ s.take skip) :
    (endsFrom ('.' :: ext) read skip s).Pairwise fun a b => a.1 < b.1 := by
  induction s generalizing read skip with
  | nil => cases skip <;> simp [endsFrom]
  | cons c r ih =>
    cases skip with
    | succ skip =>
      simp only [List.take_succ_cons, List.mem_cons, not_or] at passed
      exact ih passed.2
    | zero =>
      cases after : Text.after? ('.' :: ext) (c :: r) with
      | none =>
        rw [endsFrom, after]
        exact ih (by simp)
      | some behind =>
        have tail : r = ext ++ behind := (List.cons.inj (Text.after?_eq_some_iff.mp after)).2
        have passed : '.' ∉ r.take (('.' :: ext).length - 1) := by
          simpa [tail] using dot
        rw [endsFrom, after]
        refine List.pairwise_cons.mpr ⟨fun found later => ?_, ih passed⟩
        obtain ⟨front, -, stop⟩ := (mem_endsFrom_iff dot passed).mp later
        simp only [stop, List.length_append]
        omega

theorem endsAt_iff_exists : EndsAt ('.' :: ext) s n ↔
    ∃ behind, (n, behind) ∈ endsFrom ('.' :: ext) 0 0 s ∧ goesOn behind = false := by
  constructor
  · rintro ⟨within, ends, stops⟩
    exact ⟨s.drop n, (mem_ends_iff dot).mpr ⟨within, ends, rfl⟩, stops⟩
  · rintro ⟨behind, found, stops⟩
    obtain ⟨within, ends, rfl⟩ := (mem_ends_iff dot).mp found
    exact ⟨within, ends, stops⟩

theorem isLeast_of_shortestEnd? (h : shortestEnd? ('.' :: ext) s = some n) :
    IsLeast {n | EndsAt ('.' :: ext) s n} n := by
  obtain ⟨⟨m, behind⟩, found, rfl⟩ := Option.map_eq_some_iff.mp h
  obtain ⟨stops, front, back, ends, earlier⟩ := List.find?_eq_some_iff_append.mp found
  have mem : (m, behind) ∈ endsFrom ('.' :: ext) 0 0 s := by simp [ends]
  refine ⟨(endsAt_iff_exists dot).mpr ⟨behind, mem, by simpa using stops⟩, fun m' at_m' => ?_⟩
  obtain ⟨behind', mem', stops'⟩ := (endsAt_iff_exists dot).mp at_m'
  rw [ends] at mem'
  rcases List.mem_append.mp mem' with before | later
  · simpa [stops'] using earlier _ before
  · have sorted : (endsFrom ('.' :: ext) 0 0 s).Pairwise fun a b => a.1 < b.1 :=
      pairwise_endsFrom dot (by simp)
    rw [ends] at sorted
    rcases List.mem_cons.mp later with same | later
    · exact (Prod.mk.inj same).1.ge
    · exact ((List.pairwise_cons.mp (List.pairwise_append.mp sorted).2.1).1 _ later).le

/-- What is found is the shortest part of the text that the suffix ends. -/
theorem shortestEnd?_eq_some_iff :
    shortestEnd? ('.' :: ext) s = some n ↔ IsLeast {n | EndsAt ('.' :: ext) s n} n := by
  refine ⟨isLeast_of_shortestEnd? dot, fun least => ?_⟩
  obtain ⟨behind, mem, stops⟩ := (endsAt_iff_exists dot).mp least.1
  cases found : shortestEnd? ('.' :: ext) s with
  | some m => exact congrArg some ((isLeast_of_shortestEnd? dot found).unique least)
  | none =>
    rw [shortestEnd?, Option.map_eq_none_iff, List.find?_eq_none] at found
    simpa [stops] using found _ mem

end Dotted

/-! ## The artifact at the start of a piece -/

theorem least?_eq_some_iff {ns : List Nat} : least? ns = some n ↔ IsLeast {m | m ∈ ns} n := by
  have model : least? ns = ns.min? := by cases ns <;> rfl
  rw [model, List.min?_eq_some_iff]
  rfl

/-- An artifact suffix ends behind `n` characters of `s`. -/
def ArtifactEnds (h : Layout) (s : Text) (n : Nat) : Prop :=
  ∃ suffix ∈ h.artifactSuffixes, EndsAt suffix s n

instance (suffix s : Text) (n : Nat) : Decidable (EndsAt suffix s n) :=
  decidable_of_iff (n ≤ s.length ∧ suffix <:+ s.take n ∧ goesOn (s.drop n) = false)
    ⟨fun ⟨within, ends, stops⟩ => ⟨within, ends, stops⟩,
      fun ⟨within, ends, stops⟩ => ⟨within, ends, stops⟩⟩

instance (h : Layout) (s : Text) (n : Nat) : Decidable (ArtifactEnds h s n) :=
  inferInstanceAs (Decidable (∃ suffix ∈ h.artifactSuffixes, _))

theorem exists_artifactEnds (found : artifact? h piece = some s) :
    ∃ n, ArtifactEnds h (piece.drop h.installRoot.text.length) n ∧
      s = piece.take (h.installRoot.text.length + n) := by
  obtain ⟨n, least, rfl⟩ := Option.map_eq_some_iff.mp found
  obtain ⟨suffix, mem, shortest⟩ := List.mem_filterMap.mp (least?_eq_some_iff.mp least).1
  exact ⟨n, ⟨suffix, mem, endsAt_of_shortestEnd? shortest⟩, rfl⟩

/-- Each artifact suffix has a single dot, at its start. -/
def Dotted (h : Layout) : Prop :=
  ∀ suffix ∈ h.artifactSuffixes, suffix.head? = some '.' ∧ '.' ∉ suffix.tail

instance (h : Layout) : Decidable (Dotted h) :=
  inferInstanceAs (Decidable (∀ suffix ∈ h.artifactSuffixes, _))

theorem Dotted.exists_ext (dotted : Dotted h) (mem : suffix ∈ h.artifactSuffixes) :
    ∃ ext, suffix = '.' :: ext ∧ '.' ∉ ext := by
  obtain ⟨head, dot⟩ := dotted suffix mem
  obtain ⟨ext, rfl⟩ := List.head?_eq_some_iff.mp head
  exact ⟨ext, rfl, dot⟩

theorem exists_isLeast_endsAt (ends : EndsAt suffix s n) :
    ∃ m ≤ n, IsLeast {n | EndsAt suffix s n} m := by
  classical
  have some : ∃ n, EndsAt suffix s n := ⟨n, ends⟩
  exact ⟨Nat.find some, Nat.find_min' some ends, Nat.isLeast_find some⟩

theorem least?_shortestEnds_iff (dotted : Dotted h) :
    least? (h.artifactSuffixes.filterMap fun suffix => shortestEnd? suffix s) = some n ↔
      IsLeast {n | ArtifactEnds h s n} n := by
  have shortest (n : Nat) : n ∈ h.artifactSuffixes.filterMap (fun suffix => shortestEnd? suffix s) ↔
      ∃ suffix ∈ h.artifactSuffixes, IsLeast {n | EndsAt suffix s n} n := by
    rw [List.mem_filterMap]
    refine exists_congr fun suffix => and_congr_right fun mem => ?_
    obtain ⟨ext, rfl, dot⟩ := dotted.exists_ext mem
    exact shortestEnd?_eq_some_iff dot
  rw [least?_eq_some_iff]
  constructor
  · rintro ⟨mem, lower⟩
    obtain ⟨suffix, hs, first⟩ := (shortest n).mp mem
    refine ⟨⟨suffix, hs, first.1⟩, ?_⟩
    rintro m ⟨other, hs', ends⟩
    obtain ⟨m', le, first'⟩ := exists_isLeast_endsAt ends
    exact (lower ((shortest m').mpr ⟨other, hs', first'⟩)).trans le
  · rintro ⟨⟨suffix, hs, ends⟩, lower⟩
    refine ⟨(shortest n).mpr ⟨suffix, hs, ends, fun m at_m => lower ⟨suffix, hs, at_m⟩⟩, ?_⟩
    intro m mem
    obtain ⟨other, hs', first⟩ := (shortest m).mp mem
    exact lower ⟨other, hs', first.1⟩

/-- The artifact that is read is the shortest behind the install root. -/
theorem artifact?_eq_some_iff (dotted : Dotted h) : artifact? h piece = some s ↔
    ∃ n, IsLeast {n | ArtifactEnds h (piece.drop h.installRoot.text.length) n} n ∧
      s = piece.take (h.installRoot.text.length + n) := by
  unfold artifact?
  rw [Option.map_eq_some_iff]
  refine exists_congr fun n => ?_
  rw [← least?_shortestEnds_iff dotted, eq_comm (a := s)]

theorem artifactEnds_append (apart : goesOn more = false) (within : n ≤ s.length) :
    ArtifactEnds h (s ++ more) n ↔ ArtifactEnds h s n := by
  refine exists_congr fun suffix => and_congr_right fun _ => ?_
  have taken : (s ++ more).take n = s.take n := List.take_append_of_le_length within
  have stops : goesOn ((s ++ more).drop n) = goesOn (s.drop n) := by
    rw [List.drop_append_of_le_length within]
    cases hs : s.drop n with
    | nil => exact apart
    | cons c r => rfl
  constructor
  · rintro ⟨-, ends, stop⟩
    exact ⟨within, taken ▸ ends, stops ▸ stop⟩
  · rintro ⟨-, ends, stop⟩
    exact ⟨by simp only [List.length_append]; omega, taken ▸ ends, stops ▸ stop⟩

/-- Behind a character that no suffix has and no name goes on with, a text without dots ends nothing. -/
theorem artifactEnds_append_cons (dotted : Dotted h) {c : Char} (apart : goesOn [c] = false)
    (free : ∀ suffix ∈ h.artifactSuffixes, c ∉ suffix) (plain : '.' ∉ more) :
    ArtifactEnds h (s ++ c :: more) n ↔ ArtifactEnds h s n := by
  by_cases within : n ≤ s.length
  · exact artifactEnds_append apart within
  refine iff_of_false ?_ fun ⟨_, _, ends⟩ => within ends.within
  rintro ⟨suffix, mem, ends⟩
  obtain ⟨k, rfl⟩ := Nat.exists_eq_add_of_lt (Nat.lt_of_not_le within)
  have taken : (s ++ c :: more).take (s.length + k + 1) = s ++ c :: more.take k := by
    rw [Nat.add_assoc, List.take_length_add_append, List.take_succ_cons]
  have ends := ends.ends
  rw [taken] at ends
  rcases List.suffix_or_suffix_of_suffix ends (List.suffix_append s _) with inside | across
  · obtain ⟨ext, rfl, -⟩ := dotted.exists_ext mem
    rcases List.mem_cons.mp (inside.subset List.mem_cons_self) with rfl | dot
    · exact free _ mem List.mem_cons_self
    · exact plain (List.mem_of_mem_take dot)
  · exact free suffix mem (across.subset List.mem_cons_self)

/-- The text behind the install root is an artifact's whole: a suffix ends it, and none ends before. -/
def IsArtifact (h : Layout) (rest : Text) : Prop :=
  IsLeast {n | ArtifactEnds h rest n} rest.length

theorem isArtifact_iff : IsArtifact h rest ↔
    ArtifactEnds h rest rest.length ∧ ∀ n < rest.length, ¬ArtifactEnds h rest n := by
  refine and_congr_right fun _ => ⟨fun lower n earlier ends => ?_, fun none n ends => ?_⟩
  · exact absurd (lower ends) (Nat.not_le_of_lt earlier)
  · exact Nat.le_of_not_lt fun earlier => none n earlier ends

instance (h : Layout) (rest : Text) : Decidable (IsArtifact h rest) :=
  decidable_of_iff _ isArtifact_iff.symm

/-- A piece is read up to where the artifact ends. -/
theorem artifact?_eq_whole_iff (dotted : Dotted h) (apart : goesOn more = false) :
    artifact? h (h.installRoot.text ++ rest ++ more) = some (h.installRoot.text ++ rest) ↔
      IsArtifact h rest := by
  rw [artifact?_eq_some_iff dotted, List.append_assoc, List.drop_left' rfl]
  have whole : h.installRoot.text ++ rest =
      (h.installRoot.text ++ (rest ++ more)).take (h.installRoot.text.length + rest.length) := by
    rw [← List.append_assoc, ← List.length_append, List.take_left' rfl]
  constructor
  · rintro ⟨n, least, read⟩
    obtain ⟨_, _, stop⟩ := id least.1
    have within := stop.within
    have length := congrArg List.length read
    simp only [List.length_append, List.length_take] at length within
    obtain rfl : n = rest.length := by omega
    refine ⟨(artifactEnds_append apart le_rfl).mp least.1, fun m at_m => ?_⟩
    obtain ⟨_, _, ends⟩ := id at_m
    exact least.2 ((artifactEnds_append apart ends.within).mpr at_m)
  · rintro ⟨ends, lower⟩
    refine ⟨rest.length, ⟨(artifactEnds_append apart le_rfl).mpr ends, fun m at_m => ?_⟩, whole⟩
    rcases Nat.lt_or_ge m rest.length with earlier | later
    · exact lower ((artifactEnds_append apart earlier.le).mp at_m)
    · exact later

theorem artifact?_eq_none (dotted : Dotted h) (plain : '.' ∉ piece) : artifact? h piece = none := by
  cases read : artifact? h piece with
  | none => rfl
  | some s =>
    obtain ⟨n, ⟨⟨suffix, hs, ends⟩, -⟩, -⟩ := (artifact?_eq_some_iff dotted).mp read
    obtain ⟨ext, rfl, -⟩ := dotted.exists_ext hs
    have inside : '.' ∈ piece.drop h.installRoot.text.length :=
      List.mem_of_mem_take (ends.ends.subset List.mem_cons_self)
    exact absurd (List.mem_of_mem_drop inside) plain

end NativeFreeze.ImportLog
