import Mathlib.Data.List.TakeWhile
import NativeFreeze.Path.Basic
import NativeFreeze.Proofs.Text.Split

/-!
# Extensions of paths

The file name of a path is its last piece that is not idle. So joining keeps the extension of the
second path, and a path that was given an extension has that one, unless only two dots are left.
-/

namespace NativeFreeze.Path

variable {p q : Path} {s name : Text}

/-- The last piece of a path that is not idle. -/
def lastPiece? (s : Text) : Option Text :=
  (Text.split '/' s).reverse.find? fun piece => !isIdle piece

theorem getLast?_dropIdle (pieces : List Text) :
    (dropIdle pieces).getLast? = pieces.reverse.find? fun piece => !isIdle piece := by
  rw [dropIdle, List.getLast?_reverse, List.find?_not_eq_head?_dropWhile]

/-- An anchor adds nothing but idle pieces. -/
theorem find?_parse (s : Text) :
    (parse s).2.reverse.find? (fun piece => !isIdle piece) = lastPiece? s := by
  unfold parse
  split
  · simp [lastPiece?, Text.split, Text.splitOn, isIdle]
  · rfl
  · simp [lastPiece?, Text.split, Text.splitOn, Text.consFirst, isIdle]
  · rfl

theorem fileName?_eq (p : Path) :
    p.fileName? = (lastPiece? p.text).filter (· != ['.', '.']) := by
  rw [fileName?, getLast?_dropIdle, find?_parse]
  cases lastPiece? p.text with
  | none => rfl
  | some piece => by_cases h : piece = ['.', '.'] <;> simp [Option.filter, h]

theorem lastPiece?_append (s t : Text) :
    lastPiece? (s ++ '/' :: t) = (lastPiece? t).or (lastPiece? s) := by
  rw [lastPiece?, Text.split_append, List.reverse_append, List.find?_append]
  rfl

/-- The file name of a path is a piece that is not idle. -/
theorem mem_of_fileName? (h : p.fileName? = some name) :
    name ∈ Text.split '/' p.text ∧ isIdle name = false := by
  rw [fileName?_eq, Option.filter_eq_some_iff] at h
  have found := List.find?_some h.1
  exact ⟨List.mem_reverse.mp (List.mem_of_find?_eq_some h.1), by simpa using found⟩

theorem fileName?_ne_none (h : p.suffix ≠ []) : p.fileName? ≠ none := by
  intro none
  rw [suffix, none] at h
  exact h rfl

/-- A path that is joined to another keeps its file name. -/
theorem fileName?_join (h : q.fileName? ≠ none) : (p.join q).fileName? = q.fileName? := by
  have behind (front : Text) : fileName? ⟨front ++ '/' :: q.text⟩ = q.fileName? := by
    cases hq : lastPiece? q.text with
    | none => rw [fileName?_eq q, hq] at h; exact absurd rfl h
    | some piece => rw [fileName?_eq, fileName?_eq, lastPiece?_append, hq, Option.some_or]
  unfold join
  split
  · rfl
  · split
    · rename_i slash
      obtain ⟨front, hf⟩ := List.getLast?_eq_some_iff.mp slash
      rw [hf, List.append_assoc]
      exact behind front
    · exact behind p.text

/-- Joining keeps the extension of the second path. -/
theorem suffix_join (h : q.suffix ≠ []) : (p.join q).suffix = q.suffix := by
  rw [suffix, fileName?_join (fileName?_ne_none h), suffix]

/-- The stem of a name that is not idle is a nonempty part of it. -/
theorem stem_ne_nil (busy : isIdle name = false) : (cutExtension name).1 ≠ [] := by
  unfold cutExtension
  split
  · rintro rfl
    simp [isIdle] at busy
  · split
    · rintro rfl
      simp [isIdle] at busy
    · rename_i stem _ full
      simpa using full

theorem stem_subset (name : Text) : (cutExtension name).1 ⊆ name := by
  unfold cutExtension
  split
  · exact fun _ h => h
  · split
    · exact fun _ h => h
    · rename_i cut _
      intro c hc
      have whole := Text.append_of_cutAt? cut
      rw [← List.mem_reverse, whole]
      exact List.mem_append_right _ (List.mem_cons_of_mem _ (List.mem_reverse.mp hc))

/-- Where the stem is a dot, the name starts with two. -/
theorem eq_dots_of_stem (busy : isIdle name = false) (stem : (cutExtension name).1 = ['.']) :
    ∃ old, name = '.' :: '.' :: old := by
  unfold cutExtension at stem
  split at stem
  · have dot : name = ['.'] := stem
    simp [isIdle, dot] at busy
  · split at stem
    · have dot : name = ['.'] := stem
      simp [isIdle, dot] at busy
    · rename_i ext back cut _
      have whole := Text.append_of_cutAt? cut
      obtain rfl : back = ['.'] := by simpa using congrArg List.reverse stem
      exact ⟨ext.reverse, by simpa using congrArg List.reverse whole⟩

section Extension
variable {ext : Text} (slash : '/' ∉ ext) (dot : '.' ∉ ext)
include slash dot

/-- The extension of a path is what its text ends in, except that two dots have none. -/
theorem suffix_of_text {c : Char} (hp : p.text = s ++ c :: '.' :: ext) (hc : c ≠ '/') :
    p.suffix = '.' :: ext ∨ p.suffix = [] := by
  have tail : '/' ∉ c :: '.' :: ext := by simp [Ne.symm hc, slash]
  obtain ⟨front, last, -, ht⟩ := Text.split_append_of_not_mem tail s
  have busy : isIdle (last ++ c :: '.' :: ext) = false := by
    cases last <;> simp [isIdle]
  have piece : lastPiece? p.text = some (last ++ c :: '.' :: ext) := by
    rw [lastPiece?, hp, ht, List.reverse_append, List.reverse_singleton, List.singleton_append,
      List.find?_cons, busy]
    rfl
  rw [suffix, fileName?_eq, piece]
  by_cases up : last ++ c :: '.' :: ext = ['.', '.']
  · exact .inr (by rw [up]; rfl)
  · refine .inl ?_
    have cut : Text.cutAt? '.' (last ++ c :: '.' :: ext).reverse =
        some (ext.reverse, c :: last.reverse) := by
      rw [List.reverse_append, List.reverse_cons, List.reverse_cons, List.append_assoc,
        List.append_assoc]
      exact Text.cutAt?_append (by simpa using dot) _
    have named : (some (last ++ c :: '.' :: ext)).filter (· != ['.', '.']) =
        some (last ++ c :: '.' :: ext) := by simp [Option.filter, up]
    rw [named]
    dsimp only
    rw [cutExtension, cut]
    simp

/-- A path that was given an extension has it, unless only two dots are left of its name. -/
theorem suffix_withSuffix (file : p.fileName? ≠ none) :
    (p.withSuffix ('.' :: ext)).suffix ∈ ['.' :: ext, ['.'], []] := by
  obtain ⟨name, hn⟩ := Option.ne_none_iff_exists'.mp file
  obtain ⟨piece, busy⟩ := mem_of_fileName? hn
  rw [withSuffix, hn]
  dsimp only
  split
  · rename_i dots
    obtain ⟨stem, ends⟩ : (cutExtension name).1 = ['.'] ∧ Text.endsWith name p.text = true := by
      simpa using dots
    obtain ⟨front, hf⟩ : ∃ front, front ++ name = p.text := List.isSuffixOf_iff_suffix.mp ends
    obtain ⟨old, rfl⟩ := eq_dots_of_stem busy stem
    have left : p.text.take (p.text.length - (('.' :: '.' :: old).length - 2)) =
        front ++ ['.', '.'] := by
      rw [← hf, show front ++ '.' :: '.' :: old = (front ++ ['.', '.']) ++ old by simp]
      refine List.take_left' ?_
      simp only [List.length_append, List.length_cons, List.length_nil]
      omega
    rw [left]
    have short : suffix ⟨front ++ ['.', '.']⟩ = ['.'] ∨ suffix ⟨front ++ ['.', '.']⟩ = [] :=
      suffix_of_text List.not_mem_nil List.not_mem_nil rfl (by decide)
    rcases short with h | h <;> simp [h]
  · rcases parse p.text with ⟨anchor, pieces⟩
    obtain ⟨front, hf⟩ := Text.exists_join_append ['/'] (dropIdle pieces).dropLast
      (cutExtension name).1
    rcases List.eq_nil_or_concat (cutExtension name).1 with none | ⟨stem, c, hs⟩
    · exact absurd none (stem_ne_nil busy)
    · rw [List.concat_eq_append] at hs
      have letter : c ≠ '/' := by
        rintro rfl
        have inside : '/' ∈ (cutExtension name).1 := by simp [hs]
        exact Text.not_mem_of_mem_split piece (stem_subset name inside)
      have text : (⟨(unparse anchor ((dropIdle pieces).dropLast ++ [(cutExtension name).1])).text ++
          '.' :: ext⟩ : Path).text = (anchor.text ++ front ++ stem) ++ c :: '.' :: ext := by
        rw [unparse, hf, hs]
        simp
      rcases suffix_of_text slash dot text letter with h | h
      · rw [h]
        exact List.mem_cons_self
      · rw [h]
        exact List.mem_cons_of_mem _ (List.mem_cons_of_mem _ (List.mem_singleton.mpr rfl))

end Extension

end NativeFreeze.Path
