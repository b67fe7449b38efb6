import NativeFreeze.Proofs.Bundle.Names
import NativeFreeze.Proofs.Path.Extension

/-!
# The members of an archive

A plan offers its files and then, folder by folder, what walking over each finds. Of the sources that
have one name the first is a member, and the members keep the order of the sources. A folder's files are
stored behind its own name under names that are not those of cache directories. So such a name gets into
the archive only at the top: through a folder that is a link, since a link is walked whatever its name
is.
-/

namespace NativeFreeze

open NativeFreeze.Path

namespace BundlePlan

variable {h : Layout} {t : FileTree} {w w' : Workspace} {p : Path} {ps paths : List Path}
  {name : Text} {f folder : ArchiveSource} {folders sources kept offered : List ArchiveSource}
  {plan : BundlePlan}

/-! ## The first of each name -/

/-- A name of an archive that leads through a cache directory. -/
def Cached (name : Text) : Prop :=
  cacheName ∈ Text.split '/' name

instance (name : Text) : Decidable (Cached name) :=
  inferInstanceAs (Decidable (cacheName ∈ Text.split '/' name))

/-- In a plan made from dependencies, a folder that puts a file into a cache directory is a link. -/
theorem exists_link_of_cached (hf : f ∈ (ofDependencies h paths).folders) (cached : Cached f.name)
    (walked : walkFolder t f.path = .ok ps) (found : ps ≠ []) :
    ∃ l target, t.linkAt? f.path = .ok (l, .link target) := by
  have name : f.name = cacheName := by
    rcases isName_or_isStep_of_mem_folders hf with name | step
    · rw [Cached, Text.split_eq_singleton name.whole, List.mem_singleton] at cached
      exact cached.symm
    · rcases (by simpa [isStep, or_assoc] using step :
        f.name = ['/'] ∨ f.name = ['.'] ∨ f.name = ['.', '.']) with same | same | same <;>
          exact absurd (same ▸ cached) (by decide)
  obtain ⟨-, kind, -, -, -, same⟩ := exists_places_of_mem_folders hf
  have fileName : f.path.fileName? = some cacheName := by
    rw [← fileName?_of_same same, name, child, fileName?_join (by decide)]
    decide
  cases walked_of_walkFolder walked with
  | nothing => exact absurd rfl found
  | file _ other => exact absurd (by rw [fileName]; rfl) other
  | directory _ other => exact absurd (by rw [fileName]; rfl) other
  | link there _ => exact ⟨_, _, there⟩

/-! ## The members -/

/-- An installation in which the standard library and the packages have a module and a folder of one
name. -/
def twins : Workspace where
  files := {
    entries := (["inst", "inst/lib", "inst/lib/python3.11", "inst/lib/python3.11/pkg",
        "inst/lib/python3.11/site-packages", "inst/lib/python3.11/site-packages/pkg"].map
        fun p => (Text.split '/' p.toList, .directory)) ++
      ["inst/lib/python3.11/abc.py", "inst/lib/python3.11/pkg/mod.py",
        "inst/lib/python3.11/site-packages/abc.py",
        "inst/lib/python3.11/site-packages/pkg/mod.py"].map
        fun p => (Text.split '/' p.toList, .file (.plain []) false) }

end BundlePlan

end NativeFreeze
