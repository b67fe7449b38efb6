import NativeFreeze.Bundle.Pack
import NativeFreeze.Proofs.Bundle.Plan
import NativeFreeze.Proofs.FileTree.Visit
import NativeFreeze.Proofs.Invariant

/-!
# What reaches the archive

A dependency that is archived on its own is a member of its bundle, and so is every file to which
names lead down from a folder of the plan. A name that is taken twice stays a member. What is written
as an archive is what is read from it, unless a native library was copied over it. So a dependency
reaches the archive if the way to it below its folder leads through no link.
-/

namespace NativeFreeze

open FileTree

variable {h : Layout} {t : FileTree} {w w' : Workspace} {p : Path} {k l : Location} {e : Entry}
  {names : List Text} {folder : ArchiveSource} {folders sources : List ArchiveSource}

namespace BundlePlan

/-! ## Members -/

/-- A file below a folder is stored under the names that lead to it from the folder's name. -/
theorem memberName_foldl {rest : List Path.Component}
    (below : p.components = folder.path.components ++ names.map .name ++ rest) :
    memberName folder (names.foldl Path.child folder.path) =
      Text.join ['/'] (folder.name :: names) := by
  have components := Path.components_foldl_child below
  have inside : folder.path.below? (names.foldl Path.child folder.path) =
      some (names.map .name) :=
    Path.componentsAfter?_eq_some_iff.mpr components
  rw [memberName, inside, Option.getD_some, Text.join_cons, List.flatMap_map]
  rfl

/-- A name that is offered is a name of the members. -/
theorem name_mem_claim {s : ArchiveSource} (hs : s ∈ sources) (taken : List Text) :
    s.name ∈ taken ∨ s.name ∈ (claim taken sources).1.map (·.name) := by
  induction sources generalizing taken with
  | nil => exact absurd hs List.not_mem_nil
  | cons first rest ih =>
    rw [claim]
    split
    · rename_i known
      rcases List.mem_cons.mp hs with rfl | hs
      · exact .inl (by simpa using known)
      · exact ih hs taken
    · dsimp only
      rw [List.map_cons, List.mem_cons]
      rcases List.mem_cons.mp hs with rfl | hs
      · exact .inr (.inl rfl)
      · rcases ih hs (first.name :: taken) with known | later
        · exact (List.mem_cons.mp known).elim (.inr ∘ .inl) .inl
        · exact .inr (.inr later)

theorem fileName?_getD_ne_cacheName {folder : Path}
    (outside : .name cacheName ∉ folder.components) :
    folder.fileName?.getD folder.text ≠ cacheName := by
  intro cache
  cases name : folder.fileName? with
  | some name' =>
    obtain rfl : name' = cacheName := by simpa [name] using cache
    exact outside (Path.name_mem_of_fileName? name)
  | none =>
    obtain ⟨text⟩ := folder
    obtain rfl : text = cacheName := by simpa [name] using cache
    exact absurd name (by decide +kernel)

/-- A walk over a folder is a visit of the directory that it leads to, be it through a link. -/
theorem walkFolder_eq_ok {folder : Path} {ps : List Path} (walked : walkFolder t folder = .ok ps)
    (directory : t.at? folder = .ok (k, .directory))
    (outside : .name cacheName ∉ folder.components) :
    ps = (t.visit (· == cacheName) k folder).filterMap fun found =>
      if found.2.isFile then some found.1 else none := by
  cases there : t.linkAt? folder with
  | error e => simp [walkFolder, there, bind, Except.bind] at walked
  | ok found =>
    obtain ⟨l, d⟩ := found
    cases d with
    | file content mark =>
      have same := directory.symm.trans (at?_of_linkAt? there nofun)
      simp at same
    | directory =>
      have same := directory.symm.trans (at?_of_linkAt? there nofun)
      obtain ⟨rfl, -⟩ := Prod.mk.inj (Except.ok.inj same)
      have regular : ((folder.fileName?.getD folder.text) == cacheName) = false :=
        beq_eq_false_iff_ne.mpr (fileName?_getD_ne_cacheName outside)
      simp only [walkFolder, there, bind, Except.bind, regular, pure, Except.pure] at walked
      exact (Except.ok.inj walked).symm
    | link target =>
      simp only [walkFolder, there, bind, Except.bind, directory, pure, Except.pure] at walked
      exact (Except.ok.inj walked).symm

/-- A walk over a folder finds every file that names lead to, outside cache directories. -/
theorem mem_walkFolder {folder : Path} {ps : List Path} (walked : walkFolder t folder = .ok ps)
    (directory : t.at? folder = .ok (k, .directory)) (leads : Leads t k names e)
    (file : e.isFile = true) (deeper : names ≠ []) (uncached : cacheName ∉ names)
    (outside : .name cacheName ∉ folder.components) : names.foldl Path.child folder ∈ ps := by
  have kept : ∀ name ∈ names, (name == cacheName) = false := by
    intro name hn
    rw [beq_eq_false_iff_ne]
    rintro rfl
    exact uncached hn
  rw [walkFolder_eq_ok walked directory outside]
  exact List.mem_filterMap.mpr ⟨_, mem_visit leads deeper kept, by simp [file]⟩

theorem exists_walk_of_folderFiles (all : folderFiles t folders = (sources, none))
    (hf : folder ∈ folders) : ∃ ps, walkFolder t folder.path = .ok ps ∧
      ∀ p ∈ ps, ⟨p, memberName folder p⟩ ∈ sources := by
  induction folders generalizing sources with
  | nil => exact absurd hf List.not_mem_nil
  | cons first rest ih =>
    rw [folderFiles] at all
    cases walked : walkFolder t first.path with
    | error e => simp [walked] at all
    | ok ps =>
      simp only [walked, Prod.mk.injEq] at all
      obtain ⟨rfl, none⟩ := all
      rcases List.mem_cons.mp hf with rfl | hf
      · refine ⟨ps, walked, fun p hp => List.mem_append_left _ ?_⟩
        exact List.mem_map_of_mem hp
      · obtain ⟨qs, walked, inside⟩ := ih (Prod.ext rfl none) hf
        exact ⟨qs, walked, fun p hp => List.mem_append_right _ (inside p hp)⟩

/-- Members that are found are the candidates whose names are free, and finding them leaves the files
alone. -/
theorem members_eq_ok {plan : BundlePlan} {kept : List ArchiveSource}
    (h : plan.members.result w = (.ok kept, w')) :
    (plan.candidates w.files).2 = none ∧
      kept = (claim [] (plan.candidates w.files).1).1 ∧ w'.files = w.files := by
  unfold members at h
  obtain ⟨t, w₁, files, h⟩ := Action.bind_eq_ok h
  rw [Action.result_files] at files
  obtain ⟨ht, rfl⟩ := Prod.mk.inj files
  obtain rfl := Except.ok.inj ht
  dsimp only at h
  obtain ⟨_, w₂, noted, h⟩ := Action.bind_eq_ok h
  have files : w₂.files = w.files := by
    have left := congrArg (fun r => r.2.files) noted
    refine left.symm.trans (And.left (Action.preserves_forIn (I := (·.files = w.files)) ?_ _ w rfl))
    exact fun _ => Action.maintains_modify fun _ same => same
  cases failure : (plan.candidates w.files).2 with
  | some failure => simp [failure] at h
  | none =>
    simp only [failure, Action.result_pure, Prod.mk.injEq, Except.ok.injEq] at h
    exact ⟨rfl, h.1.symm, h.2 ▸ files⟩

end BundlePlan

namespace Bundle

/-! ## The archive -/

/-- What is written as an archive has the names of the members behind those it had. -/
theorem fillArchive_eq_ok {archive : Path} {done : Archive} {members : List ArchiveSource}
    {mark : Bool} (there : w.files.at? archive = .ok (l, .file (.archive done) mark))
    (h : (fillArchive archive done members).result w = (.ok (), w')) :
    ∃ l all mark, w'.files.at? archive = .ok (l, .file (.archive all) mark) ∧
      Archive.names all = done.names ++ members.map (·.name) := by
  induction members generalizing done w l mark with
  | nil =>
    obtain ⟨-, rfl⟩ := Prod.mk.inj h
    exact ⟨l, done, mark, there, (List.append_nil _).symm⟩
  | cons s rest ih =>
    rw [fillArchive] at h
    obtain ⟨t, w₁, files, h⟩ := Action.bind_eq_ok h
    dsimp only at h
    cases read : t.read s.path with
    | error e => cases e <;> simp [read, Action.result_bind] at h
    | ok bytes =>
      simp only [read, pure_bind] at h
      obtain ⟨_, w₂, changed, h⟩ := Action.bind_eq_ok h
      obtain ⟨l, mark, there⟩ := (wrote_of_write (Action.files_of_change changed)).at?
      obtain ⟨l, all, mark, there, names⟩ := ih there h
      refine ⟨l, all, mark, there, ?_⟩
      rw [names]
      simp [Archive.names]

theorem writeArchive_eq_ok {archive : Path} {members : List ArchiveSource}
    (h : (writeArchive archive members).result w = (.ok (), w')) :
    ∃ l all mark, w'.files.at? archive = .ok (l, .file (.archive all) mark) ∧
      Archive.names all = members.map (·.name) := by
  rw [writeArchive] at h
  obtain ⟨_, w₁, noted, h⟩ := Action.bind_eq_ok h
  obtain ⟨_, w₂, changed, h⟩ := Action.bind_eq_ok h
  obtain ⟨l, mark, there⟩ := (wrote_of_write (Action.files_of_change changed)).at?
  exact fillArchive_eq_ok there h

/-! ## The native libraries -/

/-- A library without a file name is passed over, and any other is copied to its name. -/
theorem copyLibrary_cases {outDir library : Path} {answer : Option Path}
    (h : (copyLibrary outDir library).result w = (.ok answer, w')) :
    library.fileName? = none ∧ answer = none ∧ w'.files = w.files ∨
      ∃ name, library.fileName? = some name ∧ answer = some (outDir.child name) ∧
        w.files.copy library (outDir.child name) = .ok w'.files := by
  unfold copyLibrary at h
  cases named : library.fileName? with
  | none =>
    simp only [named, Action.result_pure, Prod.mk.injEq, Except.ok.injEq] at h
    exact .inl ⟨rfl, h.1.symm, h.2 ▸ rfl⟩
  | some name =>
    simp only [named] at h
    obtain ⟨_, w₁, noted, h⟩ := Action.bind_eq_ok h
    obtain ⟨_, w₂, changed, h⟩ := Action.bind_eq_ok h
    simp only [Action.result_pure, Prod.mk.injEq, Except.ok.injEq] at h
    obtain ⟨rfl, rfl⟩ := h
    rw [Action.result_note, Prod.mk.injEq] at noted
    have copied := Action.files_of_change changed
    exact .inr ⟨name, rfl, rfl, by simpa [← noted.2] using copied⟩

/-- A copied library is where the answer says. -/
theorem copyLibrary_eq_ok {outDir library : Path} {answer : Option Path}
    (h : (copyLibrary outDir library).result w = (.ok answer, w')) :
    answer = none ∧ w'.files = w.files ∨
      ∃ target content, answer = some target ∧ Wrote w.files target content w'.files := by
  rcases copyLibrary_cases h with ⟨-, none, same⟩ | ⟨name, -, answer, copied⟩
  · exact .inl ⟨none, same⟩
  · obtain ⟨content, wrote⟩ := wrote_of_copy copied
    exact .inr ⟨_, content, answer, wrote⟩

/-- Copying libraries leaves a file where it is, and as it is unless a copy went to its place. -/
theorem copyLibraries_keep {outDir q : Path} {libraries targets : List Path}
    (h : (libraries.filterMapM (copyLibrary outDir)).result w = (.ok targets, w'))
    (there : w.files.at? q = .ok (l, e)) (file : e.isFile = true) :
    ∃ e', w'.files.at? q = .ok (l, e') ∧ e'.isFile = true ∧
      ((∀ target ∈ targets, ∀ d, w'.files.at? target ≠ .ok (l, d)) → e' = e) := by
  induction libraries generalizing w targets q l e with
  | nil =>
    obtain ⟨-, rfl⟩ := Prod.mk.inj h
    exact ⟨e, there, file, fun _ => rfl⟩
  | cons library rest ih =>
    rw [List.filterMapM_cons] at h
    obtain ⟨answer, w₁, copied, h⟩ := Action.bind_eq_ok h
    rcases copyLibrary_eq_ok copied with ⟨rfl, same⟩ | ⟨target, content, rfl, wrote⟩
    · exact ih h (same ▸ there) file
    · obtain ⟨others, w₂, copies, h⟩ := Action.bind_eq_ok h
      simp only [Action.result_pure, Prod.mk.injEq, Except.ok.injEq] at h
      obtain ⟨rfl, rfl⟩ := h
      obtain ⟨e₁, there₁, file₁, apart₁⟩ := wrote.keeps there file
      obtain ⟨e', there', file', apart'⟩ := ih copies there₁ file₁
      refine ⟨e', there', file', fun apart => ?_⟩
      have first : ∀ d, w₁.files.at? target ≠ .ok (l, d) := by
        intro d at_l
        obtain ⟨k, mark, led⟩ := wrote.at?
        obtain ⟨rfl, -⟩ := Prod.mk.inj (Except.ok.inj (at_l.symm.trans led))
        obtain ⟨d, later, -⟩ := ih copies led rfl
        exact apart target List.mem_cons_self d later
      have rest := apart' fun target ht => apart target (List.mem_cons_of_mem _ ht)
      exact rest.trans (apart₁ first)

/-! ## Bundles -/

theorem files_of_makeAll {during : Option Activity} {outDir : Path}
    (h : (Action.makeAll during outDir).result w = (.ok (), w')) :
    w'.files = (w.files.makeAll outDir).2 := by
  unfold Action.makeAll at h
  obtain ⟨t, w₁, files, h⟩ := Action.bind_eq_ok h
  rw [Action.result_files] at files
  obtain ⟨ht, rfl⟩ := Prod.mk.inj files
  obtain rfl := Except.ok.inj ht
  dsimp only at h
  obtain ⟨_, w₂, kept, h⟩ := Action.bind_eq_ok h
  obtain ⟨-, rfl⟩ := Prod.mk.inj kept
  cases made : (w.files.makeAll outDir).1 with
  | error e => simp [made] at h
  | ok _ =>
    simp only [made, Action.result_pure, Prod.mk.injEq] at h
    exact h.2 ▸ rfl

/-- Announces a bundle, makes its directory, and finds the members of its archive. -/
def gather (plan : BundlePlan) (outDir : Path) : Action (List ArchiveSource) := do
  Action.note .info .bundle ("Bundle of ".toList ++ plan.describe)
  Action.makeAll (some (.creating outDir)) outDir
  plan.members

/-- The stages of a successful packing: it finds the members, writes their archive, and then copies the
libraries. -/
theorem exists_stages_of_pack {dependencies : List Path} {outDir : Path} {bundle : Bundle}
    (packed : (pack h dependencies outDir).result w = (.ok bundle, w')) :
    ∃ members w₁ w₂,
      (gather (BundlePlan.ofDependencies h dependencies) outDir).result w = (.ok members, w₁) ∧
      bundle.archive = outDir.child archiveName ∧
      (writeArchive bundle.archive members).result w₁ = (.ok (), w₂) ∧
      ((BundlePlan.ofDependencies h dependencies).native.filterMapM (copyLibrary outDir)).result w₂ =
        (.ok bundle.native, w') := by
  have same : pack h dependencies outDir = (do
      let members ← gather (BundlePlan.ofDependencies h dependencies) outDir
      writeArchive (outDir.child archiveName) members
      let native ← (BundlePlan.ofDependencies h dependencies).native.filterMapM (copyLibrary outDir)
      return ⟨outDir.child archiveName, native⟩) := by
    simp only [pack, gather, bind_assoc]
  rw [same] at packed
  obtain ⟨members, w₁, found, packed⟩ := Action.bind_eq_ok packed
  obtain ⟨_, w₂, written, packed⟩ := Action.bind_eq_ok packed
  obtain ⟨native, w₃, copied, packed⟩ := Action.bind_eq_ok packed
  simp only [Action.result_pure, Prod.mk.injEq, Except.ok.injEq] at packed
  obtain ⟨rfl, rfl⟩ := packed
  exact ⟨members, w₁, w₂, found, rfl, written, copied⟩

/-- In a successful packing the archive that is written has the names of the members that were found. -/
theorem exists_gather_of_pack {dependencies : List Path} {outDir : Path} {bundle : Bundle}
    (packed : (pack h dependencies outDir).result w = (.ok bundle, w')) :
    ∃ members w₁ w₂ l all mark,
      (gather (BundlePlan.ofDependencies h dependencies) outDir).result w = (.ok members, w₁) ∧
      bundle.archive = outDir.child archiveName ∧
      w₂.files.at? bundle.archive = .ok (l, .file (.archive all) mark) ∧
      Archive.names all = members.map (·.name) ∧
      ((BundlePlan.ofDependencies h dependencies).native.filterMapM (copyLibrary outDir)).result w₂ =
        (.ok bundle.native, w') := by
  obtain ⟨members, w₁, w₂, found, named, written, copied⟩ := exists_stages_of_pack packed
  obtain ⟨l, all, mark, there, names⟩ := writeArchive_eq_ok written
  exact ⟨members, w₁, w₂, l, all, mark, found, named, there, names, copied⟩

/-- A successful packing: the members are found where only directories were added, their archive is
written, and then the libraries are copied. -/
theorem pack_eq_ok {dependencies : List Path} {outDir : Path} {bundle : Bundle}
    (packed : (pack h dependencies outDir).result w = (.ok bundle, w')) :
    ∃ t w₁ l all mark, Extends w.files t ∧
      ((BundlePlan.ofDependencies h dependencies).candidates t).2 = none ∧
      w₁.files.at? bundle.archive = .ok (l, .file (.archive all) mark) ∧
      Archive.names all = (BundlePlan.claim []
        ((BundlePlan.ofDependencies h dependencies).candidates t).1).1.map (·.name) ∧
      ((BundlePlan.ofDependencies h dependencies).native.filterMapM (copyLibrary outDir)).result w₁ =
        (.ok bundle.native, w') := by
  obtain ⟨members, _, w₁, l, all, mark, gathered, -, there, names, copied⟩ :=
    exists_gather_of_pack packed
  obtain ⟨_, v, noted, gathered⟩ := Action.bind_eq_ok gathered
  obtain ⟨_, v₁, made, found⟩ := Action.bind_eq_ok gathered
  rw [Action.result_note, Prod.mk.injEq] at noted
  have more : Extends w.files v₁.files := by
    rw [files_of_makeAll made, ← noted.2]
    exact .makeAll outDir
  obtain ⟨whole, rfl, -⟩ := BundlePlan.members_eq_ok found
  exact ⟨v₁.files, w₁, l, all, mark, more, whole, there, names, copied⟩

/-- A file that belongs in an archive: one that opens, without an upward step or a cache directory in
its path, with the names `segments` below the root of an archived subtree. -/
structure Archivable (h : Layout) (t : FileTree) (p : Path) (kind : Subtree)
    (segments : List Text) : Prop where
  opens : t.isFile p = true
  level : .up ∉ p.components
  uncached : .name BundlePlan.cacheName ∉ p.components
  archived : kind.isArchived = true
  placed : h.Places p kind segments

variable {kind : Subtree} {top : Text} {rest segments : List Text}

theorem Archivable.components_child (file : Archivable h t p kind (top :: rest))
    (sensitive : h.caseInsensitive = false) :
    ∃ c cs, cs.map Path.Component.text = rest ∧
      p.components = (h.root kind).components ++ c :: cs ∧
      ((h.root kind).child top).components = (h.root kind).components ++ [c] := by
  have below := file.placed.below
  simp only [Layout.segmentsBelow?, sensitive, Bool.false_eq_true, if_false,
    Option.map_eq_some_iff] at below
  obtain ⟨cs, below, texts⟩ := below
  have components : p.components = (h.root kind).components ++ cs :=
    Path.componentsAfter?_eq_some_iff.mp below
  obtain ⟨c, cs, rfl, rfl, texts⟩ := List.map_eq_cons_iff.mp texts
  exact ⟨c, cs, (List.cons.inj texts).2, components, Path.components_child components⟩

/-- The components of an archivable file: those of its top-level entry, and names. -/
theorem Archivable.components (file : Archivable h t p kind (top :: rest))
    (sensitive : h.caseInsensitive = false) :
    ((h.root kind).child top).components ++ rest.map .name = p.components := by
  obtain ⟨c, cs, rfl, components, child⟩ := file.components_child sensitive
  have named : ∀ d ∈ cs, .name d.text = d := by
    intro d hd
    obtain ⟨front, back, rfl⟩ := List.append_of_mem hd
    have whole : p.components = ((h.root kind).components ++ c :: front) ++ d :: back := by
      simp [components]
    have level : d ≠ .up := by
      rintro rfl
      exact file.level (whole ▸ by simp)
    exact Path.eq_name_of_mem_trail (Path.mem_trail_of_components whole (by simp)) level
  have names : (cs.map Path.Component.text).map .name = cs := by
    rw [List.map_map]
    exact (List.map_congr_left named).trans (List.map_id cs)
  rw [child, names, components, List.append_assoc, List.singleton_append]

theorem Archivable.components_ne_nil (file : Archivable h t p kind (top :: rest))
    (sensitive : h.caseInsensitive = false) : ((h.root kind).child top).components ≠ [] := by
  obtain ⟨c, cs, -, -, components⟩ := file.components_child sensitive
  simp [components]

theorem Archivable.exists_at? (file : Archivable h t p kind segments) :
    ∃ l e, t.at? p = .ok (l, e) ∧ e.isFile = true :=
  exists_at?_of_isFile file.opens

/-- The names of an archivable file lead to it from its top-level folder, through no link. -/
theorem Archivable.leads {next : Text} {t₁ : FileTree}
    (file : Archivable h t p kind (top :: next :: rest)) (sensitive : h.caseInsensitive = false)
    (direct : ∀ k, t.at? ((h.root kind).child top) = .ok (k, .directory) →
      t.LinkFree k (next :: rest)) (more : Extends t t₁) :
    ∃ k e, (∀ q : Path, q.components = ((h.root kind).child top).components →
        t₁.at? q = .ok (k, .directory)) ∧
      Leads t₁ k (next :: rest) e ∧ e.isFile = true := by
  obtain ⟨l, e, there, isFile⟩ := file.exists_at?
  obtain ⟨k, links, directory, walked⟩ := exists_directory_above there
    (file.components sensitive).symm (file.components_ne_nil sensitive) (List.cons_ne_nil next rest)
  exact ⟨k, e, fun q folder => more.at? (directory q folder),
    more.leads (leads_of_walk (direct k (directory _ rfl)) walked), isFile⟩

/-- A file that belongs in an archive is offered under its names below the subtree's root, if the way
to it below its top-level folder leads through no link. -/
theorem exists_candidate {dependencies : List Path} {t₁ : FileTree}
    (sensitive : h.caseInsensitive = false) (hp : p ∈ dependencies)
    (file : Archivable h t p kind (top :: rest))
    (direct : ∀ k, t.at? ((h.root kind).child top) = .ok (k, .directory) → t.LinkFree k rest)
    (more : Extends t t₁)
    (whole : ((BundlePlan.ofDependencies h dependencies).candidates t₁).2 = none) :
    ∃ s ∈ ((BundlePlan.ofDependencies h dependencies).candidates t₁).1,
      s.name = Text.join ['/'] (top :: rest) := by
  have exact_ := BundlePlan.ofDependencies_exact sensitive dependencies
  have components := file.components sensitive
  cases rest with
  | nil =>
    obtain ⟨s, hs, same⟩ := (exact_.files ⟨p, top⟩).mpr
      ⟨p, hp, Path.same_refl p, kind, file.archived, file.placed⟩
    refine ⟨s, List.mem_append_left _ hs, ?_⟩
    rw [(ArchiveSource.same_iff_and.mp same).2]
    simp [Text.join]
  | cons next rest =>
    obtain ⟨s, hs, same⟩ := (exact_.folders ⟨(h.root kind).child top, top⟩).mpr
      ⟨p, hp, kind, next, rest, file.archived, file.placed, Path.same_refl _⟩
    obtain ⟨path, name⟩ := ArchiveSource.same_iff_and.mp same
    have folder : s.path.components = ((h.root kind).child top).components := Path.same_iff.mp path
    obtain ⟨k, e, directory, leads, isFile⟩ := file.leads sensitive direct more
    have listed : BundlePlan.folderFiles t₁ (BundlePlan.ofDependencies h dependencies).folders =
        ((BundlePlan.folderFiles t₁ (BundlePlan.ofDependencies h dependencies).folders).1, none) :=
      Prod.ext rfl whole
    obtain ⟨ps, found, offered⟩ := BundlePlan.exists_walk_of_folderFiles listed hs
    have outside : .name BundlePlan.cacheName ∉ s.path.components := fun cache =>
      file.uncached (components ▸ List.mem_append_left _ (folder ▸ cache))
    have uncached : BundlePlan.cacheName ∉ next :: rest := fun cache =>
      file.uncached (components ▸ List.mem_append_right _ (List.mem_map_of_mem cache))
    have inside := BundlePlan.mem_walkFolder found (directory _ folder) leads isFile
      (List.cons_ne_nil next rest) uncached outside
    refine ⟨_, List.mem_append_right _ (offered _ inside), ?_⟩
    have below : p.components = s.path.components ++ (next :: rest).map .name ++ [] := by
      rw [folder, components, List.append_nil]
    exact (BundlePlan.memberName_foldl below).trans (congrArg (fun n => Text.join ['/'] (n :: _)) name)

/-- No traced file is lost: where packing succeeds and no native library is copied over the archive,
every file that belongs in the archive and lies below its top-level folder behind no link is stored
under its names below the subtree's root. -/
theorem name_mem_archive {dependencies : List Path} {outDir : Path} {bundle : Bundle}
    (sensitive : h.caseInsensitive = false)
    (packed : (pack h dependencies outDir).result w = (.ok bundle, w'))
    (apart : ∀ target ∈ bundle.native, w'.files.at? target ≠ w'.files.at? bundle.archive)
    (hp : p ∈ dependencies) (file : Archivable h w.files p kind (top :: rest))
    (direct : ∀ k, w.files.at? ((h.root kind).child top) = .ok (k, .directory) →
      w.files.LinkFree k rest) :
    ∃ l members mark, w'.files.at? bundle.archive = .ok (l, .file (.archive members) mark) ∧
      Text.join ['/'] (top :: rest) ∈ members.names := by
  obtain ⟨t, w₁, l, all, mark, more, whole, there, names, copied⟩ := pack_eq_ok packed
  obtain ⟨e, later, isFile, same⟩ := copyLibraries_keep copied there rfl
  have kept : e = .file (.archive all) mark := by
    refine same fun target ht d led => ?_
    have same : d = e := Option.some.inj ((get?_of_at? led).symm.trans (get?_of_at? later))
    exact apart target ht (led.trans (same ▸ later.symm))
  refine ⟨l, all, mark, kept ▸ later, ?_⟩
  obtain ⟨s, hs, name⟩ := exists_candidate sensitive hp file direct more whole
  rcases BundlePlan.name_mem_claim hs [] with none | claimed
  · exact absurd none List.not_mem_nil
  · exact names ▸ name ▸ claimed

/-- Where the packages of an installation are. -/
def site : Location :=
  ["inst", "lib", "python3.11", "site-packages"].map String.toList

/-- A workspace with the directories of an installation and some entries of its packages. -/
def packages (entries : List (String × Entry)) : Workspace where
  files := {
    entries := ([1, 2, 3, 4].map fun n => (site.take n, .directory)) ++
      entries.map fun (p, e) => (site ++ Text.split '/' p.toList, e) }

/-- The module `mod` of the package `pkg`. -/
def modulePath : Path :=
  ⟨"inst/lib/python3.11/site-packages/pkg/mod.py".toList⟩

/-- The module is a file. -/
def plain : Workspace :=
  packages [("pkg", .directory), ("pkg/mod.py", .file (.plain (Text.bytes "x = 1".toList)) false)]

/-- The module is a link to a file beside its package. -/
def linked : Workspace :=
  packages [("pkg", .directory), ("pkg/mod.py", .link "../shared.py".toList),
    ("shared.py", .file (.plain (Text.bytes "x = 1".toList)) false)]

/-- The bundle of the module. -/
def packed (w : Workspace) : Except Failure Bundle × Workspace :=
  (pack BundlePlan.installed [modulePath] ⟨"dist".toList⟩).result w

/-- The archive that `packed` writes. -/
def zip : Path :=
  ⟨"dist/python.zip".toList⟩

theorem packed_eq {w : Workspace} (packs : (packed w).1 = .ok ⟨zip, []⟩) :
    (pack BundlePlan.installed [modulePath] ⟨"dist".toList⟩).result w =
      (.ok ⟨zip, []⟩, (packed w).2) :=
  Prod.ext packs rfl

theorem archivable_module {w : Workspace} (opens : w.files.isFile modulePath = true) :
    Archivable BundlePlan.installed w.files modulePath .thirdParty
      ["pkg".toList, "mod.py".toList] where
  opens := opens
  level := by decide
  uncached := by decide
  archived := rfl
  placed := ⟨by decide, by decide⟩

theorem name_mem_archive_plain :
    ∃ l members mark, (packed plain).2.files.at? zip = .ok (l, .file (.archive members) mark) ∧
      Text.join ['/'] ["pkg".toList, "mod.py".toList] ∈ members.names := by
  have folder : plain.files.at?
      ((BundlePlan.installed.root .thirdParty).child "pkg".toList) =
        .ok (site ++ ["pkg".toList], .directory) := by decide +kernel
  refine name_mem_archive rfl (packed_eq (by decide +kernel)) nofun List.mem_cons_self
    (archivable_module (by decide +kernel)) fun k there front isFront deeper target => ?_
  obtain ⟨rfl, -⟩ := Prod.mk.inj (Except.ok.inj (there.symm.trans folder))
  obtain ⟨_, rfl, none⟩ := (List.prefix_cons_iff.mp isFront).resolve_left deeper
  obtain rfl := List.prefix_nil.mp none
  have file : plain.files.get? (site ++ ["pkg".toList] ++ ["mod.py".toList]) =
      some (.file (.plain (Text.bytes "x = 1".toList)) false) := by decide +kernel
  rw [file]
  exact nofun

/-- A module that is reached through a link is lost. -/
theorem name_not_mem_archive_linked :
    ∃ bundle w', (pack BundlePlan.installed [modulePath] ⟨"dist".toList⟩).result linked =
        (.ok bundle, w') ∧
      Archivable BundlePlan.installed linked.files modulePath .thirdParty
        ["pkg".toList, "mod.py".toList] ∧
      ¬∃ l members mark, w'.files.at? bundle.archive = .ok (l, .file (.archive members) mark) ∧
        Text.join ['/'] ["pkg".toList, "mod.py".toList] ∈ members.names := by
  refine ⟨⟨zip, []⟩, (packed linked).2, packed_eq (by decide +kernel),
    archivable_module (by decide +kernel), ?_⟩
  rintro ⟨l, members, mark, there, mem⟩
  have empty : (packed linked).2.files.at? zip =
      .ok (["dist".toList, "python.zip".toList], .file (.archive []) false) := by decide +kernel
  obtain ⟨-, archive⟩ := Prod.mk.inj (Except.ok.inj (there.symm.trans empty))
  obtain ⟨⟨rfl⟩, -⟩ := Entry.file.inj archive
  exact absurd mem List.not_mem_nil

end Bundle

end NativeFreeze
