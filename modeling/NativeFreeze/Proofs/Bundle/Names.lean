import NativeFreeze.Proofs.Bundle.Entries
import NativeFreeze.Proofs.Bundle.Pack

/-!
# Names in an archive

A name in an archive is safe to unpack if it leads down from the directory it is unpacked into: it is
relative, and none of its segments is empty or a step. The names of files on disk are such segments, so
a member is named safely unless the file or folder of the plan that it comes from is named after a
step. That is the case for a dependency whose path goes on behind its subtree's root with `.`, `..` or
the root.
-/

namespace NativeFreeze

variable {h : Layout} {t : FileTree} {w w' : Workspace} {p q : Path} {k : Location} {e : Entry}
  {s top name : Text} {names : List Text} {f folder : ArchiveSource}
  {folders sources kept : List ArchiveSource} {ps : List Path} {plan : BundlePlan}

namespace Path

/-- A text that names an entry of a directory: one segment, and no step. -/
structure IsName (s : Text) : Prop where
  whole : '/' ∉ s
  busy : isIdle s = false
  level : s ≠ ['.', '.']

instance (s : Text) : Decidable (IsName s) :=
  decidable_of_iff ('/' ∉ s ∧ isIdle s = false ∧ s ≠ ['.', '.'])
    ⟨fun h => ⟨h.1, h.2.1, h.2.2⟩, fun h => ⟨h.whole, h.busy, h.level⟩⟩

/-- A text that is a step of a path and no name: the root, the directory itself or the one above. -/
def isStep (s : Text) : Bool :=
  s == ['/'] || s == ['.'] || s == ['.', '.']

theorem IsName.component_eq (name : IsName s) : component s = .name s :=
  if_neg name.level

theorem isName_of_fileName? {name : Text} (named : p.fileName? = some name) : IsName name where
  whole := Text.not_mem_of_mem_split (mem_of_fileName? named).1
  busy := (mem_of_fileName? named).2
  level := by
    rw [fileName?_eq, Option.filter_eq_some_iff] at named
    simpa using named.2

theorem isName_or_isStep_of_mem_trail {c : Component} (hc : c ∈ trail s) :
    IsName c.text ∨ isStep c.text = true := by
  obtain ⟨whole, busy, -⟩ := trail_text hc
  by_cases up : c.text = ['.', '.']
  · exact .inr (by simp [isStep, up])
  · exact .inl ⟨whole, busy, up⟩

theorem isName_or_isStep {c : Component} (hc : c ∈ p.components) :
    IsName c.text ∨ isStep c.text = true := by
  rw [components_eq] at hc
  rcases List.mem_append.mp hc with anchor | trail
  · right
    cases h : (parse p.text).1 <;> simp [h, Anchor.components] at anchor <;> subst anchor <;> rfl
  · exact isName_or_isStep_of_mem_trail trail

theorem components_child_of_isName (p : Path) (name : IsName s) :
    (p.child s).components = p.components ++ [.name s] :=
  name.component_eq ▸ components_child_of_busy p name.whole name.busy

/-- The way down from a directory through entries has the components of both. -/
theorem components_foldl_of_isName (p : Path) (all : ∀ name ∈ names, IsName name) :
    (names.foldl child p).components = p.components ++ names.map .name := by
  rw [components_foldl_of_busy p fun s hs => ⟨(all s hs).whole, (all s hs).busy⟩]
  apply congrArg (p.components ++ ·)
  exact List.map_congr_left fun s hs => (all s hs).component_eq

end Path

open NativeFreeze.Path

namespace Archive

/-- A name that is safe to unpack. -/
structure IsSafe (name : Text) : Prop where
  relative : name.head? ≠ some '/'
  segments : ∀ segment ∈ Text.split '/' name,
    segment ≠ [] ∧ segment ≠ ['.'] ∧ segment ≠ ['.', '.']

instance (name : Text) : Decidable (IsSafe name) :=
  decidable_of_iff (name.head? ≠ some '/' ∧ ∀ segment ∈ Text.split '/' name,
      segment ≠ [] ∧ segment ≠ ['.'] ∧ segment ≠ ['.', '.'])
    ⟨fun h => ⟨h.1, h.2⟩, fun h => ⟨h.relative, h.segments⟩⟩

theorem isSafe_of_isName (all : ∀ name ∈ top :: names, IsName name) :
    IsSafe (Text.join ['/'] (top :: names)) where
  relative := by
    have first := all top List.mem_cons_self
    cases top with
    | nil => exact absurd first.busy (by decide)
    | cons c r =>
      have slash : c ≠ '/' := by
        rintro rfl
        exact first.whole List.mem_cons_self
      simp [Text.join_cons, slash]
  segments segment hs := by
    rw [Text.split_join (List.cons_ne_nil top names), List.mem_flatMap] at hs
    obtain ⟨name, mem, hs⟩ := hs
    have named := all name mem
    rw [Text.split_eq_singleton named.whole, List.mem_singleton] at hs
    have busy := named.busy
    subst hs
    refine ⟨?_, ?_, named.level⟩
    · rintro rfl
      exact absurd busy (by decide)
    · rintro rfl
      exact absurd busy (by decide)

/-- No name behind a step is safe. -/
theorem not_isSafe_of_isStep (step : isStep top = true) (names : List Text) :
    ¬IsSafe (Text.join ['/'] (top :: names)) := by
  intro safe
  have segments (segment : Text) (hs : segment ∈ Text.split '/' top) :=
    safe.segments segment (by
      rw [Text.split_join (List.cons_ne_nil top names)]
      exact List.mem_flatMap.mpr ⟨top, List.mem_cons_self, hs⟩)
  rcases (by simpa [isStep, or_assoc] using step : top = ['/'] ∨ top = ['.'] ∨ top = ['.', '.']) with
    rfl | rfl | rfl
  · exact (segments [] (by decide)).1 rfl
  · exact (segments ['.'] (by decide)).2.1 rfl
  · exact (segments ['.', '.'] (by decide)).2.2 rfl

/-- A name made of a top-level segment and names is safe unless it starts with a step. -/
theorem isSafe_iff (first : IsName top ∨ isStep top = true) (all : ∀ name ∈ names, IsName name) :
    IsSafe (Text.join ['/'] (top :: names)) ↔ isStep top = false := by
  constructor
  · intro safe
    cases step : isStep top with
    | false => rfl
    | true => exact absurd safe (not_isSafe_of_isStep step names)
  · intro plain
    have named : IsName top := first.resolve_right (by simp [plain])
    exact isSafe_of_isName (List.forall_mem_cons.mpr ⟨named, all⟩)

end Archive

namespace FileTree

/-- Every entry of a tree stands under names. -/
def Named (t : FileTree) : Prop :=
  ∀ found ∈ t.entries, ∀ name ∈ found.1, IsName name

instance (t : FileTree) : Decidable t.Named :=
  inferInstanceAs (Decidable (∀ found ∈ t.entries, ∀ name ∈ found.1, IsName name))

theorem isName_of_mem_children (named : t.Named) (child : (name, e) ∈ t.children k) :
    IsName name := by
  obtain ⟨⟨l, d⟩, mem, at_k⟩ := List.mem_filterMap.mp child
  obtain ⟨last, named_last, eq⟩ := Option.map_eq_some_iff.mp at_k
  obtain ⟨rfl, -⟩ := Prod.mk.inj eq
  have inside : last ∈ l := by
    rw [nameIn?] at named_last
    split at named_last
    · exact List.mem_of_getLast? named_last
    · cases named_last
  exact named _ mem last inside

/-- What a visit finds, names lead to that are not skipped. -/
theorem exists_names_of_mem_visitWithin {skip : Text → Bool} {depth : Nat} (named : t.Named)
    (found : (q, e) ∈ t.visitWithin skip depth k p) :
    ∃ names : List Text, (∀ name ∈ names, IsName name ∧ skip name = false) ∧
      q = names.foldl Path.child p := by
  induction depth generalizing k p with
  | zero => simp [visitWithin] at found
  | succ depth ih =>
    rw [visitWithin, List.mem_flatMap] at found
    obtain ⟨⟨name, d⟩, child, found⟩ := found
    obtain ⟨listed, kept⟩ := List.mem_filter.mp child
    have first : IsName name ∧ skip name = false :=
      ⟨isName_of_mem_children named (List.mem_mergeSort.mp listed), by simpa using kept⟩
    rcases List.mem_cons.mp found with here | deeper
    · obtain ⟨rfl, -⟩ := Prod.mk.inj here
      exact ⟨[name], by simpa using first, rfl⟩
    · split at deeper
      · obtain ⟨names, all, rfl⟩ := ih deeper
        exact ⟨name :: names, List.forall_mem_cons.mpr ⟨first, all⟩, rfl⟩
      · simp at deeper

end FileTree

/-- A loop that takes notes comes to its end. -/
theorem Action.exists_result_forIn_note {α : Type} (level : Log.Level) (topic : Log.Topic)
    (message : α → Text) (as : List α) (w : Workspace) :
    ∃ w', (forIn as PUnit.unit fun a _ => do
      Action.note level topic (message a)
      return ForInStep.yield PUnit.unit).result w = (.ok PUnit.unit, w') := by
  induction as generalizing w with
  | nil => exact ⟨w, rfl⟩
  | cons a as ih =>
    rw [List.forIn_cons, bind_assoc, Action.result_bind, Action.result_note]
    exact ih _

namespace BundlePlan

/-! ## Names of members -/

/-- A file below a folder is stored under names behind the folder's own. -/
theorem memberName_of_isName (all : ∀ name ∈ names, IsName name) :
    memberName folder (names.foldl Path.child folder.path) =
      Text.join ['/'] (folder.name :: names) := by
  have components := components_foldl_of_isName folder.path all
  have inside : folder.path.below? (names.foldl Path.child folder.path) =
      some (names.map .name) :=
    componentsAfter?_eq_some_iff.mpr components
  rw [memberName, inside, Option.getD_some, Text.join_cons, List.flatMap_map]
  rfl

/-- The regular files among the entries that were visited. -/
def regularFiles (visited : List (Path × Entry)) : List Path :=
  visited.filterMap fun found => if found.2.isFile then some found.1 else none

/-- How a walk over a folder comes to what it finds. Only a link is walked whatever its name is. -/
inductive Walked (t : FileTree) (folder : Path) : List Path → Prop
  | nothing : Walked t folder []
  | file {l content mark} (there : t.linkAt? folder = .ok (l, .file content mark))
      (other : folder.fileName?.getD folder.text ≠ cacheName) : Walked t folder [folder]
  | directory {l} (there : t.linkAt? folder = .ok (l, .directory))
      (other : folder.fileName?.getD folder.text ≠ cacheName) :
      Walked t folder (regularFiles (t.visit (· == cacheName) l folder))
  | link {l target k} (there : t.linkAt? folder = .ok (l, .link target))
      (leads : t.at? folder = .ok (k, .directory)) :
      Walked t folder (regularFiles (t.visit (· == cacheName) k folder))

theorem walked_of_walkFolder {folder : Path} (walked : walkFolder t folder = .ok ps) :
    Walked t folder ps := by
  cases there : t.linkAt? folder with
  | error e => simp [walkFolder, there, bind, Except.bind] at walked
  | ok found =>
    obtain ⟨l, d⟩ := found
    cases d with
    | file content mark =>
      simp only [walkFolder, there, bind, Except.bind, pure, Except.pure, Except.ok.injEq] at walked
      split at walked
      · exact walked ▸ .nothing
      · rename_i other
        exact walked ▸ .file there (by simpa using other)
    | directory =>
      simp only [walkFolder, there, bind, Except.bind, pure, Except.pure, Except.ok.injEq] at walked
      split at walked
      · exact walked ▸ .nothing
      · rename_i other
        exact walked ▸ .directory there (by simpa using other)
    | link target =>
      simp only [walkFolder, there, bind, Except.bind, pure, Except.pure] at walked
      split at walked
      · cases walked
      · rename_i leads
        split at walked
        · exact Except.ok.inj walked ▸ .link there leads
        · exact Except.ok.inj walked ▸ .nothing

theorem exists_names_of_mem_regularFiles (named : t.Named) {folder : Path}
    (hp : p ∈ regularFiles (t.visit (· == cacheName) k folder)) :
    ∃ names : List Text, (∀ name ∈ names, IsName name ∧ name ≠ cacheName) ∧
      p = names.foldl Path.child folder := by
  obtain ⟨⟨q, e⟩, found, regular⟩ := List.mem_filterMap.mp hp
  dsimp only at regular
  split at regular
  · obtain rfl := Option.some.inj regular
    simpa using t.exists_names_of_mem_visitWithin named found
  · cases regular

/-- What a walk over a folder finds, names lead to, and none of them is that of a cache directory. -/
theorem exists_uncached_of_mem_walkFolder (named : t.Named) {folder : Path}
    (walked : walkFolder t folder = .ok ps) (hp : p ∈ ps) :
    ∃ names : List Text, (∀ name ∈ names, IsName name ∧ name ≠ cacheName) ∧
      p = names.foldl Path.child folder := by
  cases walked_of_walkFolder walked with
  | nothing => exact absurd hp List.not_mem_nil
  | file => exact ⟨[], List.forall_mem_nil _, List.mem_singleton.mp hp⟩
  | directory => exact exists_names_of_mem_regularFiles named hp
  | link => exact exists_names_of_mem_regularFiles named hp

/-- What a walk over a folder finds, names lead to. -/
theorem exists_names_of_mem_walkFolder (named : t.Named) {folder : Path}
    (walked : walkFolder t folder = .ok ps) (hp : p ∈ ps) :
    ∃ names : List Text, (∀ name ∈ names, IsName name) ∧ p = names.foldl Path.child folder := by
  obtain ⟨names, all, leads⟩ := exists_uncached_of_mem_walkFolder named walked hp
  exact ⟨names, fun name hn => (all name hn).1, leads⟩

/-- What the folders offer: the files that walking over each finds. -/
theorem mem_folderFiles_iff (all : folderFiles t folders = (sources, none)) {s : ArchiveSource} :
    s ∈ sources ↔ ∃ folder ∈ folders, ∃ ps, walkFolder t folder.path = .ok ps ∧
      s.path ∈ ps ∧ s.name = memberName folder s.path := by
  constructor
  · intro hs
    induction folders generalizing sources with
    | nil =>
      obtain ⟨rfl, -⟩ := Prod.mk.inj all
      exact absurd hs List.not_mem_nil
    | cons first rest ih =>
      rw [folderFiles] at all
      cases walked : walkFolder t first.path with
      | error e => simp [walked] at all
      | ok ps =>
        simp only [walked, Prod.mk.injEq] at all
        obtain ⟨rfl, none⟩ := all
        rcases List.mem_append.mp hs with here | later
        · obtain ⟨p, hp, rfl⟩ := List.mem_map.mp here
          exact ⟨first, List.mem_cons_self, ps, walked, hp, rfl⟩
        · obtain ⟨folder, mem, found⟩ := ih (Prod.ext rfl none) later
          exact ⟨folder, List.mem_cons_of_mem first mem, found⟩
  · rintro ⟨folder, mem, ps, walked, hp, name⟩
    obtain ⟨qs, again, offered⟩ := exists_walk_of_folderFiles all mem
    obtain rfl := Except.ok.inj (walked.symm.trans again)
    obtain ⟨path, name'⟩ := s
    obtain rfl : name' = memberName folder path := name
    exact offered path hp

/-- The members are found unless a folder cannot be walked. -/
theorem members_answer (plan : BundlePlan) (w : Workspace) : (plan.members.result w).1 =
    match (plan.candidates w.files).2 with
    | some failure => .error failure
    | none => .ok (claim [] (plan.candidates w.files).1).1 := by
  unfold members
  rw [Action.result_bind, Action.result_files]
  dsimp only
  obtain ⟨w', skipped⟩ := Action.exists_result_forIn_note .warn .bundle (fun s : ArchiveSource =>
    "Skipping ".toList ++ s.path.text ++ ": archive entry ".toList ++ s.name ++
      " is already taken".toList) (claim [] (plan.candidates w.files).1).2 w
  rw [Action.result_bind, skipped]
  dsimp only
  cases (plan.candidates w.files).2 <;> rfl

/-- The sources whose names are free keep their order. -/
theorem claim_sublist (taken : List Text) (sources : List ArchiveSource) :
    List.Sublist (claim taken sources).1 sources := by
  induction sources generalizing taken with
  | nil => exact List.Sublist.slnil
  | cons first rest ih =>
    rw [claim]
    split
    · exact (ih taken).cons first
    · exact (ih (first.name :: taken)).cons_cons first

theorem claim_subset (taken : List Text) (sources : List ArchiveSource) :
    (claim taken sources).1 ⊆ sources :=
  (claim_sublist taken sources).subset

/-- A property of names holds of the members exactly if it holds of all candidates. -/
theorem forall_members_iff (P : Text → Prop) (found : plan.members.result w = (.ok kept, w')) :
    (∀ s ∈ kept, P s.name) ↔ ∀ s ∈ (plan.candidates w.files).1, P s.name := by
  obtain ⟨-, rfl, -⟩ := members_eq_ok found
  constructor
  · intro all s hs
    rcases name_mem_claim hs [] with taken | claimed
    · exact absurd taken List.not_mem_nil
    · obtain ⟨member, mem, name⟩ := List.mem_map.mp claimed
      exact name ▸ all member mem
  · exact fun all s hs => all s (claim_subset [] _ hs)

/-! ## Names in a plan -/

theorem isName_or_isStep_of_segmentsFolded? {root : Path} {segments : List Text}
    (below : Layout.segmentsFolded? p root = some segments) (hs : s ∈ segments) :
    IsName s ∨ isStep s = true := by
  unfold Layout.segmentsFolded? at below
  split at below
  · cases below
  · obtain rfl := Option.some.inj below
    exact absurd hs List.not_mem_nil
  · rename_i rest _
    obtain rfl := Option.some.inj below
    obtain ⟨piece, full⟩ := List.mem_filter.mp hs
    by_cases step : isStep s = true
    · exact .inr step
    · refine .inl ⟨Text.not_mem_of_mem_split piece, ?_, ?_⟩
      · simp_all [isIdle, isStep]
      · simp_all [isStep]
  · cases below

/-- What follows a subtree's root in a path are names and steps. -/
theorem isName_or_isStep_of_places {kind : Subtree} {segments : List Text}
    (placed : h.Places p kind segments) (hs : s ∈ segments) : IsName s ∨ isStep s = true := by
  have below := placed.below
  unfold Layout.segmentsBelow? at below
  split at below
  · exact isName_or_isStep_of_segmentsFolded? below hs
  · obtain ⟨rest, after, rfl⟩ := Option.map_eq_some_iff.mp below
    obtain ⟨c, hc, rfl⟩ := List.mem_map.mp hs
    have components : p.components = (h.root kind).components ++ rest :=
      componentsAfter?_eq_some_iff.mp after
    exact isName_or_isStep (components ▸ List.mem_append_right _ hc)

theorem isName_or_isStep_of_mem_files (hf : f ∈ (ofDependencies h ps).files) :
    IsName f.name ∨ isStep f.name = true := by
  have held : (ofDependencies h ps).Holds (.file f) := ⟨f, hf, ArchiveSource.same_iff.mpr rfl⟩
  obtain ⟨p, -, alike⟩ := (holds_iff_ordered ps (b := .file f) nofun).mp held
  obtain ⟨-, kind, -, placed⟩ := share_alike_file_iff.mp alike
  exact isName_or_isStep_of_places placed List.mem_cons_self

/-- A folder of a plan is the top-level entry of a dependency that lies deeper. -/
theorem exists_places_of_mem_folders (hf : f ∈ (ofDependencies h ps).folders) :
    ∃ p kind next rest, h.Places p kind (f.name :: next :: rest) ∧
      ((h.root kind).child f.name).same f.path = true := by
  have held : (ofDependencies h ps).Holds (.folder f) := ⟨f, hf, ArchiveSource.same_iff.mpr rfl⟩
  obtain ⟨p, -, alike⟩ := (holds_iff_ordered ps (b := .folder f) nofun).mp held
  obtain ⟨kind, next, rest, -, placed, path⟩ := share_alike_folder_iff.mp alike
  exact ⟨p, kind, next, rest, placed, path⟩

theorem isName_or_isStep_of_mem_folders (hf : f ∈ (ofDependencies h ps).folders) :
    IsName f.name ∨ isStep f.name = true := by
  obtain ⟨_, _, _, _, placed, -⟩ := exists_places_of_mem_folders hf
  exact isName_or_isStep_of_places placed List.mem_cons_self

/-- The names of the members are safe to unpack exactly if no file of the plan is named after a step,
and no folder named after a step yields a file. -/
theorem members_isSafe_iff (named : w.files.Named)
    (found : (ofDependencies h ps).members.result w = (.ok kept, w')) :
    (∀ s ∈ kept, Archive.IsSafe s.name) ↔
      (∀ f ∈ (ofDependencies h ps).files, isStep f.name = false) ∧
        ∀ f ∈ (ofDependencies h ps).folders, isStep f.name = true →
          walkFolder w.files f.path = .ok [] := by
  obtain ⟨whole, -, -⟩ := members_eq_ok found
  have listed : folderFiles w.files (ofDependencies h ps).folders =
      ((folderFiles w.files (ofDependencies h ps).folders).1, none) := Prod.ext rfl whole
  have file (f) (hf : f ∈ (ofDependencies h ps).files) :
      Archive.IsSafe f.name ↔ isStep f.name = false := by
    have alone := Archive.isSafe_iff (isName_or_isStep_of_mem_files hf)
      (List.forall_mem_nil IsName)
    rwa [Text.join_cons, List.flatMap_nil, List.append_nil] at alone
  have member (f) (hf : f ∈ (ofDependencies h ps).folders) {qs : List Path}
      (walked : walkFolder w.files f.path = .ok qs) {q : Path} (hq : q ∈ qs) :
      Archive.IsSafe (memberName f q) ↔ isStep f.name = false := by
    obtain ⟨names, all, rfl⟩ := exists_names_of_mem_walkFolder named walked hq
    rw [memberName_of_isName all]
    exact Archive.isSafe_iff (isName_or_isStep_of_mem_folders hf) all
  rw [forall_members_iff Archive.IsSafe found]
  constructor
  · intro safe
    refine ⟨fun f hf => (file f hf).mp (safe f (List.mem_append_left _ hf)), fun f hf step => ?_⟩
    obtain ⟨qs, walked, offered⟩ := exists_walk_of_folderFiles listed hf
    cases qs with
    | nil => exact walked
    | cons q qs =>
      have name := safe _ (List.mem_append_right _ (offered q List.mem_cons_self))
      have plain := (member f hf walked List.mem_cons_self).mp name
      simp [plain] at step
  · rintro ⟨files, folders⟩ s hs
    rcases List.mem_append.mp hs with hf | inside
    · exact (file s hf).mpr (files s hf)
    · obtain ⟨f, hf, qs, walked, hq, name⟩ := (mem_folderFiles_iff listed).mp inside
      rw [name, member f hf walked hq]
      cases step : isStep f.name with
      | false => rfl
      | true =>
        obtain rfl := Except.ok.inj (walked.symm.trans (folders f hf step))
        exact absurd hq List.not_mem_nil

theorem members_isSafe_iff_plain :
    ∃ kept w', (ofDependencies installed [Bundle.modulePath]).members.result Bundle.plain =
        (.ok kept, w') ∧ ∀ s ∈ kept, Archive.IsSafe s.name := by
  have found : ((ofDependencies installed [Bundle.modulePath]).members.result Bundle.plain).1 =
      .ok [⟨Bundle.modulePath, "pkg/mod.py".toList⟩] := by decide +kernel
  refine ⟨_, _, Prod.ext found rfl, ?_⟩
  exact (members_isSafe_iff (by decide +kernel) (Prod.ext found rfl)).mpr
    ⟨by decide +kernel, by decide +kernel⟩

/-- An installation with a file beside the directory of its standard library. -/
def beside : Workspace where
  files := {
    entries := ["inst", "inst/lib", "inst/lib/python3.11", "inst/lib/secret"].map (fun p =>
        (Text.split '/' p.toList, .directory)) ++
      ["inst/lib/python3.11/os.py", "inst/lib/secret/x.py"].map fun p =>
        (Text.split '/' p.toList, .file (.plain []) false) }

/-- A path that leads out of the standard library into a directory beside it. -/
def upward : Path :=
  ⟨"inst/lib/python3.11/../secret/x.py".toList⟩

/-- What lies there is stored with the upward step. -/
theorem not_isSafe_upward :
    ∃ kept w', (ofDependencies installed [upward]).members.result beside = (.ok kept, w') ∧
      ∃ s ∈ kept, s.name = "../secret/x.py".toList ∧ ¬Archive.IsSafe s.name := by
  have folder : (ofDependencies installed [upward]).folders =
      [⟨⟨"inst/lib/python3.11/..".toList⟩, "..".toList⟩] := by decide +kernel
  have whole : ((ofDependencies installed [upward]).candidates beside.files).2 = none := by
    decide +kernel
  have listed : folderFiles beside.files (ofDependencies installed [upward]).folders =
      ((folderFiles beside.files (ofDependencies installed [upward]).folders).1, none) :=
    Prod.ext rfl whole
  obtain ⟨ps, walked, offered⟩ := exists_walk_of_folderFiles listed (folder ▸ List.mem_cons_self)
  have directory : beside.files.at? ⟨"inst/lib/python3.11/..".toList⟩ =
      .ok (["inst".toList, "lib".toList], .directory) := by decide +kernel
  have leads : FileTree.Leads beside.files ["inst".toList, "lib".toList]
      ["secret".toList, "x.py".toList] (.file (.plain []) false) :=
    ⟨by decide +kernel, by decide +kernel, show beside.files.get? _ = _ by decide +kernel⟩
  have inside := mem_walkFolder walked directory leads rfl (List.cons_ne_nil _ _) (by decide +kernel)
    (by decide +kernel)
  have answer := members_answer (ofDependencies installed [upward]) beside
  rw [whole] at answer
  refine ⟨_, _, Prod.ext answer rfl, ?_⟩
  have candidate := List.mem_append_right (ofDependencies installed [upward]).files
    (offered _ inside)
  rcases name_mem_claim candidate [] with taken | claimed
  · exact absurd taken List.not_mem_nil
  · obtain ⟨s, hs, name⟩ := List.mem_map.mp claimed
    have stored : s.name = "../secret/x.py".toList := name.trans (by decide +kernel)
    exact ⟨s, hs, stored, stored ▸ by decide +kernel⟩

end BundlePlan

end NativeFreeze
