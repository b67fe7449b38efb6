import NativeFreeze.Proofs.Generated.Bootstrap
import NativeFreeze.Proofs.Generated.Literal
import NativeFreeze.Proofs.Node.Executable
import NativeFreeze.Proofs.Path.Components
import NativeFreeze.Proofs.Path.Order

/-!
# Where a standalone executable finds its runtime

The build packs the runtime into a directory seen from the output directory. The binary looks for it
beside itself: its bootstrap puts the directory that it reads in a literal behind the directory of the
program. Both name the same directory if the text of the literal is plain and the binary stands in the
output directory itself, the runtime directory being no absolute path. Where one of these holds, the
other is needed.
-/

namespace NativeFreeze

open Stage

namespace Bootstrap

variable {output program : Path} {name dir : Text}

/-- What stands before the last separator of a program's path, or else the working directory. -/
def directory (program : Text) : Text :=
  if '/' ∈ program then Text.join ['/'] (Text.split '/' program).dropLast else ['.']

/-- Where the bootstrap of a program looks for the runtime directory `dir`. -/
def lookup (program : Path) (dir : Text) : Path :=
  ⟨directory program.text ++ '/' :: dir⟩

/-- A program stands where the directory `dir` is joined to: in the output directory, or in the root
if `dir` is an absolute path. -/
def Beside (program output : Path) (dir : Text) : Prop :=
  Path.components ⟨directory program.text ++ ['/']⟩ =
    if Path.isAbsolute ⟨dir⟩ then [.root] else output.components

instance : Decidable (Beside program output dir) :=
  inferInstanceAs (Decidable (_ = _))

theorem directory_append (front : Text) (plain : '/' ∉ name) :
    directory (front ++ '/' :: name) = front := by
  have inside : '/' ∈ front ++ '/' :: name := by simp
  rw [directory, if_pos inside, Text.split_append, Text.split_eq_singleton plain,
    List.dropLast_concat, Text.join_split]

/-- A program with a plain name stands in its output directory. -/
theorem beside_child (full : output.text ≠ []) (plain : '/' ∉ name)
    (relative : Path.isAbsolute ⟨dir⟩ = false) : Beside (output.child name) output dir := by
  rw [Beside, relative, if_neg Bool.false_ne_true]
  have tail : Path.isAbsolute ⟨name⟩ = false := by
    cases name with
    | nil => rfl
    | cons c r =>
      have other : c ≠ '/' := fun h => plain (h ▸ List.mem_cons_self)
      simp [Path.isAbsolute, other]
  obtain ⟨text⟩ := output
  by_cases slash : text.getLast? = some '/'
  · obtain ⟨front, rfl⟩ := List.getLast?_eq_some_iff.mp slash
    have joined : (Path.child ⟨front ++ ['/']⟩ name).text = front ++ '/' :: name := by
      simp [Path.child, Path.join, tail]
    rw [joined, directory_append front plain]
  · have joined : (Path.child ⟨text⟩ name).text = text ++ '/' :: name := by
      simp [Path.child, Path.join, tail, full, slash]
    rw [joined, directory_append text plain, Path.components_append full, Path.trail_nil,
      List.append_nil]

theorem components_child_directory (full : output.text ≠ []) (dir : Text) :
    (output.child dir).components =
      (if Path.isAbsolute ⟨dir⟩ then [.root] else output.components) ++ Path.trail dir := by
  cases absolute : Path.isAbsolute ⟨dir⟩ with
  | false => exact Path.components_join full absolute
  | true =>
    obtain ⟨r, rfl⟩ : ∃ r, dir = '/' :: r := by
      obtain ⟨c, r, rfl⟩ := List.exists_cons_of_ne_nil
        (show dir ≠ [] by rintro rfl; simp [Path.isAbsolute] at absolute)
      exact ⟨r, by simpa [Path.isAbsolute] using absolute⟩
    rw [Path.child, Path.join_absolute absolute]
    exact Path.components_eq ⟨'/' :: r⟩

theorem lookup_same_iff (full : output.text ≠ []) (program : Path) (read dir : Text) :
    (lookup program read).same (output.child dir) = true ↔
      Path.components ⟨directory program.text ++ ['/']⟩ ++ Path.trail read =
        (if Path.isAbsolute ⟨dir⟩ then [.root] else output.components) ++ Path.trail dir := by
  rw [Path.same_iff, lookup, Path.components_slash, components_child_directory full]

/-- A bootstrap reads a directory that it finds where `dir` is joined to the output directory. -/
def Finds (code : Text) (program output : Path) (dir : Text) : Prop :=
  ∃ read, runtimeDir? code = some read ∧ (lookup program read).same (output.child dir) = true

theorem isSolid_of_readEscape (c : Char) (known : CString.readEscape c ≠ none) :
    Path.isSolid c = true := by
  have slash : c ≠ '/' := by rintro rfl; exact known (by decide)
  have dot : c ≠ '.' := by rintro rfl; exact known (by decide)
  simp [Path.isSolid, slash, dot]

/-- A program that stands beside its runtime finds it exactly if the name of the directory is plain:
any other name loses characters that are needed. A program with a plain name for its runtime finds it
exactly if it stands beside it. -/
theorem finds_render_iff {r : Registration} (full : output.text ≠ [])
    (orderly : ∀ m ∈ r.registered, Orderly m.name ∧ Orderly m.symbol)
    (slots : ∀ slot ∈ Slot.runtimeDir.later,
      Text.holds slot.spelling (r.value .runtimeDir) = false)
    (either : CString.Plain (r.value .runtimeDir) ∨
      Beside program output (r.value .runtimeDir)) :
    Finds r.render program output (r.value .runtimeDir) ↔
      CString.Plain (r.value .runtimeDir) ∧ Beside program output (r.value .runtimeDir) := by
  rw [Finds, runtimeDir?_render orderly slots]
  generalize r.value .runtimeDir = dir at either ⊢
  constructor
  · rintro ⟨read, value, same⟩
    rw [lookup_same_iff full] at same
    rcases CString.value?_shrinks isSolid_of_readEscape value with ⟨rfl, plain⟩ | less
    · exact ⟨plain, List.append_left_inj _ |>.mp same⟩
    · rcases either with plain | beside
      · obtain rfl := Option.some.inj (value.symm.trans (plain.value?_append _))
        exact absurd less (Nat.lt_irrefl _)
      · have trails : Path.trail read = Path.trail dir := by
          rwa [← beside, List.append_right_inj] at same
        have solid : read.filter Path.isSolid = dir.filter Path.isSolid := by
          rw [← Path.filter_isSolid_trail, trails, Path.filter_isSolid_trail]
        rw [List.countP_eq_length_filter, List.countP_eq_length_filter, solid] at less
        exact absurd less (Nat.lt_irrefl _)
  · rintro ⟨plain, beside⟩
    exact ⟨dir, plain.value?_append _, (lookup_same_iff full _ _ _).mpr (by rw [beside])⟩

end Bootstrap

namespace ExecutableNode

variable {c : BuildContext} {e e' : ExecutableNode} {u : ScriptUnit} {w w' : Workspace}

/-- What is set for an executable, beside its units. -/
def settings (e : ExecutableNode) : Text × Bool × Option Text :=
  (e.name, e.standalone, e.runtimeDir)

theorem buildAll_keepsPart (c : BuildContext) : (buildAll c).KeepsPart settings := by
  have assembles (built : List Contribution) : (assemble c built).KeepsPart settings :=
    keepsPart_bind keepsPart_part fun _ =>
      keepsPart_bind (keepsPart_onField _ fun _ _ => rfl) fun _ => keepsPart_pure _
  refine keepsPart_bind keepsPart_part fun e => ?_
  refine keepsPart_bind (keepsPart_lift _) fun _ => ?_
  refine keepsPart_bind (keepsPart_onField _ fun _ _ => rfl) fun built => ?_
  dsimp only
  split
  · exact keepsPart_bind (keepsPart_lift _) fun _ => assembles built
  · exact assembles built

/-- A standalone executable that is linked gets its bundle last, of what tracing its script found. -/
theorem link_eq_ok {sources : List Path} {script : Option Path} (standalone : e.standalone = true)
    (h : (link c sources script).result e w = (.ok (), e', w')) :
    ∃ w₁ found w₂ bundle,
      (c.compileAndLink sources (c.compileOptions e.includeDirs) .executable
        (e.outputPath c.dirs.output) (c.linkOptions e.libraryDirs [])).result w = (.ok (), w₁) ∧
      (dependencies c script).result w₁ = (.ok found, w₂) ∧
      (Bundle.pack c.layout found (c.dirs.output.child e.runtime)).result w₂ = (.ok bundle, w') := by
  rw [link, result_bind, result_part] at h
  dsimp only at h
  obtain ⟨_, e₁, w₁, linked, h⟩ := bind_eq_ok h
  obtain ⟨linked, rfl⟩ := lift_eq_ok linked
  rw [if_pos standalone] at h
  obtain ⟨found, w₂, traced, packs⟩ := Action.bind_eq_ok (lift_eq_ok h).1
  obtain ⟨bundle, w₃, packed, last⟩ := Action.bind_eq_ok packs
  obtain ⟨-, rfl⟩ := Prod.mk.inj last
  exact ⟨w₁, found, w₂, bundle, linked, traced, packed⟩

/-- What the build of a standalone executable has left for its runtime: the file of the main unit ends
in its bootstrap, and the last thing done was to pack the bundle. -/
structure Located (c : BuildContext) (e : ExecutableNode) (u : ScriptUnit)
    (before after : Workspace) : Prop where
  written : ∃ sources e₁ w₁, ∃ code : Text,
    (buildAll c).result e before = (.ok (sources, some u.inputPath), e₁, w₁) ∧
      w₁.files.read u.generated =
        .ok (Text.bytes (code ++ "\n\n\n".toList ++ (e.registration u).render))
  packed : ∃ dependencies w₁ bundle,
    (Bundle.pack c.layout dependencies (c.dirs.output.child e.runtime)).result w₁ =
      (.ok bundle, after)

theorem located_of_process (transpiler : c.transpiler.KeepsRequests) (main : e.main = .script u)
    (sound : u.Sound w.requests) (parts : ∀ p ∈ e.parts, p.Sound w.requests)
    (standalone : e.standalone = true) (built : (process c).result e w = (.ok (), e', w')) :
    Located c e u w w' := by
  obtain ⟨⟨sources, script⟩, e₁, w₁, assembled, linked⟩ := bind_eq_ok built
  obtain ⟨rfl, written⟩ := buildAll_eq_ok transpiler main sound parts assembled
  obtain ⟨code, text⟩ := written.written
  have settings : e₁.settings = e.settings := by
    have keeps := buildAll_keepsPart c e w
    rwa [assembled] at keeps
  obtain ⟨-, standalone₁, runtimeDir⟩ : e₁.name = e.name ∧ e₁.standalone = e.standalone ∧
      e₁.runtimeDir = e.runtimeDir := by simpa [ExecutableNode.settings] using settings
  obtain ⟨_, found, w₂, bundle, -, -, packed⟩ := link_eq_ok (standalone₁.trans standalone) linked
  rw [runtime, runtimeDir] at packed
  exact ⟨⟨sources, e₁, w₁, code, assembled, text⟩, found, w₂, bundle, packed⟩

/-- A standalone executable finds its runtime where the build packed it exactly if the directory's name
may stand in a literal and the binary stands beside it, given that one of the two is so. -/
theorem runtime_found_iff (transpiler : c.transpiler.KeepsRequests) (main : e.main = .script u)
    (sound : u.Sound w.requests) (parts : ∀ p ∈ e.parts, p.Sound w.requests)
    (standalone : e.standalone = true) (output : c.dirs.output.text ≠ [])
    (orderly : ∀ m ∈ (e.registration u).registered,
      Bootstrap.Orderly m.name ∧ Bootstrap.Orderly m.symbol)
    (slots : ∀ slot ∈ Bootstrap.Slot.runtimeDir.later,
      Text.holds slot.spelling e.runtime = false)
    (either : CString.Plain e.runtime ∨
      Bootstrap.Beside (e.outputPath c.dirs.output) c.dirs.output e.runtime)
    (built : (process c).result e w = (.ok (), e', w')) :
    Located c e u w w' ∧
      (Bootstrap.Finds (e.registration u).render (e.outputPath c.dirs.output) c.dirs.output
          e.runtime ↔
        CString.Plain e.runtime ∧
          Bootstrap.Beside (e.outputPath c.dirs.output) c.dirs.output e.runtime) :=
  ⟨located_of_process transpiler main sound parts standalone built,
    Bootstrap.finds_render_iff output orderly slots either⟩

/-- Sample tools on a host whose interpreter logs nothing. -/
def hosted : BuildContext :=
  { Sample.context with
    around := ⟨fun _ _ t => (.ok ⟨.code 0, [], []⟩, t), fun _ => none⟩
    layout := { Sample.context.layout with requiredFiles := [] } }

/-- A standalone executable made of one script. -/
def demo (dir : Text) : ExecutableNode where
  name := "demo".toList
  main := .script (Sample.script "main.py".toList)
  parts := []
  standalone := true
  runtimeDir := some dir

/-- A workspace with the library directory of the sample host. -/
def installed : Workspace where
  files := { entries := [(["py".toList], .directory), (["py".toList, "lib".toList], .directory)] }

/-- The build of `demo`. -/
def built (dir : Text) : Except Failure Unit × ExecutableNode × Workspace :=
  (process hosted).result (demo dir) installed

theorem built_eq {dir : Text} (succeeds : (built dir).1 = .ok ()) :
    (process hosted).result (demo dir) installed = (.ok (), (built dir).2.1, (built dir).2.2) := by
  rw [← succeeds, built]

theorem sound_demo : (Sample.script "main.py".toList).Sound installed.requests :=
  BuildUnit.sound_ofPath? (p := ⟨"main.py".toList⟩) rfl installed.requests

theorem orderly_demo (dir : Text) :
    ∀ m ∈ ((demo dir).registration (Sample.script "main.py".toList)).registered,
      Bootstrap.Orderly m.name ∧ Bootstrap.Orderly m.symbol := by
  intro m hm
  obtain rfl := List.mem_singleton.mp hm
  have orderly : Bootstrap.Orderly "main".toList := by decide
  exact ⟨orderly, orderly⟩

theorem runtime_found_iff_demo :
    Located hosted (demo "runtime".toList) (Sample.script "main.py".toList) installed
        (built "runtime".toList).2.2 ∧
      Bootstrap.Finds ((demo "runtime".toList).registration (Sample.script "main.py".toList)).render
        ((demo "runtime".toList).outputPath hosted.dirs.output) hosted.dirs.output
        "runtime".toList := by
  have succeeds : (built "runtime".toList).1 = .ok () := by decide +kernel
  have plain : CString.Plain "runtime".toList := ⟨by decide, by decide, by decide, by decide⟩
  have slots : ∀ slot ∈ Bootstrap.Slot.runtimeDir.later,
      Text.holds slot.spelling "runtime".toList = false := by decide
  have relative : Path.isAbsolute ⟨"runtime".toList⟩ = false := by decide
  have segment : '/' ∉ "demo".toList := by decide
  have output : hosted.dirs.output.text ≠ [] := by decide
  generalize "runtime".toList = dir at succeeds plain slots relative ⊢
  obtain ⟨located, found⟩ := runtime_found_iff Sample.transpiler_keepsRequests rfl sound_demo
    (fun _ none => absurd none List.not_mem_nil) rfl output (orderly_demo dir) slots (.inl plain)
    (built_eq succeeds)
  exact ⟨located, found.mpr ⟨plain, Bootstrap.beside_child output segment relative⟩⟩

/-- A backslash in the name of the runtime directory is read as an escape: the runtime is packed into
one directory and looked for in another. -/
theorem runtime_lost_escaped :
    (built "run\\time".toList).1 = .ok () ∧
      Located hosted (demo "run\\time".toList) (Sample.script "main.py".toList) installed
        (built "run\\time".toList).2.2 ∧
      Bootstrap.runtimeDir? ((demo "run\\time".toList).registration
        (Sample.script "main.py".toList)).render = some "run\time".toList ∧
      ¬Bootstrap.Finds ((demo "run\\time".toList).registration
        (Sample.script "main.py".toList)).render
        ((demo "run\\time".toList).outputPath hosted.dirs.output) hosted.dirs.output
        (demo "run\\time".toList).runtime := by
  have succeeds : (built "run\\time".toList).1 = .ok () := by decide +kernel
  have slots : ∀ slot ∈ Bootstrap.Slot.runtimeDir.later,
      Text.holds slot.spelling "run\\time".toList = false := by decide
  have value (t : Text) : CString.value? ("run\\time".toList ++ '"' :: t) =
      some "run\time".toList := by
    rw [CString.value?, CString.splice_append_quote, CString.splice_eq_self (by decide)]
    rfl
  have apart : ¬(Bootstrap.lookup ((demo "run\\time".toList).outputPath hosted.dirs.output)
      "run\time".toList).same (hosted.dirs.output.child (demo "run\\time".toList).runtime) =
        true := by decide
  generalize "run\\time".toList = set at succeeds slots value apart ⊢
  have read : Bootstrap.runtimeDir? ((demo set).registration
      (Sample.script "main.py".toList)).render = some "run\time".toList :=
    (Bootstrap.runtimeDir?_render (orderly_demo set) slots).trans (value _)
  have located := located_of_process Sample.transpiler_keepsRequests rfl sound_demo
    (fun _ none => absurd none List.not_mem_nil) rfl (built_eq succeeds)
  refine ⟨succeeds, located, read, ?_⟩
  rintro ⟨other, found, same⟩
  obtain rfl := Option.some.inj (read.symm.trans found)
  exact apart same

end ExecutableNode

end NativeFreeze
