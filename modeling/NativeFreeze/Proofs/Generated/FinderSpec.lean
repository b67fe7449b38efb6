import NativeFreeze.Proofs.Generated.Python
import NativeFreeze.Proofs.Generated.Symbol
import NativeFreeze.Proofs.Node.Sample
import NativeFreeze.Proofs.Text.Replace
import NativeFreeze.Proofs.Unit.Build

/-!
# What the finder answers

The script of the finder is parsed, and its methods are run as they are written. The finder of a package
claims the imports whose last segment but one is the leaf of the package, and loads them under the
symbol that a unit of a package has. So it finds what became of the source of a submodule when the
package was built.
-/

namespace NativeFreeze

namespace Finder

open Python

/-! ## The script, parsed -/

/-- The name of the class. -/
def finderType : Text := "_FrozenPackageFinder".toList

/-- What the script imports. -/
def modules : List Text :=
  ["sys", "importlib.abc", "importlib.machinery", "importlib.util"].map String.toList

/-- A name of the script. -/
def var (x : String) : Expr :=
  .name x.toList

/-- An attribute of the finder. -/
def own (x : String) : Expr :=
  .attribute (var "self") x.toList

/-- A call. -/
def invoke (f : Expr) (arguments : List Expr) : Expr :=
  .call f (arguments.foldr .cons .nil)

/-- A call of a method of a value, or of a function of a module. -/
def send (e : Expr) (x : String) (arguments : List Expr) : Expr :=
  invoke (.attribute e x.toList) arguments

/-- The body of the initialiser. -/
def initBody : Suite :=
  .simple (.evaluate (send (invoke (var "super") []) "__init__" [])) <|
  .simple (.assign (own "_package") (var "package")) <|
  .simple (.assign (own "_library") (var "library")) .done

/-- The test by which an import is left to other finders. -/
def foreign : Expr :=
  .or (.less (invoke (var "len") [var "parts"]) (.int 2))
    (.differ (.item (var "parts") (.int (-2))) (own "_package"))

/-- What is done with an import of the package. -/
def claimBody : Suite :=
  .simple (.assign (var "symbol")
    (send (var "fullname") "replace" [.string ['.'], .string ['_']])) <|
  .simple (.assign (var "loader")
    (send (.attribute (var "importlib") "machinery".toList) "ExtensionFileLoader"
      [var "symbol", own "_library"])) <|
  .simple (.returns (send (.attribute (var "importlib") "util".toList) "spec_from_loader"
    [var "symbol", var "loader"])) .done

/-- The body of the method that answers an import. -/
def findBody : Suite :=
  .simple (.assign (var "parts") (send (var "fullname") "split" [.string ['.']])) <|
  .block (.branch foreign) (.simple (.returns .none) .done) claimBody

/-- The methods of the class. -/
def methods : Suite :=
  .block (.method "__init__".toList
    [⟨"self".toList, none⟩, ⟨"package".toList, none⟩, ⟨"library".toList, none⟩]) initBody <|
  .block (.method "find_spec".toList
    [⟨"self".toList, none⟩, ⟨"fullname".toList, none⟩, ⟨"path".toList, none⟩,
      ⟨"target".toList, some .none⟩]) findBody .done

theorem parse_script : (parse script).map (fun s => (s.modules, s.type? finderType)) =
    some (modules, some methods) := by
  decide +kernel

/-! ## The methods, run -/

variable {package library fullname : Text} {path target : Value}

/-- What the finder of a package answers to an import. The import system also hands over a search path,
and can hand over a module that is loaded anew. -/
def findSpec (package library fullname : Text) (path : Value) (target : Option Value) :
    Option Value := do
  let parsed ← parse script
  parsed.ask finderType [.text package, .text library] "find_spec".toList
    (.text fullname :: path :: target.toList)

/-- Where a method of the finder stands. -/
def frame (package library : Text) (locals : List (Text × Value)) : Frame where
  modules := modules
  attributes := [("_library".toList, .text library), ("_package".toList, .text package)]
  locals := locals

/-- What the method that answers an import is given. -/
def given (fullname : Text) (path target : Value) : List (Text × Value) :=
  [("self".toList, .self), ("fullname".toList, .text fullname), ("path".toList, path),
    ("target".toList, target)]

/-- Where this method stands when it has split the name. -/
def afterSplit (package library fullname : Text) (path target : Value) : Frame :=
  frame package library
    (("parts".toList, .list (Text.split '.' fullname)) :: given fullname path target)

/-- The test holds if there is no last segment but one, or if that is not the package. -/
theorem eval_foreign : foreign.eval (afterSplit package library fullname path target) =
    some (.bool (item? (Text.split '.' fullname) (-2) != some package)) := by
  let f := afterSplit package library fullname path target
  have less : (Expr.less (invoke (var "len") [var "parts"]) (.int 2)).eval f =
      some (.bool (decide (((Text.split '.' fullname).length : Int) < 2))) := rfl
  have item : (Expr.item (var "parts") (.int (-2))).eval f =
      Value.text <$> item? (Text.split '.' fullname) (-2) := rfl
  have back := item?_back (Text.split '.' fullname) Nat.two_pos
  rw [foreign, Expr.eval, less]
  by_cases short : ((Text.split '.' fullname).length : Int) < 2
  · rw [if_neg (by omega)] at back
    rw [decide_eq_true short, show item? _ (-2) = none from back]
    rfl
  · have place : (Text.split '.' fullname).length - 2 < (Text.split '.' fullname).length := by omega
    rw [if_pos (by omega), List.getElem?_eq_getElem place] at back
    rw [decide_eq_false short, Expr.eval, item, show item? _ (-2) = some _ from back]
    rfl

theorem item?_neg_two (items : List Text) : item? items (-2) = items.dropLast.getLast? := by
  have inside : items.length - 2 < items.length - 1 ↔ 2 ≤ items.length := by omega
  rw [List.getLast?_eq_getElem?, List.getElem?_dropLast, List.length_dropLast, Nat.sub_sub]
  simp only [inside]
  exact item?_back items Nat.two_pos

/-- The answer that claims an import for a library, under the symbol of a unit of a package. -/
def claim (library fullname : Text) : Value :=
  .spec (moduleSymbol fullname true) (.loader (moduleSymbol fullname true) library)

theorem run_findBody : ∃ f, findBody.run (frame package library (given fullname path target)) =
    some (some (if (Text.split '.' fullname).dropLast.getLast? = some package then
      claim library fullname else .none), f) := by
  let f := afterSplit package library fullname path target
  have tested : findBody.run (frame package library (given fullname path target)) =
      (foreign.eval f).bind fun v =>
        if v.isTrue then some (some .none, f) else claimBody.run f := rfl
  rw [tested, eval_foreign, item?_neg_two]
  by_cases mine : (Text.split '.' fullname).dropLast.getLast? = some package
  · rw [if_pos mine, mine, bne_self_eq_false, claim, moduleSymbol_true, ← Text.replace_singleton]
    exact ⟨_, rfl⟩
  · rw [if_neg mine, bne_iff_ne.mpr mine]
    exact ⟨_, rfl⟩

theorem call_init (package library : Text) : ∃ locals,
    methods.call "__init__".toList [.text package, .text library] { modules := modules } =
      some (.none, frame package library locals) :=
  ⟨_, rfl⟩

theorem call_find (package library fullname : Text) (path : Value) (target : Option Value) :
    ∃ f, methods.call "find_spec".toList (.text fullname :: path :: target.toList)
      (frame package library []) =
        some (if (Text.split '.' fullname).dropLast.getLast? = some package then
          claim library fullname else .none, f) := by
  have bound : methods.call "find_spec".toList (.text fullname :: path :: target.toList)
      (frame package library []) =
      (findBody.run (frame package library (given fullname path (target.getD .none)))).bind
        fun answer => some (answer.1.getD .none, answer.2) := by
    cases target with
    | none => rfl
    | some target => rfl
  obtain ⟨f, ran⟩ := run_findBody
  rw [bound, ran]
  exact ⟨f, rfl⟩

/-- The finder of a package claims the imports whose last segment but one is the package, and no
other. -/
theorem findSpec_eq (package library fullname : Text) (path : Value) (target : Option Value) :
    findSpec package library fullname path target =
      some (if (Text.split '.' fullname).dropLast.getLast? = some package then
        claim library fullname else .none) := by
  obtain ⟨parsed, parses, found⟩ := Option.map_eq_some_iff.mp parse_script
  obtain ⟨imports, type⟩ := Prod.mk.inj found
  obtain ⟨locals, init⟩ := call_init package library
  obtain ⟨f, find⟩ := call_find package library fullname path target
  have made : Frame.mk (frame package library locals).modules
      (frame package library locals).attributes [] = frame package library [] := rfl
  rw [findSpec, parses]
  simp only [Option.bind_eq_bind, Option.bind_some, Suite.ask, type, imports, init, made, find]
  rfl

end Finder

/-! ## Submodules -/

namespace PackageIdentity

/-- A submodule has the leaf and the path of its package, and the finder that the package is given finds
it under the name that a package build transpiles its source under. -/
theorem finder_finds_submodule {x : Text} (plain : '.' ∉ x) (path : Text) :
    ∃ leaf, (Text.split '.' path).getLast? = some leaf ∧
      ofName? (path ++ '.' :: x) false = some ⟨leaf, path, false⟩ ∧
      ofName? path true = some ⟨leaf, path, true⟩ ∧
      (∀ library search target,
        Finder.findSpec leaf library (path ++ '.' :: x) search target =
          some (.spec (moduleSymbol (path ++ '.' :: x) true)
            (.loader (moduleSymbol (path ++ '.' :: x) true) library))) ∧
      ∀ (c : BuildContext) (topic : Log.Topic) (u : ScriptUnit) (w : Workspace),
        c.transpiler.KeepsRequests → u.state = .created → u.name = path ++ '.' :: x →
        ((ScriptUnit.build c topic true).result u w).2.2.requests = w.requests ++
          [.transpile ⟨u.inputPath, u.generated, moduleSymbol (path ++ '.' :: x) true⟩] := by
  have segments : Text.split '.' (path ++ '.' :: x) = Text.split '.' path ++ [x] := by
    rw [Text.split_append, Text.split_eq_singleton plain]
  have parents : (Text.split '.' (path ++ '.' :: x)).dropLast = Text.split '.' path := by
    rw [segments, List.dropLast_concat]
  have last := getLast?_split path
  refine ⟨moduleSymbol path false, last, ?_, ?_, ?_, ?_⟩
  · simp [ofName?, parents, last, Text.join_split]
  · simp [ofName?, last]
  · intro library search target
    rw [Finder.findSpec_eq, parents, if_pos last, Finder.claim]
  · intro c topic u w keeps created named
    rw [ScriptUnit.requests_build keeps (by rw [created]; rfl), ← named]
    rfl

theorem finder_finds_submodule_nested :
    '.' ∉ "lib".toList ∧
      ofName? "a.utils.lib".toList false = some ⟨"utils".toList, "a.utils".toList, false⟩ ∧
      ofName? "a.utils".toList true = some ⟨"utils".toList, "a.utils".toList, true⟩ ∧
      Finder.findSpec "utils".toList "utils.so".toList "a.utils.lib".toList .none none =
        some (.spec "a_utils_lib".toList (.loader "a_utils_lib".toList "utils.so".toList)) ∧
      ((ScriptUnit.build Sample.context .module true).result
        (Sample.script "a/utils/lib.py".toList) {}).2.2.requests =
          [.transpile ⟨⟨"a/utils/lib.py".toList⟩, ⟨"a/utils/lib.cpp".toList⟩,
            "a_utils_lib".toList⟩] := by
  have plain : '.' ∉ "lib".toList := by decide
  obtain ⟨leaf, last, child, parent, finds, asks⟩ := finder_finds_submodule plain "a.utils".toList
  obtain rfl : "utils".toList = leaf := Option.some.inj last
  exact ⟨plain, child, parent, finds _ _ _,
    asks Sample.context .module (Sample.script "a/utils/lib.py".toList) {}
      Sample.transpiler_keepsRequests rfl rfl⟩

end PackageIdentity

end NativeFreeze
