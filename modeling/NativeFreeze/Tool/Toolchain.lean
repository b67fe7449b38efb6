import NativeFreeze.Source.Basic
import NativeFreeze.Tool.Transpiler

/-!
# Toolchains

A toolchain compiles native sources to objects and links objects to a library or an executable. The
one that is used outside tests drives a compiler with the usual options, and `windres` for resource
descriptors.
-/

namespace NativeFreeze

/-- A compiler and linker. -/
structure Toolchain where
  /-- Compiles sources, and answers one object for each that was compiled. -/
  compile : List Path → CompileOptions → Action (List Path)
  /-- Links objects. -/
  link : LinkKind → List Path → Path → LinkOptions → Action Unit

/-- The object of a source: the names of the source's path, below the output directory. The
extension of the source is kept, so that sources that differ in it do not share an object. -/
def objectPath (source outputDir : Path) : Path :=
  ⟨(outputDir.join ⟨Text.join ['/'] source.names⟩).text ++ ".o".toList⟩

namespace Compiler

/-- The program that compiles resource descriptors. -/
def resourceCompiler : Text := "windres".toList

/-- The command that compiles one source. -/
def compileCommand (compiler : Text) (source object : Path) (options : CompileOptions) : Command :=
  if source.suffix = ".rc".toList then
    { program := resourceCompiler
      arguments :=
        [source.text, "-O".toList, "coff".toList, "-o".toList, object.text] }
  else
    { program := compiler
      arguments :=
        ["-c".toList, "-O2".toList, "-fPIC".toList] ++
          (if source.suffix = ".c".toList then ["-x".toList, "c".toList] else []) ++
          options.includeDirs.flatMap (fun dir => ["-I".toList, dir.text]) ++
          [source.text, "-o".toList, object.text] }

/-- The command that links objects. -/
def linkCommand (compiler : Text) (kind : LinkKind) (objects : List Path) (output : Path)
    (options : LinkOptions) : Command where
  program := compiler
  arguments :=
    objects.map (·.text) ++ ["-o".toList, output.text] ++
      options.libraryDirs.flatMap (fun dir => ["-L".toList, dir.text]) ++
      options.libraries.map ("-l".toList ++ ·) ++
      options.exportSymbols.map ("-Wl,--undefined=".toList ++ ·) ++
      match kind with
      | .shared => ["-shared".toList]
      | .executable => []

/-- What a link is called in the log. -/
def linkName : LinkKind → Text
  | .shared => "library".toList
  | .executable => "executable".toList

/-- Compiles one source. -/
def compileOne (around : Surroundings) (compiler : Text) (options : CompileOptions)
    (source : Path) : Action Path := do
  let object := objectPath source options.outputDir
  Action.makeParent (fun above => some (.creating above)) object
  Action.note .info .compiler ("Compiling ".toList ++ source.text)
  Action.runTool around (.launching compiler) compiler
    (compileCommand compiler source object options)
  return object

/-- Links objects. -/
def link (around : Surroundings) (compiler : Text) (kind : LinkKind) (objects : List Path)
    (output : Path) (options : LinkOptions) : Action Unit := do
  Action.makeParent (fun above => some (.creating above)) output
  Action.note .info .compiler
    ("Linking ".toList ++ linkName kind ++ ' ' :: output.text)
  Action.runTool around (.launching compiler) compiler
    (linkCommand compiler kind objects output options)

/-- The toolchain that drives a compiler. -/
def toolchain (around : Surroundings) (compiler : Text) : Toolchain where
  compile sources options :=
    (sources.filter fun source => !isHeader source).mapM (compileOne around compiler options)
  link := link around compiler

end Compiler

end NativeFreeze
