import NativeFreeze.Path.Basic

/-!
# Requests to tools

What a build asks of the transpiler and of the toolchain. A workspace keeps the requests in the
order in which they were made.
-/

namespace NativeFreeze

/-- A script to be turned into native source, and the module name to do it under. -/
structure TranspileRequest where
  input : Path
  output : Path
  moduleName : Text
  deriving DecidableEq, Repr

/-- How sources are compiled: where headers are searched, and where objects go. -/
structure CompileOptions where
  includeDirs : List Path
  outputDir : Path
  deriving DecidableEq, Repr

/-- How objects are linked. -/
structure LinkOptions where
  libraryDirs : List Path
  libraries : List Text
  exportSymbols : List Text
  deriving DecidableEq, Repr

/-- What a link makes. -/
inductive LinkKind
  | shared
  | executable
  deriving DecidableEq, Repr

/-- A request to a tool. -/
inductive Request
  | transpile (request : TranspileRequest)
  | compile (sources : List Path) (options : CompileOptions)
  | link (kind : LinkKind) (objects : List Path) (output : Path) (options : LinkOptions)
  deriving DecidableEq, Repr

end NativeFreeze
