import NativeFreeze.Text.Basic

/-!
# The bootstrap of an executable

The main unit of an executable gets a program part appended: declarations of the init functions of
all linked units, the table by which the runtime finds them, one of two ways to start the runtime,
and `main`. Its text is a template of fixed pieces and slots.
-/

namespace NativeFreeze.Bootstrap

/-- The slots of the template. -/
inductive Slot
  | declarations
  | table
  | runtimeInit
  | runtimeDir
  | archive
  | mainSymbol
  | mainName
  deriving DecidableEq, Repr

/-- The slots in the order in which they are filled. -/
def Slot.all : List Slot :=
  [declarations, table, runtimeInit, runtimeDir, archive, mainSymbol, mainName]

/-- How a slot is spelled in the text of the template. -/
def Slot.spelling : Slot → Text
  | declarations => "/* @cyfreeze:modinit-decls */".toList
  | table => "/* @cyfreeze:modinit-table */".toList
  | runtimeInit => "/* @cyfreeze:runtime-init */".toList
  | runtimeDir => "@CYFREEZE_RUNTIME_DIR@".toList
  | archive => "@CYFREEZE_ARCHIVE@".toList
  | mainSymbol => "@CYFREEZE_MAIN_SYMBOL@".toList
  | mainName => "@CYFREEZE_MAIN_NAME@".toList

/-- A piece of the template. -/
inductive Piece
  | text (s : Text)
  | slot (s : Slot)
  deriving DecidableEq, Repr

/-- The first line of the bootstrap; a source that holds it has a bootstrap. -/
def marker : Text := "/* cyfreeze: executable registration */".toList

/-- The template. -/
def template : List Piece := [
  .text ("/* cyfreeze: executable registration */\n" ++
    "#include <string>\n" ++
    "\n" ++
    "#ifdef _WIN32\n" ++
    "#define CYFREEZE_SEP L'\\\\'\n" ++
    "#else\n" ++
    "#define CYFREEZE_SEP L'/'\n" ++
    "#endif\n" ++
    "\n" ++
    "#define CYFREEZE_MODINIT(name) PyInit_##name\n" ++
    "\n").toList,
  .slot .declarations,
  .text ("\n" ++
    "\n" ++
    "static struct _inittab cyfreeze_inittab[] = \x7b\n").toList,
  .slot .table,
  .text ("\n" ++
    "    \x7bNULL, NULL\x7d\n" ++
    "\x7d;\n" ++
    "\n" ++
    "static const wchar_t CYFREEZE_RUNTIME_DIR[] = L\"").toList,
  .slot .runtimeDir,
  .text ("\";\n" ++
    "static const wchar_t CYFREEZE_ARCHIVE[] = L\"").toList,
  .slot .archive,
  .text ("\";\n" ++
    "\n" ++
    "static void cyfreeze_check(PyStatus status, PyConfig *config) \x7b\n" ++
    "    if (PyStatus_Exception(status)) \x7b\n" ++
    "        PyConfig_Clear(config);\n" ++
    "        Py_ExitStatusException(status);\n" ++
    "    \x7d\n" ++
    "\x7d\n" ++
    "\n" ++
    "static void InitPythonGlobal(int argc, char **argv) \x7b\n" ++
    "    PyConfig config;\n" ++
    "    PyConfig_InitPythonConfig(&config);\n" ++
    "    cyfreeze_check(PyConfig_SetBytesArgv(&config, argc, argv), &config);\n" ++
    "    cyfreeze_check(Py_InitializeFromConfig(&config), &config);\n" ++
    "    PyConfig_Clear(&config);\n" ++
    "\x7d\n" ++
    "\n" ++
    "static void InitPythonStandalone(int argc, char **argv) \x7b\n" ++
    "    PyConfig config;\n" ++
    "    PyConfig_InitIsolatedConfig(&config);\n" ++
    "    cyfreeze_check(PyConfig_SetBytesArgv(&config, argc, argv), &config);\n" ++
    "\n" ++
    "    wchar_t *program = Py_DecodeLocale(argv[0], NULL);\n" ++
    "    std::wstring dir = program ? program : L\"\";\n" ++
    "    PyMem_RawFree(program);\n" ++
    "    std::wstring::size_type sep = dir.rfind(CYFREEZE_SEP);\n" ++
    "    dir = sep == std::wstring::npos ? std::wstring(L\".\") : dir.substr(0, sep);\n" ++
    "\n" ++
    "    std::wstring runtime = dir + CYFREEZE_SEP + CYFREEZE_RUNTIME_DIR;\n" ++
    "    std::wstring archive = runtime + CYFREEZE_SEP + CYFREEZE_ARCHIVE;\n" ++
    "\n" ++
    "    cyfreeze_check(PyConfig_SetString(&config, &config.home, runtime.c_str()), &config);\n" ++
    "    config.module_search_paths_set = 1;\n" ++
    "    cyfreeze_check(PyWideStringList_Append(&config.module_search_paths, archive.c_str()), &config);\n" ++
    "    cyfreeze_check(PyWideStringList_Append(&config.module_search_paths, runtime.c_str()), &config);\n" ++
    "    cyfreeze_check(Py_InitializeFromConfig(&config), &config);\n" ++
    "    PyConfig_Clear(&config);\n" ++
    "\x7d\n" ++
    "\n" ++
    "int main(int argc, char **argv) \x7b\n" ++
    "    int exit_code = 0;\n" ++
    "\n" ++
    "    __pyx_module_is_main_").toList,
  .slot .mainSymbol,
  .text (" = 1;\n" ++
    "\n" ++
    "    if (PyImport_ExtendInittab(cyfreeze_inittab) < 0) \x7b\n" ++
    "        return 1;\n" ++
    "    \x7d\n" ++
    "\n" ++
    "    ").toList,
  .slot .runtimeInit,
  .text ("\n" ++
    "\n" ++
    "    PyObject *module = PyImport_ImportModule(\"").toList,
  .slot .mainName,
  .text ("\");\n" ++
    "    if (module == NULL) \x7b\n" ++
    "        PyErr_Print();\n" ++
    "        exit_code = 1;\n" ++
    "    \x7d\n" ++
    "    Py_XDECREF(module);\n" ++
    "\n" ++
    "    if (Py_FinalizeEx() < 0) \x7b\n" ++
    "        exit_code = 120;\n" ++
    "    \x7d\n" ++
    "    return exit_code;\n" ++
    "\x7d\n").toList]

/-- The text of a template, each slot spelled out. -/
def spelled (pieces : List Piece) : Text :=
  pieces.flatMap fun
    | .text s => s
    | .slot s => s.spelling

/-- The template with its slots filled, one slot after the other. A value that spells a slot filled
after it is filled in turn. -/
def fill (value : Slot → Text) : Text :=
  Slot.all.foldl (fun code slot => Text.replace slot.spelling (value slot) code) (spelled template)

end NativeFreeze.Bootstrap
