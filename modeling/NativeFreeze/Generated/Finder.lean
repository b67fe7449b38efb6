import NativeFreeze.Generated.CString

/-!
# The package finder

A package linked into one library has no files for its modules. The script below, run when the
package is initialised, adds a finder that resolves each module of the package to the library
itself. It is formatted with the name of the package and the file of the library, so it holds no `%`
besides its two slots.
-/

namespace NativeFreeze.Finder

/-- The lines of the script. -/
def script : List Text := ([
  "import sys",
  "import importlib.abc",
  "import importlib.machinery",
  "import importlib.util",
  "",
  "",
  "class _FrozenPackageFinder(importlib.abc.MetaPathFinder):",
  "    def __init__(self, package, library):",
  "        super().__init__()",
  "        self._package = package",
  "        self._library = library",
  "",
  "    def find_spec(self, fullname, path, target=None):",
  "        parts = fullname.split(\".\")",
  "        if len(parts) < 2 or parts[-2] != self._package:",
  "            return None",
  "        symbol = fullname.replace(\".\", \"_\")",
  "        loader = importlib.machinery.ExtensionFileLoader(symbol, self._library)",
  "        return importlib.util.spec_from_loader(symbol, loader)",
  "",
  "",
  "sys.meta_path.append(_FrozenPackageFinder(\"%s\", r\"%s\"))"
  ] : List String).map String.toList

/-- The script as string literals, one to a line. -/
def literals : Text :=
  script.flatMap fun line => "      ".toList ++ CString.piece line ++ ['\n']

/-- Native code that runs the script for the module held by the variable `moduleObject`. -/
def snippet (moduleObject : Text) : Text :=
  ("  /* cyfreeze: package finder */\n" ++
    "  \x7b\n" ++
    "    PyObject *__cyfreeze_script = PyUnicode_FromFormat(\n").toList ++
  literals ++
  ("      ,\n" ++
    "      PyUnicode_AsUTF8(PyObject_GetAttrString(").toList ++ moduleObject ++
  ", (char*)\"__package__\")),\n      PyUnicode_AsUTF8(PyObject_GetAttrString(".toList ++
  moduleObject ++
  (", (char*)\"__file__\")));\n" ++
    "    if (__cyfreeze_script != NULL) \x7b\n" ++
    "      PyRun_SimpleString(PyUnicode_AsUTF8(__cyfreeze_script));\n" ++
    "      Py_DECREF(__cyfreeze_script);\n" ++
    "    \x7d\n" ++
    "  \x7d\n").toList

end NativeFreeze.Finder
