import NativeFreeze.Process

/-!
# Failures

Why an operation failed, and what it was doing. The message of a failure is the wording of the
activity if one is known, and of the cause otherwise; its report gives both.
-/

namespace NativeFreeze

/-- What stopped an operation. -/
inductive Cause
  | missingPackageInit (package : Text)
  | notTranspiled (path : Path)
  | notPackageBuild (path : Path)
  | alreadyPackageFrozen (path : Path)
  | alreadyExecutableFrozen (path : Path)
  | unsupportedExtension (path : Path) (suffix : Text)
  | dataSourceMissing (path : Path)
  | templateDrift (path : Path) (marker : Text)
  | emptyModule
  | toolFailed (tool : Text) (exit : Exit)
  | malformedDocument
  | file (error : FileError)
  | walk (path : Path) (error : FileError)
  | probeFailed (errors : Text)
  | probeSilent (key : Text)
  | entryPointNotBuildable (path : Path)
  | entryPointKind
  | refused (message : Text)
  deriving DecidableEq, Repr

/-- The wording of a cause. -/
def Cause.message : Cause → Text
  | missingPackageInit package =>
    "Not found '__init__' in package \"".toList ++ package ++ ['"']
  | notTranspiled p => "File '".toList ++ p.text ++ "' not transpiled".toList
  | notPackageBuild p =>
    "File '".toList ++ p.text ++ "' transpiled without package identity".toList
  | alreadyPackageFrozen p =>
    "Package identity of '".toList ++ p.text ++ "' is already frozen".toList
  | alreadyExecutableFrozen p =>
    "Executable registration already appended to '".toList ++ p.text ++ "'".toList
  | unsupportedExtension p suffix =>
    "Not supported extension \"".toList ++ suffix ++ "\" for '".toList ++ p.text ++ "'".toList
  | dataSourceMissing p => "Data file '".toList ++ p.text ++ "' does not exist".toList
  | templateDrift p marker =>
    "Generated source '".toList ++ p.text ++ "' is missing marker \x60".toList ++ marker ++
      "\x60".toList
  | emptyModule => "Module has no units to build".toList
  | toolFailed tool exit => tool ++ " failed with ".toList ++ exit.message
  | malformedDocument => "TOML parse error".toList
  | file error => error.message.toList
  | walk p error =>
    "IO error for operation on ".toList ++ p.text ++ ": ".toList ++ error.message.toList ++
      ": ".toList ++ error.message.toList
  | probeFailed errors => "Host layout probe failed: ".toList ++ errors
  | probeSilent key => "Host layout probe did not report \x60".toList ++ key ++ "\x60".toList
  | entryPointNotBuildable p =>
    "Executable entry point ".toList ++ p.text ++ " is not a buildable source".toList
  | entryPointKind => "Executable entry point must be a script or native source".toList
  | refused message => message

/-- What was being done when an operation failed. -/
inductive Activity
  | listing (directory : Path)
  | readingConfig (file : Path)
  | parsingConfig (file : Path)
  | readingManifest (file : Path)
  | parsingManifest (file : Path)
  | reading (file : Path)
  | writing (file : Path)
  | creating (file : Path)
  | copying (source target : Path)
  | opening (file : Path)
  | adding (member : Text)
  | walking (folder : Path)
  | removing (file : Path)
  | running (program : Path)
  | launching (program : Text)
  | launchingCython (interpreter : Path)
  deriving DecidableEq, Repr

/-- The wording of an activity that failed. -/
def Activity.message : Activity → Text
  | listing p => "Failed to list ".toList ++ p.text
  | readingConfig p => "Failed to read config ".toList ++ p.text
  | parsingConfig p => "Failed to parse config ".toList ++ p.text
  | readingManifest p => "Failed to read manifest ".toList ++ p.text
  | parsingManifest p => "Failed to parse manifest ".toList ++ p.text
  | reading p => "Failed to read ".toList ++ p.text
  | writing p => "Failed to write ".toList ++ p.text
  | creating p => "Failed to create ".toList ++ p.text
  | copying source target =>
    "Failed to copy ".toList ++ source.text ++ " to ".toList ++ target.text
  | opening p => "Failed to open ".toList ++ p.text
  | adding member => "Failed to write ".toList ++ member ++ " to archive".toList
  | walking p => "Failed to walk ".toList ++ p.text
  | removing p => "Failed to remove ".toList ++ p.text
  | running p => "Failed to run ".toList ++ p.text
  | launching program => "Failed to launch ".toList ++ program
  | launchingCython p => "Failed to launch cython via ".toList ++ p.text

/-- A failure: its cause and, where it was noted, the activity that it ended. -/
structure Failure where
  cause : Cause
  during : Option Activity := none
  deriving DecidableEq, Repr

namespace Failure

/-- The outermost wording of a failure. -/
def message (f : Failure) : Text :=
  match f.during with
  | some activity => activity.message
  | none => f.cause.message

/-- The whole wording of a failure. -/
def report (f : Failure) : Text :=
  match f.during with
  | some activity => activity.message ++ ": ".toList ++ f.cause.message
  | none => f.cause.message

end Failure

end NativeFreeze
