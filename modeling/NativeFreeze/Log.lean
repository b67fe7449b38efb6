import NativeFreeze.Text.Basic

/-!
# Log records

A record has a level, a topic and a message. Its line on the error stream names the level and the
topic; a filter (see `CommandLine.Filter`) decides by both which records are written.
-/

namespace NativeFreeze.Log

/-- How serious a record is. -/
inductive Level
  | error
  | warn
  | info
  | debug
  | trace
  deriving DecidableEq, Repr

/-- The rank of a level, the most serious first. -/
def Level.rank : Level → Nat
  | error => 1
  | warn => 2
  | info => 3
  | debug => 4
  | trace => 5

/-- The name of a level on a log line. -/
def Level.name : Level → Text
  | error => "ERROR".toList
  | warn => "WARN".toList
  | info => "INFO".toList
  | debug => "DEBUG".toList
  | trace => "TRACE".toList

/-- What a record is about. -/
inductive Topic
  | command
  | module
  | executable
  | cleanup
  | bundle
  | trace
  | compiler
  | transpiler
  | unit
  deriving DecidableEq, Repr

/-- The name of a topic on a log line; filters match it from the left. -/
def Topic.name : Topic → Text
  | command => "cyfreeze".toList
  | module => "cyfreeze::graph::module".toList
  | executable => "cyfreeze::graph::executable".toList
  | cleanup => "cyfreeze::graph::context".toList
  | bundle => "cyfreeze::packer".toList
  | trace => "cyfreeze::tracer".toList
  | compiler => "cyfreeze::toolchain".toList
  | transpiler => "cyfreeze::transpiler".toList
  | unit => "cyfreeze::unit".toList

/-- A log record. -/
structure Record where
  level : Level
  topic : Topic
  message : Text
  deriving DecidableEq, Repr

/-- A message as it is written: its later lines are indented. -/
def indented (message : Text) : Text :=
  Text.replace ['\n'] "\n    ".toList message

/-- The line of a record on the error stream. -/
def Record.line (r : Record) : Text :=
  '[' :: r.level.name ++ List.replicate (5 - r.level.name.length) ' ' ++ ' ' :: r.topic.name ++
    "] ".toList ++ indented r.message ++ ['\n']

end NativeFreeze.Log
