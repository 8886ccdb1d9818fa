import MiniScheme.Text.Blank
import MiniScheme.Text.Capital

/-!
# Settings

Two settings come from the environment: the name under which sources are reported, and the level from which
events are logged. A setting that is missing or blank has its default.
-/

namespace MiniScheme

/-- The environment variables that are set. -/
abbrev Environment := String → Option String

structure Settings where
  /-- The name of sources in messages. -/
  sourceName : String
  /-- Events below this level are not logged. -/
  logLevel : Nat
deriving DecidableEq, Repr

namespace Settings

/-- The value of a variable, without surrounding blanks, or its default. -/
def lookup (env : Environment) (name default : String) : String :=
  match env name with
  | none => default
  | some raw =>
    let text := Text.strip raw
    if text = "" then default else text

/-- The levels that have a name. -/
def namedLevels : List (String × Nat) :=
  [("CRITICAL", 50), ("FATAL", 50), ("ERROR", 40), ("WARNING", 30), ("WARN", 30), ("INFO", 20),
    ("DEBUG", 10), ("NOTSET", 0)]

/-- The level of a name in any case; an unknown name is a warning. -/
def levelOfName (name : String) : Nat :=
  (namedLevels.lookup (Text.capitals name)).getD 30

/-- The settings of an environment. -/
def ofEnvironment (env : Environment) : Settings where
  sourceName := lookup env "SCHEMER_SOURCE_NAME" "lisp"
  logLevel := levelOfName (lookup env "SCHEMER_LOG_LEVEL" "WARNING")

/-- The settings of the empty environment. -/
def default : Settings :=
  ofEnvironment fun _ => none

end Settings

end MiniScheme
