import MiniScheme.Session
import MiniScheme.Settings

/-!
# The command line

The first argument is run and its printed value goes to the standard output. Further arguments are ignored.
Errors go to the standard error, after the logged events.
-/

namespace MiniScheme.CommandLine

/-- What a run of the program leaves behind. -/
structure Exit where
  code : Nat
  out : String
  err : String
deriving DecidableEq, Repr

def usage : String := "usage: schemer EXPR"

/-- The level of all events. -/
def eventLevel : Nat := 10

/-- An event as a line of the log. -/
def logLine (event : Event) : String :=
  "DEBUG " ++ event.reporter ++ ": " ++ event.message ++ "\n"

/-- The log of some events, if they are logged at this level. -/
def log (level : Nat) (events : List Event) : String :=
  if level ≤ eventLevel then String.join (events.map logLine) else ""

/-- The run of the first argument among `count` further ones. -/
def runFirst (limits : Limits) (settings : Settings) (source : String) (count : Nat) : Traced String := do
  if 0 < count then Traced.record (.extraArguments count)
  Session.run ⟨settings.sourceName⟩ limits source

/-- The run of the program with some arguments. -/
def run (limits : Limits) (env : Environment) : List String → Exit
  | [] => ⟨2, "", usage ++ "\n"⟩
  | source :: others =>
    let settings := Settings.ofEnvironment env
    let traced := runFirst limits settings source others.length
    match traced.result with
    | .ok text => ⟨0, text ++ "\n", log settings.logLevel traced.events⟩
    | .error e =>
      ⟨1, "", log settings.logLevel (traced.events ++ [.runFailed source]) ++ e.label ++ ": " ++
        e.message ++ "\n"⟩

end MiniScheme.CommandLine
