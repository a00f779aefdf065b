import ListScript.Error
import ListScript.Run

/-!
# Scripts

A script is a run given entirely by text: a configuration, a program, and a state whose values are the inputs.
-/
namespace ListScript

structure Script where
  config : String
  program : String
  inputs : String
  deriving DecidableEq, Repr

/-- Reads the parts of a script, in that order, and runs the program. -/
def Script.run (s : Script) : Except Error (Option State) := do
  let c ← (Config.ofText s.config).mapError .config
  let p ← (Program.ofText s.program).mapError .parse
  let inputs ← (State.ofText s.inputs).mapError .parse
  (p.run c inputs.values).toExcept.mapError .run

end ListScript
