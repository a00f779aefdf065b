import ListScript.Operation.Apply
import ListScript.Program
import ListScript.State

/-!
# Running

A statement works on a state in place: it must set the next variable, all its arguments must be defined, and then
its operation decides. A single statement is run on a copy of a state. A program is run on as many valid inputs as it
declares; its statements are executed in one state, one after the other, up to the first without a result.
-/
namespace ListScript

/-- A computation that changes a state in place and may end in a fault. -/
abbrev Execution := ExceptT RunError (StateM State)

/-- The state that an execution leaves behind, provided that it answers that there is a result. -/
def Execution.outcome (x : Execution Bool) (state : State) : Outcome State :=
  match (x.run.run state : Except RunError Bool × State) with
  | (.error e, _) => .fault e
  | (.ok false, _) => .undefined
  | (.ok true, next) => .done next

namespace Statement

/-- The arguments of a statement's operation, looked up in a state. -/
def arguments (s : Statement) (state : State) : Except RunError (List Argument) := do
  let values ← s.args.mapM fun index => state.get index.toNat
  return s.lambda.toList.map Argument.lambda ++ values.map Argument.value

/-- The value of the variable that a statement sets. The variable must be the next one. -/
def evaluate (c : Config) (s : Statement) (state : State) : Outcome Value :=
  if s.lhs.toNat ≠ state.length then .fault (.lhsIndex state.length s.lhs.toNat)
  else do
    let args ← Outcome.ofExcept (s.arguments state)
    s.operation.apply c args

/-- Executes a statement in place: whether it has a result, which is then the value of the next variable. -/
def execute (c : Config) (s : Statement) : Execution Bool := do
  match s.evaluate c (← get) with
  | .fault e => throw e
  | .undefined => return false
  | .done v =>
    modify fun state => state.push v
    return true

/-- Executes statements in place, up to the first one without a result. -/
def executeAll (c : Config) : List Statement → Execution Bool
  | [] => return true
  | s :: rest => do
    if ← s.execute c then executeAll c rest else return false

end Statement

namespace State

/-- Runs one statement on a copy of the state: the copy with the new value at its end. -/
def step (c : Config) (state : State) (s : Statement) : Outcome State := (s.execute c).outcome state

/-- Runs statements in order, each on a copy of the state that the one before it has left. -/
def steps (c : Config) (state : State) (statements : List Statement) : Outcome State :=
  statements.foldlM (step c) state

end State

namespace Program

/-- Runs a program on inputs. An input out of bounds leaves it without a result. -/
def run (c : Config) (p : Program) (inputs : List Value) : Outcome State :=
  if inputs.length ≠ p.numInputs then .fault (.inputCount p.numInputs inputs.length)
  else if inputs.all Value.isValid then (Statement.executeAll c p.statements).outcome ⟨inputs⟩
  else .undefined

end Program

end ListScript
