import ListScript.Error
import ListScript.Run

/-!
# Sessions

A session holds states in numbered slots, and the configuration of its runs. A step looks at slots, adds to one of them
or fills a new one. A step that fails, or that has no result, leaves everything as it was.
-/
namespace ListScript

structure Session where
  slots : List State
  config : Config := {}
  deriving DecidableEq

namespace Session

inductive Step where
  /-- Adds a value to a state, in bounds or not. -/
  | add (slot : Nat) (v : Value)
  | get (slot index : Nat)
  | output (slot : Nat)
  | clone (slot : Nat)
  | equal (slot other : Nat)
  /-- Reads a state into a new slot. -/
  | parse (tokens : List String)
  /-- Puts a state into a new slot. -/
  | insert (s : State)
  /-- Compares a state with what its tokens are read as. -/
  | reparse (slot : Nat)
  | configure (c : Config)
  /-- Runs a statement in a state and puts the result into a new slot. -/
  | run (slot : Nat) (s : Statement)
  /-- Runs a statement in a state and puts the result in its place. -/
  | advance (slot : Nat) (s : Statement)
  /-- Runs a program on the values of a state and puts the result into a new slot. -/
  | runProgram (slot : Nat) (p : Program)

/-- What a step reports. -/
inductive Answer where
  | length (n : Nat)
  | value (v : Value)
  | slot (n : Nat)
  | truth (b : Bool)
  | config (c : Config)
  | noResult
  deriving DecidableEq, Repr

/-- The state in a slot; a slot that was never filled counts as empty. -/
def state (s : Session) (slot : Nat) : State := s.slots.getD slot .empty

def push (s : Session) (state : State) : Session := { s with slots := s.slots ++ [state] }

def set (s : Session) (slot : Nat) (state : State) : Session := { s with slots := s.slots.set slot state }

/-- Fills a new slot and reports its number. -/
def opened (s : Session) (state : State) : Session × Answer := (s.push state, .slot s.slots.length)

/-- Reports a value if there is one. -/
def Answer.ofValue? : Option Value → Answer
  | some v => .value v
  | none => .noResult

/-- Does with the result of a run what `keep` says, and nothing if there is no result. -/
def keepResult (s : Session) (keep : State → Session × Answer) (r : Outcome State) :
    Except Error (Session × Answer) :=
  match r with
  | .fault e => .error (.run e)
  | .undefined => .ok (s, .noResult)
  | .done state => .ok (keep state)

/-- Takes a step: the session after it and what it reports, or why it fails. -/
def step (s : Session) : Step → Except Error (Session × Answer)
  | .add slot v =>
    let state := (s.state slot).push v
    .ok (s.set slot state, .length state.length)
  | .get slot index =>
    match (s.state slot).get index with
    | .ok v => .ok (s, .value v)
    | .error e => .error (.run e)
  | .output slot => .ok (s, .ofValue? (s.state slot).output?)
  | .clone slot => .ok (s.opened (s.state slot))
  | .equal slot other => .ok (s, .truth (s.state slot = s.state other))
  | .parse tokens =>
    match State.ofTokens tokens with
    | .ok state => .ok (s.opened state)
    | .error e => .error (.parse e)
  | .insert state => .ok (s.opened state)
  | .reparse slot =>
    match State.ofTokens (s.state slot).tokens with
    | .ok state => .ok (s, .truth (state = s.state slot))
    | .error e => .error (.parse e)
  | .configure c => .ok ({ s with config := c }, .config c)
  | .run slot statement => s.keepResult s.opened ((s.state slot).step s.config statement)
  | .advance slot statement =>
    s.keepResult (fun state => (s.set slot state, .ofValue? state.output?))
      ((s.state slot).step s.config statement)
  | .runProgram slot p => s.keepResult s.opened (p.run s.config (s.state slot).values)

/-- The session after a step, whether the step fails or not. -/
def after (s : Session) (step : Step) : Session :=
  match s.step step with
  | .ok (next, _) => next
  | .error _ => s

/-- The session after several steps. -/
def afterAll (s : Session) (steps : List Step) : Session := steps.foldl after s

end Session

end ListScript
