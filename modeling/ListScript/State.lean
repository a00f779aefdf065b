import ListScript.RunError
import ListScript.Value.Reading
import ListScript.Variable

/-!
# States

The state of a run holds the values of the variables `x0`, `x1`, … in order. Values are only ever added at the
end. The text of a state is a list of bindings separated by bars; reading one requires that the variables are
numbered in order and that all values are valid.
-/
namespace ListScript

structure State where
  values : List Value
  deriving DecidableEq, Repr

namespace State

def empty : State := ⟨[]⟩

def length (s : State) : Nat := s.values.length

def isEmpty (s : State) : Bool := s.values.isEmpty

def get (s : State) (index : Nat) : Except RunError Value :=
  match s.values[index]? with
  | some v => .ok v
  | none => .error (.undefinedVariable index s.length)

def push (s : State) (v : Value) : State := ⟨s.values ++ [v]⟩

def output? (s : State) : Option Value := s.values.getLast?

def isValid (s : State) : Bool := s.values.all Value.isValid

/-- The tokens that bind a variable to its value. -/
def binding (index : Nat) (v : Value) : List String := Variable.token index :: Token.assign :: v.tokens

def bindings (s : State) : List (List String) := s.values.mapIdx binding

def tokens (s : State) : List String := Token.joinGroups Token.bar s.bindings

def text (s : State) : String := Token.unwords s.tokens

/-- Reads the value in the binding of the variable of a given index. -/
def valueOfBinding (position : Nat) : List String → Except ParseError Value
  | lhs :: sign :: rest => do
    let index ← Variable.ofToken lhs
    if index.toNat ≠ position then throw (.variableOrder position index.toNat)
    if sign ≠ Token.assign then throw (.unexpectedToken Token.assign sign)
    let v ← Value.ofTokens rest
    if !v.isValid then throw (.outOfBounds v)
    return v
  | _ => .error (.unexpectedEnd (.binding position))

/-- Reads the next binding of a state of which the bindings before it are already read. -/
def addBinding (s : State) (group : List String) : Except ParseError State :=
  s.push <$> valueOfBinding s.length group

/-- Reads a state; no tokens at all are the empty state. -/
def ofTokens (tokens : List String) : Except ParseError State :=
  (Token.splitGroups Token.bar tokens).foldlM addBinding empty

def ofText (text : String) : Except ParseError State := ofTokens (Token.split text)

@[simp] theorem length_push (s : State) (v : Value) : (s.push v).length = s.length + 1 := by
  simp [push, length]

end State

end ListScript
