import ListScript.Signature
import ListScript.Text.Decimal
import ListScript.Token
import ListScript.Token.Group

/-!
# Values

A value is a 64-bit integer or a list of them. Making a value never checks the bound on its integers; a value
whose integers are all within the bound is called valid.
-/
namespace ListScript

inductive Value where
  | int (n : Int64)
  | list (items : List Int64)
  deriving DecidableEq, Repr

/-- The greatest magnitude of an integer in a program's state. -/
def bound : Nat := 256

/-- Whether an integer may occur in a program's state. -/
def inBounds (n : Int64) : Bool := n.toInt.natAbs ≤ bound

namespace Value

def kind : Value → Kind
  | int _ => .int
  | list _ => .list

def int? : Value → Option Int64
  | int n => some n
  | list _ => none

def list? : Value → Option (List Int64)
  | int _ => none
  | list items => some items

def integers : Value → List Int64
  | int n => [n]
  | list items => items

def isValid (v : Value) : Bool := v.integers.all inBounds

def integerToken (n : Int64) : String := Decimal.ofInt n.toInt

/-- The tokens of a value: an integer is one token, a list stands in brackets with commas in between. -/
def tokens : Value → List String
  | int n => [integerToken n]
  | list items =>
    Token.listOpen ::
      Token.joinGroups Token.comma (items.map fun n => [integerToken n]) ++ [Token.listClose]

def text (v : Value) : String := Token.unwords v.tokens

end Value

/-- A result counts as valid when there is one and its integers are within the bound. -/
def isValidResult (result : Option Value) : Bool := result.any Value.isValid

end ListScript
