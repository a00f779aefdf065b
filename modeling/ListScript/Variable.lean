import ListScript.ParseError
import ListScript.Word

/-!
# Variables

Variables are numbered from zero by unsigned 64-bit words. The variable of index `i` is written as the letter
`x` and the decimal digits of `i`, and has no other spelling.
-/
namespace ListScript.Variable

/-- The token of the variable of a given index. -/
def token (index : Nat) : String := "x" ++ Decimal.ofNat index

/-- The index in a variable token, if the token has that form and the index is a word. -/
def index? (token : String) : Option UInt64 :=
  match token.toList with
  | 'x' :: digits => Decimal.canonical? digits >>= exactUInt64?
  | _ => none

def ofToken (token : String) : Except ParseError UInt64 :=
  match index? token with
  | some index => .ok index
  | none => .error (.invalidVariable token)

end ListScript.Variable
