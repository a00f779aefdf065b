import ListScript.ParseError
import ListScript.Word

/-!
# Reading values

The grammar of values is that of their tokens, except that an integer may have leading zeros and a minus sign
before a zero. Reading does not check the bound.
-/
namespace ListScript

namespace Value

/-- The integer that a token stands for, if it is a literal of a 64-bit integer. -/
def integer? (token : String) : Option Int64 := Decimal.toInt? token.toList >>= exactInt64?

def integerOfToken (token : String) : Except ParseError Int64 :=
  match integer? token with
  | some n => .ok n
  | none => .error (.invalidInteger token)

/-- Reads what stands between two commas of a list. -/
def elementOfTokens : List String → Except ParseError Int64
  | [] => .error (.unexpectedEnd .listElement)
  | [token] => integerOfToken token
  | _ :: extra :: _ => .error (.unexpectedToken Token.comma extra)

/-- Reads a value. A single token is an integer; more than one token must be a list in its brackets. -/
def ofTokens : List String → Except ParseError Value
  | [] => .error (.unexpectedEnd .value)
  | [token] => int <$> integerOfToken token
  | first :: second :: rest =>
    let last := (second :: rest).getLast (List.cons_ne_nil second rest)
    if first ≠ Token.listOpen then .error (.unexpectedToken Token.listOpen first)
    else if last ≠ Token.listClose then .error (.unexpectedToken Token.listClose last)
    else list <$> (Token.splitGroups Token.comma (second :: rest).dropLast).mapM elementOfTokens

def ofText (text : String) : Except ParseError Value := ofTokens (Token.split text)

end Value

end ListScript
