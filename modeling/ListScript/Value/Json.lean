import ListScript.Json
import ListScript.Text.Reader
import ListScript.Value
import ListScript.Word

/-!
# Values as JSON

An integer is a JSON number and a list is an array of numbers. The inputs of a program are read from an array of
such values. Numbers with a fraction or an exponent are not integers, and neither is a negative zero.
-/
namespace ListScript

namespace Value

def toJson : Value → Json
  | int n => .integer n.toInt
  | list items => .array (items.map fun n => .integer n.toInt)

def listToJson (values : List Value) : Json := .array (values.map toJson)

namespace OfJson

/-- The characters that may stand between the parts of a document. -/
def isBlank (c : Char) : Bool := c == ' ' || c == '\t' || c == '\n' || c == '\r'

def skipBlanks (cs : List Char) : List Char := cs.dropWhile isBlank

/-- Reads an integer from its digits and what is left after them. -/
def ofDigits (negative : Bool) (cs : List Char) : Option (Int64 × List Char) := do
  let n ← Decimal.canonical? (cs.takeWhile Char.isDigit)
  if negative && n == 0 then none
  let w ← exactInt64? (if negative then -(n : Int) else n)
  return (w, cs.dropWhile Char.isDigit)

def integer : Text.Reader Int64
  | '-' :: cs => ofDigits true cs
  | cs => ofDigits false cs

/-- Reads something with blanks around it. -/
def padded {α : Type} (item : Text.Reader α) : Text.Reader α := fun cs => do
  let (a, rest) ← item (skipBlanks cs)
  return (a, skipBlanks rest)

/-- Reads the items of an array and its closing bracket. -/
def items {α : Type} (item : Text.Reader α) (cs : List Char) : Option (List α × List Char) :=
  match skipBlanks cs with
  | ']' :: rest => some ([], rest)
  | start => Text.itemsUntil ']' (padded item) start.length start

def value : Text.Reader Value
  | '[' :: cs => (items integer cs).map fun (ns, rest) => (list ns, rest)
  | cs => (integer cs).map fun (n, rest) => (int n, rest)

end OfJson

/-- The values in the text of a JSON array. -/
def listOfJson? (text : String) : Option (List Value) :=
  match OfJson.skipBlanks text.toList with
  | '[' :: cs =>
    match OfJson.items OfJson.value cs with
    | some (values, rest) => if (OfJson.skipBlanks rest).isEmpty then some values else none
    | none => none
  | _ => none

end Value

end ListScript
