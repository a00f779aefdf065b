import ListScript.Text.Hex
import ListScript.Toml.Value

/-!
# Writing TOML

A document is written as the fields of its root, followed by tables under doubled headers, with an empty line between
each two parts. Text is written in the plainest of the four quoted forms that can hold it: within a line if
possible, and without escape sequences if possible.
-/
namespace ListScript.Toml

/-- What the value of a written field can be. -/
inductive Datum where
  | text (s : String)
  | flag (b : Bool)
  | texts (items : List String)
  deriving DecidableEq, Repr

def Datum.value : Datum → Value
  | text s => .string s
  | flag b => .boolean b
  | texts items => .array (items.map .string)

/-- The entries of a table with the given fields. -/
def Table.ofFields (fields : List (String × Datum)) : Table := fields.map fun (name, d) => (name, d.value)

namespace Quoted

/-- A character that cannot stand for itself in any quoted form. -/
def isHidden (c : Char) : Bool := (c.toNat < 32 && c ≠ '\t' && c ≠ '\n') || c.toNat == 127

/-- Whether a quote mark occurs three times in a row. -/
def hasTriple (mark : Char) : List Char → Bool
  | a :: b :: c :: cs => (a == mark && b == mark && c == mark) || hasTriple mark (b :: c :: cs)
  | _ => false

inductive Form where
  | basicLine
  | literalLine
  | basicBlock
  | literalBlock
  deriving DecidableEq, Repr

/-- The form in which a text is written. -/
def form (cs : List Char) : Form :=
  let hidden := cs.any isHidden
  let broken := cs.contains '\n'
  if !hidden && !cs.contains '\\' && !cs.contains '"' && !broken then .basicLine
  else if !hidden && !cs.contains '\'' && !broken then .literalLine
  else if !hidden && !cs.contains '\\' && !hasTriple '"' cs then .basicBlock
  else if !hidden && !hasTriple '\'' cs then .literalBlock
  else if broken then .basicBlock
  else .basicLine

/-- A character other than a quote mark between double quotes. -/
def escapeChar (inBlock : Bool) (c : Char) : List Char :=
  if c = '\\' then ['\\', '\\']
  else if c = '\t' then ['\\', 't']
  else if c = '\n' then if inBlock then [c] else ['\\', 'n']
  else if c = '\r' then ['\\', 'r']
  else if c.toNat = 8 then ['\\', 'b']
  else if c.toNat = 12 then ['\\', 'f']
  else if c.toNat < 32 ∨ c.toNat = 127 then '\\' :: 'u' :: Text.Hex.four Text.Hex.upper c.toNat
  else [c]

/-- Text between double quotes. In a block, two quote marks in a row may stand for themselves; `run` is the number of
those just written. -/
def escape (inBlock : Bool) : (run : Nat) → List Char → List Char
  | _, [] => []
  | run, c :: cs =>
    if c = '"' then
      if inBlock && run < 2 then '"' :: escape inBlock (run + 1) cs
      else '\\' :: '"' :: escape inBlock 0 cs
    else escapeChar inBlock c ++ escape inBlock 0 cs

/-- The line break after the opening marks of a block that has line breaks. -/
def leadingBreak (cs : List Char) : List Char := if cs.contains '\n' then ['\n'] else []

def encode (cs : List Char) : Form → List Char
  | .basicLine => '"' :: escape false 0 cs ++ ['"']
  | .literalLine => '\'' :: cs ++ ['\'']
  | .basicBlock => '"' :: '"' :: '"' :: leadingBreak cs ++ escape true 0 cs ++ ['"', '"', '"']
  | .literalBlock => '\'' :: '\'' :: '\'' :: leadingBreak cs ++ cs ++ ['\'', '\'', '\'']

def write (s : String) : String := String.ofList (encode s.toList (form s.toList))

end Quoted

namespace Datum

def write : Datum → String
  | text s => Quoted.write s
  | flag b => if b then "true" else "false"
  | texts items => "[" ++ ", ".intercalate (items.map Quoted.write) ++ "]"

end Datum

/-- The line of a field. Names of fields need no quotes. -/
def writeField (field : String × Datum) : String := field.1 ++ " = " ++ field.2.write ++ "\n"

def writeFields (fields : List (String × Datum)) : String := String.join (fields.map writeField)

/-- A table under a doubled header, given the name in the header. -/
def writeElement (name : String) (fields : List (String × Datum)) : String :=
  "[[" ++ name ++ "]]\n" ++ writeFields fields

/-- A document of root fields and named tables. -/
def writeDocument (root : List (String × Datum)) (elements : List (String × List (String × Datum))) :
    String :=
  let first := if root.isEmpty then [] else [writeFields root]
  "\n".intercalate (first ++ elements.map fun (name, fields) => writeElement name fields)

end ListScript.Toml
