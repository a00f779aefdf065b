import ListScript.Text.Decimal
import ListScript.Text.Hex

/-!
# JSON

The values that results and catalogs are published as, and their two layouts: compact, without any blank, and
pretty, with one item a line and two spaces for each level.
-/
namespace ListScript

inductive Json where
  | integer (n : Int)
  | boolean (b : Bool)
  | text (s : String)
  | array (items : List Json)
  | object (fields : List (String × Json))

namespace Json

/-- A character inside quotes. Only quotes, backslashes and control characters are escaped. -/
def quoteChar (c : Char) : List Char :=
  if c = '"' then ['\\', '"']
  else if c = '\\' then ['\\', '\\']
  else if c = '\n' then ['\\', 'n']
  else if c = '\r' then ['\\', 'r']
  else if c = '\t' then ['\\', 't']
  else if c.toNat = 8 then ['\\', 'b']
  else if c.toNat = 12 then ['\\', 'f']
  else if c.toNat < 32 then '\\' :: 'u' :: Text.Hex.four Text.Hex.lower c.toNat
  else [c]

def quote (s : String) : String := String.ofList ('"' :: s.toList.flatMap quoteChar ++ ['"'])

/-- Parts on one line, with a comma between each two. -/
def bracketed (opening closing : String) (parts : List String) : String :=
  opening ++ ",".intercalate parts ++ closing

mutual

/-- The text without blanks. -/
def compact : Json → String
  | integer n => Decimal.ofInt n
  | boolean b => if b then "true" else "false"
  | text s => quote s
  | array items => bracketed "[" "]" (compactItems items)
  | object fields => bracketed "\x7b" "\x7d" (compactFields fields)

def compactItems : List Json → List String
  | [] => []
  | item :: items => compact item :: compactItems items

def compactFields : List (String × Json) → List String
  | [] => []
  | (name, value) :: fields => (quote name ++ ":" ++ compact value) :: compactFields fields

end

def margin (level : Nat) : String := String.ofList (List.replicate (2 * level) ' ')

/-- Parts one to a line, a level further in than the brackets around them. -/
def stacked (level : Nat) (opening closing : String) (parts : List String) : String :=
  if parts.isEmpty then opening ++ closing
  else
    opening ++ "\n" ++ ",\n".intercalate (parts.map (margin (level + 1) ++ ·)) ++ "\n" ++ margin level ++
      closing

mutual

/-- The pretty text of a value that stands at a level. -/
def prettyAt (level : Nat) : Json → String
  | integer n => Decimal.ofInt n
  | boolean b => if b then "true" else "false"
  | text s => quote s
  | array items => stacked level "[" "]" (prettyItems (level + 1) items)
  | object fields => stacked level "\x7b" "\x7d" (prettyFields (level + 1) fields)

def prettyItems (level : Nat) : List Json → List String
  | [] => []
  | item :: items => prettyAt level item :: prettyItems level items

def prettyFields (level : Nat) : List (String × Json) → List String
  | [] => []
  | (name, value) :: fields =>
    (quote name ++ ": " ++ prettyAt level value) :: prettyFields level fields

end

def pretty (j : Json) : String := prettyAt 0 j

theorem compactItems_eq (items : List Json) : compactItems items = items.map compact := by
  induction items with
  | nil => rfl
  | cons item items ih => simp [compactItems, ih]

end Json

end ListScript
