import ListScript.Text.Blank

/-!
# Tokens

Programs, states and values are texts made of tokens. A token is a single punctuation character or a
longest run of characters that are neither blank nor punctuation, so blanks between tokens do not matter.
-/
namespace ListScript.Token

def listOpen : String := "["
def listClose : String := "]"
def comma : String := ","
/-- Stands between the lines of a program and between the bindings of a state. -/
def bar : String := "|"
/-- Stands between a variable and what it is set to. -/
def assign : String := "="
/-- Declares an input variable. -/
def input : String := "INPUT"

def isPunctuation (c : Char) : Bool := c == '[' || c == ']' || c == ',' || c == '|' || c == '='

/-- The token held back so far, last character first. -/
def flush (word : List Char) : List String :=
  if word.isEmpty then [] else [String.ofList word.reverse]

/-- The tokens of a text of which `word`, last character first, is already read but not yet complete. -/
def scan : List Char → List Char → List String
  | word, [] => flush word
  | word, c :: cs =>
    if Text.isBlank c then flush word ++ scan [] cs
    else if isPunctuation c then flush word ++ String.ofList [c] :: scan [] cs
    else scan (c :: word) cs

def split (text : String) : List String := scan [] text.toList

/-- The text of a list of tokens: one space between each two. -/
def unwords (tokens : List String) : String := " ".intercalate tokens

end ListScript.Token
