/-!
# The characters of TOML

Which characters may stand where, and how blanks, comments and line breaks are passed over. Line breaks are single
line feeds here.
-/
namespace ListScript.Toml

def isBlank (c : Char) : Bool := c == ' ' || c == '\t'

/-- A character that may stand for itself within a line of a comment or a string. -/
def isPlain (c : Char) : Bool := c == '\t' || (32 ≤ c.toNat && c.toNat ≠ 127)

/-- A character of a key without quotes. -/
def isBare (c : Char) : Bool := c.isAlphanum || c == '_' || c == '-'

/-- A character of a value without quotes and brackets. -/
def isWord (c : Char) : Bool := isBare c || c == '+' || c == '.' || c == ':'

def skipBlanks (cs : List Char) : List Char := cs.dropWhile isBlank

/-- Passes over the rest of a line that holds nothing more than blanks and a comment. -/
def lineEnd? (cs : List Char) : Option (List Char) :=
  let rest :=
    match skipBlanks cs with
    | '#' :: comment => comment.dropWhile isPlain
    | rest => rest
  match rest with
  | [] => some []
  | '\n' :: rest => some rest
  | _ => none

/-- Passes over blanks, line breaks and comments. -/
def skipGap (inComment : Bool) : List Char → List Char
  | [] => []
  | c :: cs =>
    if c = '\n' then skipGap false cs
    else if inComment then if isPlain c then skipGap true cs else c :: cs
    else if isBlank c then skipGap false cs
    else if c = '#' then skipGap true cs
    else c :: cs

/-- Makes every line break a single line feed. A carriage return by itself stays, and is allowed nowhere. -/
def unifyBreaks : List Char → List Char
  | '\r' :: '\n' :: cs => '\n' :: unifyBreaks cs
  | c :: cs => c :: unifyBreaks cs
  | [] => []

end ListScript.Toml
