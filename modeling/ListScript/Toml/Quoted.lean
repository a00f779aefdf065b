import ListScript.Text.Hex
import ListScript.Text.Reader
import ListScript.Toml.Characters

/-!
# Quoted text in TOML

There are four quoted forms. Between double quotes a backslash begins an escape sequence; between single quotes every
character stands for itself. A quote mark written once encloses text within a line; written three times it encloses
a block, which may go over several lines and in which the mark may occur up to two times in a row.
-/
namespace ListScript.Toml.Quoted

open Text

/-- What is read of an escape sequence after its backslash. -/
inductive Escape where
  | start
  /-- The number of digits still to come and the value of those that came. -/
  | code (left value : Nat)
  deriving DecidableEq, Repr

/-- The character of a code point, if the code point is that of a character. -/
def char? (n : Nat) : Option Char := if n.isValidChar then some (Char.ofNat n) else none

/-- The next character of an escape sequence: either more of it is to come or it is complete. -/
def Escape.next : Escape → Char → Option (Escape ⊕ Char)
  | start, c =>
    if c = '"' ∨ c = '\\' then some (.inr c)
    else if c = 'n' then some (.inr '\n')
    else if c = 't' then some (.inr '\t')
    else if c = 'r' then some (.inr '\r')
    else if c = 'b' then some (.inr '\x08')
    else if c = 'f' then some (.inr '\x0c')
    else if c = 'u' then some (.inl (code 4 0))
    else if c = 'U' then some (.inl (code 8 0))
    else none
  | code left value, c =>
    (Hex.digit? c).bind fun d =>
      if left ≤ 1 then (char? (16 * value + d)).map .inr
      else some (.inl (code (left - 1) (16 * value + d)))

/-- Text within a line in double quotes, after the opening one; `escape` is the sequence that is being read. -/
def basicLine : (escape : Option Escape) → List Char → Option (List Char × List Char)
  | _, [] => none
  | some e, c :: cs =>
    match e.next c with
    | none => none
    | some (.inl e) => basicLine (some e) cs
    | some (.inr d) => (basicLine none cs).map fun (text, rest) => (d :: text, rest)
  | none, c :: cs =>
    if c = '"' then some ([], cs)
    else if c = '\\' then basicLine (some .start) cs
    else if isPlain c then (basicLine none cs).map fun (text, rest) => (c :: text, rest)
    else none

/-- Text within a line in single quotes, after the opening one. -/
def literalLine : List Char → Option (List Char × List Char)
  | [] => none
  | c :: cs =>
    if c = '\'' then some ([], cs)
    else if isPlain c then (literalLine cs).map fun (text, rest) => (c :: text, rest)
    else none

/-- The end of a block at the front of a text: three quote marks, after up to two that belong to the block. -/
def blockEnd? (mark : Char) (cs : List Char) : Option (List Char × List Char) :=
  let run := (cs.takeWhile (· == mark)).length
  if run < 3 then none
  else
    let own := Nat.min run 5 - 3
    some (List.replicate own mark, cs.drop (own + 3))

/-- What is being read of a block in double quotes. -/
inductive BlockMode where
  | text
  | escape (e : Escape)
  /-- Blanks that a backslash at the end of a line leaves out, before the line break or after it. -/
  | gap (broken : Bool)
  deriving DecidableEq, Repr

/-- A block in double quotes, after the opening ones. -/
def basicBlock : BlockMode → List Char → Option (List Char × List Char)
  | _, [] => none
  | .escape e, c :: cs =>
    if e = .start ∧ isBlank c then basicBlock (.gap false) cs
    else if e = .start ∧ c = '\n' then basicBlock (.gap true) cs
    else
      match e.next c with
      | none => none
      | some (.inl e) => basicBlock (.escape e) cs
      | some (.inr d) => (basicBlock .text cs).map fun (text, rest) => (d :: text, rest)
  | mode, c :: cs =>
    if mode ≠ .text ∧ isBlank c then basicBlock mode cs
    else if mode ≠ .text ∧ c = '\n' then basicBlock (.gap true) cs
    else if mode = .gap false then none
    else if c = '\\' then basicBlock (.escape .start) cs
    else
      match blockEnd? '"' (c :: cs) with
      | some ending => some ending
      | none =>
        if isPlain c ∨ c = '\n' then (basicBlock .text cs).map fun (text, rest) => (c :: text, rest)
        else none

/-- A block in single quotes, after the opening ones. -/
def literalBlock : List Char → Option (List Char × List Char)
  | [] => none
  | c :: cs =>
    match blockEnd? '\'' (c :: cs) with
    | some ending => some ending
    | none =>
      if isPlain c ∨ c = '\n' then (literalBlock cs).map fun (text, rest) => (c :: text, rest)
      else none

/-- A line break right after the opening marks of a block does not belong to it. -/
def skipBreak : List Char → List Char
  | '\n' :: cs => cs
  | cs => cs

def line : Reader String := fun cs =>
  let body :=
    match cs with
    | '"' :: cs => basicLine none cs
    | '\'' :: cs => literalLine cs
    | _ => none
  body.map fun (text, rest) => (String.ofList text, rest)

def text : Reader String := fun cs =>
  let body :=
    match cs with
    | '"' :: '"' :: '"' :: cs => basicBlock .text (skipBreak cs)
    | '"' :: cs => basicLine none cs
    | '\'' :: '\'' :: '\'' :: cs => literalBlock (skipBreak cs)
    | '\'' :: cs => literalLine cs
    | _ => none
  body.map fun (text, rest) => (String.ofList text, rest)

end ListScript.Toml.Quoted
