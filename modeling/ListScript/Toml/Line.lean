import ListScript.Toml.Moment
import ListScript.Toml.Number
import ListScript.Toml.Quoted
import ListScript.Toml.Table

/-!
# The lines of a TOML document

A document is a list of lines: a key with its value, the header of a table, or the doubled header of one table among
several. A value may go over several lines of text. Keys have at most 79 parts, and brackets and braces are nested at
most 79 deep.
-/
namespace ListScript.Toml

open Text (Reader)

inductive Line where
  | pair (path : List String) (value : Value)
  | table (path : List String)
  | element (path : List String)

/-- The greatest number of parts of a key and of brackets within brackets. -/
def maxDepth : Nat := 79

def keyPart : Reader String := fun cs =>
  match cs with
  | '"' :: _ | '\'' :: _ => Quoted.line cs
  | _ =>
    let name := cs.takeWhile isBare
    if name.isEmpty then none else some (String.ofList name, cs.dropWhile isBare)

/-- Reads a key of at most the given number of parts, and the blanks around it. -/
def key : (parts : Nat) → Reader (List String)
  | 0, _ => none
  | parts + 1, cs => do
    let (part, rest) ← keyPart (skipBlanks cs)
    match skipBlanks rest with
    | '.' :: rest =>
      let (path, rest) ← key parts rest
      return (part :: path, rest)
    | rest => return ([part], rest)

/-- The value that a word stands for. -/
def ofWord? (word : List Char) : Option Value :=
  if word = ['t', 'r', 'u', 'e'] then some (.boolean true)
  else if word = ['f', 'a', 'l', 's', 'e'] then some (.boolean false)
  else
    match Number.integer? word with
    | some n => some (.integer n)
    | none =>
      if Number.isFloat word then some .float
      else if Moment.isMoment word then some .moment
      else none

/-- Reads a value that is a word. A date and a time of day may be two words with a space in between. -/
def word : Reader Value := fun cs =>
  let first := cs.takeWhile isWord
  let alone := (ofWord? first).map fun v => (v, cs.dropWhile isWord)
  match cs.dropWhile isWord with
  | ' ' :: rest =>
    if Moment.isDate first && Moment.isOffsetTime (rest.takeWhile isWord) then
      some (.moment, rest.dropWhile isWord)
    else alone
  | _ => alone

/-- Reads at most the given number of items of an array and its closing bracket. -/
def arrayItems (item : Reader Value) : (bound : Nat) → Reader (List Value)
  | 0, _ => none
  | bound + 1, cs =>
    match skipGap false cs with
    | ']' :: rest => some ([], rest)
    | start => do
      let (v, rest) ← item start
      match skipGap false rest with
      | ',' :: rest =>
        let (vs, rest) ← arrayItems item bound rest
        return (v :: vs, rest)
      | ']' :: rest => return ([v], rest)
      | _ => none

/-- Reads a key, its value and the blanks around them. -/
def pair (value : Reader Value) : Reader (List String × Value) := fun cs => do
  let (path, rest) ← key maxDepth cs
  match rest with
  | '=' :: rest =>
    let (v, rest) ← value (skipBlanks rest)
    return ((path, v), skipBlanks rest)
  | _ => none

/-- Reads the entries of a table in braces and the closing brace. -/
def braced (value : Reader Value) (cs : List Char) : Option (Value × List Char) :=
  match skipBlanks cs with
  | '\x7d' :: rest => some (.table .braces [], rest)
  | start => do
    let (pairs, rest) ← Text.itemsUntil '\x7d' (pair value) start.length start
    return (.table .braces (← Table.addAll pairs []), rest)

/-- Reads a value without brackets or braces. -/
def scalar : Reader Value := fun cs =>
  match cs with
  | '"' :: _ | '\'' :: _ => (Quoted.text cs).map fun (s, rest) => (.string s, rest)
  | _ => word cs

/-- Reads a value in which brackets and braces are nested at most the given number of times. -/
def value : (depth : Nat) → Reader Value
  | 0 => scalar
  | depth + 1 => fun cs =>
    match cs with
    | '[' :: cs => (arrayItems (value depth) cs.length cs).map fun (vs, rest) => (.array vs, rest)
    | '\x7b' :: cs => braced (value depth) cs
    | _ => scalar cs

/-- Reads the line at the front of a text, which begins neither with a blank nor with an empty line. -/
def line : Reader Line := fun cs =>
  match cs with
  | '[' :: '[' :: cs => do
    match ← key maxDepth cs with
    | (path, ']' :: ']' :: rest) => return (.element path, ← lineEnd? rest)
    | _ => none
  | '[' :: cs => do
    match ← key maxDepth cs with
    | (path, ']' :: rest) => return (.table path, ← lineEnd? rest)
    | _ => none
  | cs => do
    let ((path, v), rest) ← pair (value maxDepth) cs
    return (.pair path v, ← lineEnd? rest)

/-- Reads at most the given number of lines, up to the end of the text. -/
def lines : (bound : Nat) → List Char → Option (List Line)
  | 0, _ => none
  | bound + 1, cs =>
    match skipGap false cs with
    | [] => some []
    | start => do
      let (first, rest) ← line start
      return first :: (← lines bound rest)

end ListScript.Toml
