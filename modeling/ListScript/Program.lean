import ListScript.Statement

/-!
# Programs

A program declares its input variables, one line each, and then computes further variables, one statement a
line. Lines are separated by bars. Input lines must come first and number their variables in order; statements
are not compared with their line numbers when a program is read.
-/
namespace ListScript

structure Program where
  numInputs : Nat
  statements : List Statement
  deriving DecidableEq

namespace Program

def length (p : Program) : Nat := p.numInputs + p.statements.length

def isEmpty (p : Program) : Bool := p.length = 0

/-- A line of three tokens that ends in the input mark declares an input. -/
def isInputLine : List String → Bool
  | [_, _, last] => last = Token.input
  | _ => false

/-- Reads the next line of a program of which the lines before it are already read. -/
def addLine (p : Program) (line : List String) : Except ParseError Program :=
  if isInputLine line then
    if !p.statements.isEmpty then .error (.inputAfterStatement p.length)
    else do
      let (lhs, _) ← assignment line
      if lhs.toNat ≠ p.length then throw (.variableOrder p.length lhs.toNat)
      return { p with numInputs := p.numInputs + 1 }
  else do
    let s ← Statement.ofTokens line
    return { p with statements := p.statements ++ [s] }

/-- Reads a program, which has at least one line. -/
def ofTokens (tokens : List String) : Except ParseError Program :=
  match Token.splitGroups Token.bar tokens with
  | [] => .error (.unexpectedEnd .statement)
  | lines => lines.foldlM addLine ⟨0, []⟩

def ofText (text : String) : Except ParseError Program := ofTokens (Token.split text)

def inputLine (index : Nat) : List String := [Variable.token index, Token.assign, Token.input]

def lines (p : Program) : List (List String) :=
  (List.range p.numInputs).map inputLine ++ p.statements.map Statement.tokens

def tokens (p : Program) : List String := Token.joinGroups Token.bar p.lines

def text (p : Program) : String := Token.unwords p.tokens

end Program

end ListScript
