import ListScript.ParseError
import ListScript.Variable

/-!
# Vocabularies

A vocabulary numbers, from zero and without gaps, the tokens that programs and states with a limited number of
variables are made of: three reserved marks, the punctuation, the input mark, the operations, the lambdas, the
variables and the integers within the bound. The one token that is both a lambda and an integer is numbered
once, among the lambdas.
-/
namespace ListScript

structure Vocabulary where
  maxVariables : Nat
  /-- All tokens, in the order of their numbers. -/
  tokens : List String
  deriving DecidableEq, Repr

namespace Vocabulary

def defaultMaxVariables : Nat := 20

/-- Marks that no program or state contains: padding, beginning and end. -/
def reserved : List String := ["<pad>", "<bos>", "<eos>"]

def grammar : List String :=
  [Token.listOpen, Token.listClose, Token.comma, Token.bar, Token.assign, Token.input]

/-- The integers within the bound, ascending. -/
def integers : List Int := (List.range (2 * bound + 1)).map fun (i : Nat) => (i : Int) - bound

/-- The tokens in front of the variables. -/
def fixedTokens : List String :=
  reserved ++ grammar ++ Operation.all.map Operation.token ++ Lambda.all.map Lambda.token

/-- The tokens in front of the integers. -/
def leadingTokens (n : Nat) : List String := fixedTokens ++ (List.range n).map Variable.token

/-- A token comes in at the end, unless it is there already. -/
def addMissing (tokens : List String) (token : String) : List String :=
  if token ∈ tokens then tokens else tokens ++ [token]

/-- The vocabulary of the programs and states with at most the given number of variables. -/
def ofMaxVariables (n : Nat) : Vocabulary :=
  ⟨n, (integers.map Decimal.ofInt).foldl addMissing (leadingTokens n)⟩

def size (v : Vocabulary) : Nat := v.tokens.length

def isEmpty (v : Vocabulary) : Bool := v.tokens.isEmpty

/-- Each token with its number, which is a 32-bit word. An entry stands in front of the earlier ones. -/
def entries (v : Vocabulary) : List (String × Nat) :=
  (v.tokens.mapIdx fun id token => (token, id % UInt32.size)).reverse

/-- The number of a token, from the last entry that was made for it. -/
def id? (v : Vocabulary) (token : String) : Option Nat := v.entries.lookup token

def token? (v : Vocabulary) (id : Nat) : Option String := v.tokens[id]?

def idOfToken (v : Vocabulary) (token : String) : Except ParseError Nat :=
  match v.id? token with
  | some id => .ok id
  | none => .error (.unknownToken token)

def tokenOfId (v : Vocabulary) (id : Nat) : Except ParseError String :=
  match v.token? id with
  | some token => .ok token
  | none => .error (.unknownTokenId id)

/-- The numbers of tokens, or the first token that has none. -/
def encode (v : Vocabulary) (tokens : List String) : Except ParseError (List Nat) := tokens.mapM v.idOfToken

/-- The tokens of numbers, or the first number that has none. -/
def decode (v : Vocabulary) (ids : List Nat) : Except ParseError (List String) := ids.mapM v.tokenOfId

end Vocabulary

end ListScript
