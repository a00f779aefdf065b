import ListScript.ParseError
import ListScript.Variable

/-!
# Statements

A statement sets a variable to the result of an operation on other variables. It is well formed by
construction: its lambda is of the class that the operation asks for, and it names one variable for each value
slot. Whether the variables exist is a matter of the state in which it is run.
-/
namespace ListScript

structure Statement where
  /-- The index of the variable that is set. -/
  lhs : UInt64
  operation : Operation
  lambda : Option Lambda
  /-- The indices of the variables that fill the value slots. -/
  args : List UInt64
  lambda_fits : lambda.map Lambda.lambdaClass = operation.lambdaClass?
  args_fit : args.length = operation.variableArity
  deriving DecidableEq

/-- Reads `x<i> =` and leaves the tokens after it. -/
def assignment : List String → Except ParseError (UInt64 × List String)
  | lhs :: sign :: rest => do
    let index ← Variable.ofToken lhs
    if sign ≠ Token.assign then throw (.unexpectedToken Token.assign sign)
    return (index, rest)
  | _ => .error (.unexpectedEnd .assignment)

namespace Statement

theorem length_lambda (s : Statement) : s.lambda.toList.length = s.operation.lambdaClass?.toList.length := by
  rw [← s.lambda_fits]
  cases s.lambda <;> rfl

/-- The number of tokens in front of the operands. -/
def headLength : Nat := 3

/-- What is wrong with a lambda, or with having none, in a statement of an operation. -/
def lambdaError? (op : Operation) : Option Lambda → Option ParseError
  | some l =>
    match op.lambdaClass? with
    | some c => if l.lambdaClass = c then none else some (.lambdaMismatch op c l)
    | none => some (.unexpectedToken "a variable" l.token)
  | none =>
    match op.lambdaClass? with
    | some c => some (.unexpectedEnd (.lambda c op))
    | none => none

theorem lambdaError?_eq_none_iff {op : Operation} {lambda : Option Lambda} :
    lambdaError? op lambda = none ↔ lambda.map Lambda.lambdaClass = op.lambdaClass? := by
  cases lambda <;> cases h : op.lambdaClass? <;> simp [lambdaError?, h]

/-- The statement made of the given parts, unless they do not go together. The lambda is judged first. -/
def ofParts (lhs : UInt64) (op : Operation) (lambda : Option Lambda) (args : List UInt64) :
    Except ParseError Statement :=
  match h : lambdaError? op lambda with
  | some e => .error e
  | none =>
    if hargs : args.length = op.variableArity then
      .ok ⟨lhs, op, lambda, args, lambdaError?_eq_none_iff.1 h, hargs⟩
    else
      .error (.tokenCount op (headLength + op.arity)
        (headLength + lambda.toList.length + args.length))

/-- Reads the lambda among the operands of an operation and leaves the operands that name variables. -/
def lambdaOperand (op : Operation) (operands : List String) :
    Except ParseError (Option Lambda × List String) :=
  match op.lambdaClass?, operands with
  | none, names => .ok (none, names)
  | some c, [] => .error (.unexpectedEnd (.lambda c op))
  | some c, token :: names =>
    match Lambda.ofToken? token with
    | none => .error (.unknownLambda op token)
    | some l => if l.lambdaClass = c then .ok (some l, names) else .error (.lambdaMismatch op c l)

/-- Reads a statement. Its operands are counted before any of them is read. -/
def ofTokens (tokens : List String) : Except ParseError Statement := do
  let (lhs, rest) ← assignment tokens
  match rest with
  | [] => throw (.unexpectedEnd .operation)
  | opToken :: operands =>
    match Operation.ofToken? opToken with
    | none => throw (.unknownOperation opToken)
    | some op =>
      if operands.length ≠ op.arity then
        throw (.tokenCount op (headLength + op.arity) tokens.length)
      let (lambda, names) ← lambdaOperand op operands
      let args ← names.mapM Variable.ofToken
      ofParts lhs op lambda args

def ofText (text : String) : Except ParseError Statement := ofTokens (Token.split text)

def tokens (s : Statement) : List String :=
  [Variable.token s.lhs.toNat, Token.assign, s.operation.token] ++ s.lambda.toList.map Lambda.token ++
    s.args.map fun arg => Variable.token arg.toNat

def text (s : Statement) : String := Token.unwords s.tokens

end Statement

end ListScript
