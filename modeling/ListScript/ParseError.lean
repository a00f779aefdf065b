import ListScript.Lambda
import ListScript.Operation
import ListScript.Text.Quoted
import ListScript.Value

/-!
# Errors of reading

Why a list of tokens is not what it was read as, and the message for each cause.
-/
namespace ListScript

/-- What was still to come when the tokens ended. -/
inductive Missing where
  | value
  | listElement
  | assignment
  | operation
  | statement
  | lambda (lambdaClass : LambdaClass) (operation : Operation)
  | binding (position : Nat)
  deriving DecidableEq, Repr

inductive ParseError where
  | invalidVariable (token : String)
  | invalidInteger (token : String)
  | unknownOperation (token : String)
  | unknownLambda (operation : Operation) (token : String)
  | lambdaMismatch (operation : Operation) (expected : LambdaClass) (got : Lambda)
  | unexpectedToken (expected got : String)
  | unexpectedEnd (expected : Missing)
  | tokenCount (operation : Operation) (expected got : Nat)
  | variableOrder (expected got : Nat)
  | inputAfterStatement (position : Nat)
  | outOfBounds (value : Value)
  | unknownToken (token : String)
  | unknownTokenId (id : Nat)
  deriving DecidableEq, Repr

/-- The phrase for what is missing. -/
def Missing.text : Missing → String
  | value => "a value"
  | listElement => "a list element"
  | assignment => "an assignment"
  | operation => "an operation"
  | statement => "a statement"
  | lambda c op => "a " ++ c.text ++ " lambda for " ++ op.token
  | binding position => "a binding for x" ++ Decimal.ofNat position

def ParseError.message : ParseError → String
  | invalidVariable t => "invalid variable token: " ++ Text.quote t
  | invalidInteger t => "invalid integer token: " ++ Text.quote t
  | unknownOperation t => "unknown operation: " ++ Text.quote t
  | unknownLambda op t => "unknown lambda for " ++ op.token ++ ": " ++ Text.quote t
  | lambdaMismatch op expected got =>
    op.token ++ " needs a " ++ expected.text ++ " lambda, got " ++ got.token ++ " (" ++
      got.lambdaClass.text ++ ")"
  | unexpectedToken expected got => "expected " ++ Text.quote expected ++ ", got " ++ Text.quote got
  | unexpectedEnd expected => "unexpected end of input, expected " ++ expected.text
  | tokenCount op expected got =>
    "invalid token count for " ++ op.token ++ ": expected " ++ Decimal.ofNat expected ++ ", got " ++
      Decimal.ofNat got
  | variableOrder expected got =>
    "variable x" ++ Decimal.ofNat got ++ " defined out of order, expected x" ++ Decimal.ofNat expected
  | inputAfterStatement position =>
    "INPUT declared by statement " ++ Decimal.ofNat position ++ " after a computation statement"
  | outOfBounds v => "value out of bounds: " ++ v.text
  | unknownToken t => "token not in vocabulary: " ++ Text.quote t
  | unknownTokenId id => "token id not in vocabulary: " ++ Decimal.ofNat id

end ListScript
