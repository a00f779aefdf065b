import ListScript.Lambda
import ListScript.Operation
import ListScript.Text.Decimal

/-!
# Faults of a run

Why a program, a statement or a call of an operation is malformed, and the message for each cause.
-/
namespace ListScript

inductive RunError where
  | lhsIndex (expected got : Nat)
  | undefinedVariable (index length : Nat)
  | inputCount (expected got : Nat)
  | argumentCount (operation : Operation) (expected got : Nat)
  | argumentType (operation : Operation) (position : Nat) (expected got : Slot)
  | lambdaClass (lambda : Lambda) (expected : LambdaClass)
  deriving DecidableEq, Repr

def RunError.message : RunError → String
  | lhsIndex expected got =>
    "statement assigns x" ++ Decimal.ofNat got ++ " but the next variable is x" ++ Decimal.ofNat expected
  | undefinedVariable index length =>
    "variable x" ++ Decimal.ofNat index ++ " is not defined (state holds " ++ Decimal.ofNat length ++
      " variables)"
  | inputCount expected got =>
    "program declares " ++ Decimal.ofNat expected ++ " inputs, got " ++ Decimal.ofNat got
  | argumentCount op expected got =>
    "invalid argument count for " ++ op.token ++ ": expected " ++ Decimal.ofNat expected ++ ", got " ++
      Decimal.ofNat got
  | argumentType op position expected got =>
    "invalid argument type for " ++ op.token ++ " at position " ++ Decimal.ofNat position ++
      ": expected " ++ expected.text ++ ", got " ++ got.text
  | lambdaClass l expected =>
    "lambda " ++ l.token ++ " is " ++ l.lambdaClass.text ++ ", expected " ++ expected.text

end ListScript
