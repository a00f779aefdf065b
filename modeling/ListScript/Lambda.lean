import ListScript.Signature

/-!
# Lambdas

The closed set of functions that a higher-order operation can be given, each with its token, its identifier
in stored data and its class.
-/
namespace ListScript

inductive Lambda where
  | plusOne
  | minusOne
  | timesTwo
  | divTwo
  | negate
  | square
  | timesThree
  | divThree
  | timesFour
  | divFour
  | isPositive
  | isNegative
  | isEven
  | isOdd
  | add
  | subtract
  | multiply
  | min
  | max
  deriving DecidableEq, Repr

namespace Lambda

def all : List Lambda :=
  [plusOne, minusOne, timesTwo, divTwo, negate, square, timesThree, divThree, timesFour, divFour,
    isPositive, isNegative, isEven, isOdd, add, subtract, multiply, min, max]

def token : Lambda → String
  | plusOne => "+1"
  | minusOne => "-1"
  | timesTwo => "*2"
  | divTwo => "/2"
  | negate => "*(-1)"
  | square => "**2"
  | timesThree => "*3"
  | divThree => "/3"
  | timesFour => "*4"
  | divFour => "/4"
  | isPositive => ">0"
  | isNegative => "<0"
  | isEven => "even"
  | isOdd => "odd"
  | add => "+"
  | subtract => "-"
  | multiply => "*"
  | min => "min"
  | max => "max"

/-- The identifier of the lambda in stored data. -/
def name : Lambda → String
  | plusOne => "PlusOne"
  | minusOne => "MinusOne"
  | timesTwo => "TimesTwo"
  | divTwo => "DivTwo"
  | negate => "Negate"
  | square => "Square"
  | timesThree => "TimesThree"
  | divThree => "DivThree"
  | timesFour => "TimesFour"
  | divFour => "DivFour"
  | isPositive => "IsPositive"
  | isNegative => "IsNegative"
  | isEven => "IsEven"
  | isOdd => "IsOdd"
  | add => "Add"
  | subtract => "Subtract"
  | multiply => "Multiply"
  | min => "Min"
  | max => "Max"

def lambdaClass : Lambda → LambdaClass
  | plusOne | minusOne | timesTwo | divTwo | negate | square | timesThree | divThree | timesFour
  | divFour => .intToInt
  | isPositive | isNegative | isEven | isOdd => .intToBool
  | add | subtract | multiply | min | max => .intIntToInt

def arity (l : Lambda) : Nat := l.lambdaClass.arity

/-- An arithmetic lambda answers with an integer. -/
def isArithmetic (l : Lambda) : Bool := l.lambdaClass.output = .int

def ofToken? (token : String) : Option Lambda := all.find? fun l => l.token = token

def ofName? (name : String) : Option Lambda := all.find? fun l => l.name = name

theorem mem_all (l : Lambda) : l ∈ all := by cases l <;> decide

@[simp] theorem ofToken?_token (l : Lambda) : ofToken? l.token = some l := by cases l <;> decide

/-- A token names at most one lambda, and that lambda is written with it. -/
theorem ofToken?_eq_some_iff {t : String} {l : Lambda} : ofToken? t = some l ↔ t = l.token := by
  constructor
  · intro h
    have := List.find?_some h
    simpa using (of_decide_eq_true this).symm
  · rintro rfl
    exact ofToken?_token l

end Lambda

end ListScript
