import ListScript.Lambda
import ListScript.RunError

/-!
# What lambdas compute

Lambdas work on exact integers. Division rounds down. A lambda is used through the reading that fits its class;
asking for another one is a fault.
-/
namespace ListScript

namespace Lambda

/-- The function behind a lambda, by the shape of its class. -/
inductive Meaning where
  | unary (f : Int → Int)
  | predicate (p : Int → Bool)
  | binary (f : Int → Int → Int)

def meaning : Lambda → Meaning
  | plusOne => .unary fun x => x + 1
  | minusOne => .unary fun x => x - 1
  | timesTwo => .unary fun x => x * 2
  | divTwo => .unary fun x => x / 2
  | negate => .unary fun x => -x
  | square => .unary fun x => x * x
  | timesThree => .unary fun x => x * 3
  | divThree => .unary fun x => x / 3
  | timesFour => .unary fun x => x * 4
  | divFour => .unary fun x => x / 4
  | isPositive => .predicate fun x => 0 < x
  | isNegative => .predicate fun x => x < 0
  | isEven => .predicate fun x => x % 2 = 0
  | isOdd => .predicate fun x => x % 2 ≠ 0
  | add => .binary fun x y => x + y
  | subtract => .binary fun x y => x - y
  | multiply => .binary fun x y => x * y
  | min => .binary fun x y => if x ≤ y then x else y
  | max => .binary fun x y => if x ≤ y then y else x

def unary? (l : Lambda) : Option (Int → Int) :=
  match l.meaning with
  | .unary f => some f
  | _ => none

def predicate? (l : Lambda) : Option (Int → Bool) :=
  match l.meaning with
  | .predicate p => some p
  | _ => none

def binary? (l : Lambda) : Option (Int → Int → Int) :=
  match l.meaning with
  | .binary f => some f
  | _ => none

def unary (l : Lambda) : Except RunError (Int → Int) :=
  match l.unary? with
  | some f => .ok f
  | none => .error (.lambdaClass l .intToInt)

def predicate (l : Lambda) : Except RunError (Int → Bool) :=
  match l.predicate? with
  | some p => .ok p
  | none => .error (.lambdaClass l .intToBool)

def binary (l : Lambda) : Except RunError (Int → Int → Int) :=
  match l.binary? with
  | some f => .ok f
  | none => .error (.lambdaClass l .intIntToInt)

/-- Each lambda has the meaning that its class announces. -/
theorem isSome_unary?_iff {l : Lambda} : l.unary?.isSome = true ↔ l.lambdaClass = .intToInt := by
  cases l <;> simp [unary?, meaning, Lambda.lambdaClass]

theorem isSome_predicate?_iff {l : Lambda} :
    l.predicate?.isSome = true ↔ l.lambdaClass = .intToBool := by
  cases l <;> simp [predicate?, meaning, Lambda.lambdaClass]

theorem isSome_binary?_iff {l : Lambda} :
    l.binary?.isSome = true ↔ l.lambdaClass = .intIntToInt := by
  cases l <;> simp [binary?, meaning, Lambda.lambdaClass]

end Lambda

end ListScript
