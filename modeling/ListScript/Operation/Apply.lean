import ListScript.Config
import ListScript.Lambda.Meaning
import ListScript.Outcome
import ListScript.Value

/-!
# Applying operations

An operation is applied in three steps. The arguments are matched against the slots of the operation, which
yields typed operands or the fault of the first slot that does not match. The operands determine the result, if
the operation has one on them. A result that is not valid counts as missing.
-/
namespace ListScript

/-- What an operation is called on. -/
inductive Argument where
  | lambda (l : Lambda)
  | value (v : Value)
  deriving DecidableEq, Repr

def Argument.slot : Argument → Slot
  | .lambda l => .lambda l.lambdaClass
  | .value v => .value v.kind

/-- What fills a slot of a class of lambdas. -/
abbrev LambdaClass.Operand : LambdaClass → Type
  | .intToInt => Int → Int
  | .intToBool => Int → Bool
  | .intIntToInt => Int → Int → Int

/-- What fills a slot for values of a kind. -/
abbrev Kind.Operand : Kind → Type
  | .int => Int64
  | .list => List Int64

abbrev Slot.Operand : Slot → Type
  | .lambda c => c.Operand
  | .value k => k.Operand

abbrev Operands : List Slot → Type
  | [] => Unit
  | slot :: slots => slot.Operand × Operands slots

/-- The operand that an argument makes for a slot, if it fits. -/
def Slot.operand? : (slot : Slot) → Argument → Option slot.Operand
  | .lambda .intToInt, .lambda l => l.unary?
  | .lambda .intToBool, .lambda l => l.predicate?
  | .lambda .intIntToInt, .lambda l => l.binary?
  | .value .int, .value v => v.int?
  | .value .list, .value v => v.list?
  | .lambda _, .value _ => none
  | .value _, .lambda _ => none

namespace Operation

/-- Matches arguments with slots from a position on. -/
def operandsFrom (op : Operation) :
    (position : Nat) → (slots : List Slot) → (args : List Argument) → args.length = slots.length →
      Except RunError (Operands slots)
  | _, [], [], _ => .ok ()
  | position, slot :: slots, arg :: args, h => do
    match slot.operand? arg with
    | none => .error (.argumentType op position slot arg.slot)
    | some x => return (x, ← op.operandsFrom (position + 1) slots args (Nat.succ.inj h))

def operands (op : Operation) (args : List Argument) : Except RunError (Operands op.slots) :=
  if h : args.length = op.arity then op.operandsFrom 0 op.slots args h
  else .error (.argumentCount op op.arity args.length)

/-- Where a list of a given length is cut: counted from the start, or from the end when negative, and never
outside the list. -/
def cutIndex (n : Int64) (length : Nat) : Nat :=
  if n < 0 then ((length : Int) + n.toInt).toNat else Nat.min n.toInt.toNat length

def exactAdd (a b : Int64) : Option Int64 := exactInt64? (a.toInt + b.toInt)

/-- The running results of a binary function; the first element stands as it is. -/
def scan (f : Int64 → Int64 → Option Int64) : List Int64 → Option (List Int64)
  | [] => some []
  | x :: xs => (x :: ·) <$> scanFrom x xs
where
  /-- The results after the one that is already there. -/
  scanFrom (acc : Int64) : List Int64 → Option (List Int64)
    | [] => some []
    | x :: xs => do
      let next ← f acc x
      return next :: (← scanFrom next xs)

/-- The result of an operation on its operands, not yet checked for bounds. -/
def result (c : Config) : (op : Operation) → Operands op.slots → Option Value
  | head, (xs, _) => .int <$> xs.head?
  | last, (xs, _) => .int <$> xs.getLast?
  | take, (n, xs, _) => some (.list (xs.take (cutIndex n xs.length)))
  | drop, (n, xs, _) => some (.list (xs.drop (cutIndex n xs.length)))
  | access, (n, xs, _) => if n < 0 then none else .int <$> xs[n.toInt.toNat]?
  | maximum, (xs, _) => .int <$> xs.max?
  | minimum, (xs, _) => .int <$> xs.min?
  | reverse, (xs, _) => some (.list xs.reverse)
  | sort, (xs, _) => some (.list (xs.mergeSort (· ≤ ·)))
  | sum, (xs, _) => .int <$> xs.foldlM exactAdd 0
  | map, (f, xs, _) => .list <$> xs.mapM fun x => c.narrow? (f x.toInt)
  | filter, (p, xs, _) => some (.list (xs.filter fun x => p x.toInt))
  | count, (p, xs, _) => .int <$> exactInt64? (xs.countP fun x => p x.toInt)
  | zipWith, (f, xs, ys, _) => .list <$> (xs.zip ys).mapM fun (x, y) => c.narrow? (f x.toInt y.toInt)
  | scanl1, (f, xs, _) => .list <$> scan (fun acc x => c.narrow? (f acc.toInt x.toInt)) xs

/-- The result of an operation on operands, provided that it is valid. -/
def validResult (c : Config) (op : Operation) (xs : Operands op.slots) : Outcome Value :=
  .ofOption ((op.result c xs).filter Value.isValid)

def apply (c : Config) (op : Operation) (args : List Argument) : Outcome Value := do
  let xs ← Outcome.ofExcept (op.operands args)
  op.validResult c xs

end Operation

end ListScript
