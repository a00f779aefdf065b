import ListScript.Signature

/-!
# Operations

The closed set of operations on lists, each with its token, its identifier in stored data, the slots it asks
for and the kind of its result. A lambda slot, if there is one, comes first.
-/
namespace ListScript

inductive Operation where
  | head
  | last
  | take
  | drop
  | access
  | maximum
  | minimum
  | reverse
  | sort
  | sum
  | map
  | filter
  | count
  | zipWith
  | scanl1
  deriving DecidableEq, Repr

namespace Operation

/-- The operations without a lambda slot, in catalog order. -/
def firstOrder : List Operation :=
  [head, last, take, drop, access, maximum, minimum, reverse, sort, sum]

/-- The operations with a lambda slot, in catalog order. -/
def higherOrder : List Operation := [map, filter, count, zipWith, scanl1]

def all : List Operation := firstOrder ++ higherOrder

/-- The identifier of the operation in stored data. -/
def name : Operation → String
  | head => "Head"
  | last => "Last"
  | take => "Take"
  | drop => "Drop"
  | access => "Access"
  | maximum => "Maximum"
  | minimum => "Minimum"
  | reverse => "Reverse"
  | sort => "Sort"
  | sum => "Sum"
  | map => "Map"
  | filter => "Filter"
  | count => "Count"
  | zipWith => "ZipWith"
  | scanl1 => "Scanl1"

/-- In programs an operation is written as its identifier. -/
def token (op : Operation) : String := op.name

def ofToken? (token : String) : Option Operation := all.find? fun op => op.token = token

def ofName? (name : String) : Option Operation := all.find? fun op => op.name = name

def slots : Operation → List Slot
  | head | last | maximum | minimum | reverse | sort | sum => [.value .list]
  | take | drop | access => [.value .int, .value .list]
  | map => [.lambda .intToInt, .value .list]
  | filter | count => [.lambda .intToBool, .value .list]
  | zipWith => [.lambda .intIntToInt, .value .list, .value .list]
  | scanl1 => [.lambda .intIntToInt, .value .list]

def output : Operation → Kind
  | head | last | access | maximum | minimum | sum | count => .int
  | take | drop | reverse | sort | map | filter | zipWith | scanl1 => .list

def arity (op : Operation) : Nat := op.slots.length

/-- The class of the lambda that the first slot asks for, if it asks for one. -/
def lambdaClass? (op : Operation) : Option LambdaClass :=
  match op.slots with
  | .lambda c :: _ => some c
  | _ => none

def isHigherOrder (op : Operation) : Bool := op.lambdaClass?.isSome

/-- The kinds that the value slots ask for, in order. -/
def valueKinds (op : Operation) : List Kind :=
  op.slots.filterMap fun
    | .value k => some k
    | .lambda _ => none

def variableArity (op : Operation) : Nat := op.valueKinds.length

theorem mem_all (op : Operation) : op ∈ all := by cases op <;> decide

@[simp] theorem ofToken?_token (op : Operation) : ofToken? op.token = some op := by cases op <;> decide

/-- A token names at most one operation, and that operation is written with it. -/
theorem ofToken?_eq_some_iff {t : String} {op : Operation} : ofToken? t = some op ↔ t = op.token := by
  constructor
  · intro h
    have := List.find?_some h
    simpa using (of_decide_eq_true this).symm
  · rintro rfl
    exact ofToken?_token op

/-- The slots are the lambda slot, if there is one, followed by the value slots. -/
theorem slots_eq (op : Operation) :
    op.slots = op.lambdaClass?.toList.map Slot.lambda ++ op.valueKinds.map Slot.value := by
  cases op <;> rfl

theorem arity_eq (op : Operation) : op.arity = op.lambdaClass?.toList.length + op.variableArity := by
  rw [arity,slots_eq,variableArity]
  simp

theorem arity_pos (op : Operation) : 0 < op.arity := by cases op <;> decide

end Operation

end ListScript
