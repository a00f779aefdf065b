/-!
# Kinds and signatures

A value is an integer or a list of integers. A lambda works on single integers and answers with an integer or
a truth value. The slots of an operation ask for a lambda of one class or for a value of one kind.
-/
namespace ListScript

/-- What a lambda takes and answers. -/
inductive Scalar where
  | int
  | bool
  deriving DecidableEq, Repr

/-- What a variable holds. -/
inductive Kind where
  | int
  | list
  deriving DecidableEq, Repr

/-- The class of a lambda: what it takes and what it answers. -/
inductive LambdaClass where
  | intToInt
  | intToBool
  | intIntToInt
  deriving DecidableEq, Repr

/-- What one argument position of an operation asks for. -/
inductive Slot where
  | lambda (lambdaClass : LambdaClass)
  | value (kind : Kind)
  deriving DecidableEq, Repr

namespace Scalar

def all : List Scalar := [int, bool]

def text : Scalar → String
  | int => "int"
  | bool => "bool"

def ofText? (text : String) : Option Scalar := all.find? fun s => s.text = text

@[simp] theorem ofText?_text (s : Scalar) : ofText? s.text = some s := by cases s <;> decide

end Scalar

namespace Kind

def all : List Kind := [int, list]

def text : Kind → String
  | int => "int"
  | list => "list"

def ofText? (text : String) : Option Kind := all.find? fun k => k.text = text

@[simp] theorem ofText?_text (k : Kind) : ofText? k.text = some k := by cases k <;> decide

end Kind

namespace LambdaClass

def all : List LambdaClass := [intToInt, intToBool, intIntToInt]

def inputs : LambdaClass → List Scalar
  | intToInt => [.int]
  | intToBool => [.int]
  | intIntToInt => [.int, .int]

def output : LambdaClass → Scalar
  | intToInt => .int
  | intToBool => .bool
  | intIntToInt => .int

def arity (c : LambdaClass) : Nat := c.inputs.length

/-- The class as shown in messages and in the catalog. -/
def text : LambdaClass → String
  | intToInt => "int -> int"
  | intToBool => "int -> bool"
  | intIntToInt => "(int, int) -> int"

/-- The identifier of the class in stored data. -/
def name : LambdaClass → String
  | intToInt => "IntToInt"
  | intToBool => "IntToBool"
  | intIntToInt => "IntIntToInt"

def ofName? (name : String) : Option LambdaClass := all.find? fun c => c.name = name

end LambdaClass

def Slot.text : Slot → String
  | .lambda c => "lambda(" ++ c.text ++ ")"
  | .value k => k.text

end ListScript
