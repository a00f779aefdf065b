import ListScript.Lambda
import ListScript.Operation

/-!
# Catalogs

A catalog describes operations and lambdas by their tokens and signatures. The built-in catalog describes those of
the language; others can be read from a document, and may describe the same token more than once.
-/
namespace ListScript

structure OperationEntry where
  token : String
  /-- Whether the first parameter is a lambda. -/
  higherOrder : Bool
  /-- What the parameters are, as text. -/
  params : List String
  output : Kind
  deriving DecidableEq, Repr

structure LambdaEntry where
  token : String
  inputs : List Scalar
  output : Scalar
  deriving DecidableEq, Repr

structure Catalog where
  operations : List OperationEntry
  lambdas : List LambdaEntry
  deriving DecidableEq, Repr

def Operation.entry (op : Operation) : OperationEntry where
  token := op.token
  higherOrder := op.isHigherOrder
  params := op.slots.map Slot.text
  output := op.output

def Lambda.entry (l : Lambda) : LambdaEntry where
  token := l.token
  inputs := l.lambdaClass.inputs
  output := l.lambdaClass.output

namespace Catalog

def builtin : Catalog := ⟨Operation.all.map Operation.entry, Lambda.all.map Lambda.entry⟩

/-- The first description of an operation with a given token. -/
def operation? (c : Catalog) (token : String) : Option OperationEntry :=
  c.operations.find? fun e => e.token = token

/-- The first description of a lambda with a given token. -/
def lambda? (c : Catalog) (token : String) : Option LambdaEntry :=
  c.lambdas.find? fun e => e.token = token

end Catalog

end ListScript
