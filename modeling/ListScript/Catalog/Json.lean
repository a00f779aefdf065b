import ListScript.Catalog
import ListScript.Json

/-!
# Catalogs as JSON

Entries are objects with their fields in a fixed order.
-/
namespace ListScript

def OperationEntry.toJson (e : OperationEntry) : Json :=
  .object [("token", .text e.token), ("higher_order", .boolean e.higherOrder),
    ("params", .array (e.params.map .text)), ("output", .text e.output.text)]

def LambdaEntry.toJson (e : LambdaEntry) : Json :=
  .object [("token", .text e.token), ("inputs", .array (e.inputs.map fun s => .text s.text)),
    ("output", .text e.output.text)]

namespace Catalog

def toJson (c : Catalog) : Json :=
  .object [("operation", .array (c.operations.map OperationEntry.toJson)),
    ("lambda", .array (c.lambdas.map LambdaEntry.toJson))]

def jsonText (c : Catalog) : String := c.toJson.pretty

end Catalog

end ListScript
