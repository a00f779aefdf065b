import ListScript.Catalog
import ListScript.Toml.Document
import ListScript.Toml.Record
import ListScript.Toml.Writing

/-!
# Catalogs as TOML

A catalog is published as a document with one table for each entry, under the doubled headers `operation` and
`lambda`. A list without entries is written as an empty array in front of the tables.
-/
namespace ListScript

namespace OperationEntry

def toFields (e : OperationEntry) : List (String × Toml.Datum) :=
  [("token", .text e.token), ("higher_order", .flag e.higherOrder), ("params", .texts e.params),
    ("output", .text e.output.text)]

def ofToml? (v : Toml.Value) : Option OperationEntry := do
  match ← v.fields? ["token", "higher_order", "params", "output"] with
  | [token, higherOrder, params, output] =>
    return {
      token := ← token.text?
      higherOrder := ← higherOrder.flag?
      params := ← (← params.items?).mapM Toml.Value.text?
      output := ← output.choice? >>= Kind.ofText? }
  | _ => none

/-- A table with the fields of an entry is read as that entry. -/
theorem ofToml?_table (origin : Toml.Origin) (e : OperationEntry) :
    ofToml? (.table origin (Toml.Table.ofFields e.toFields)) = some e := by
  have hparams := Toml.Value.mapM_map_eq_some .string Toml.Value.text? (fun _ => rfl) e.params
  simp [ofToml?, Toml.Table.ofFields, toFields, Toml.Value.fields?, Toml.Table.lookup_cons_if, Toml.Datum.value,
    Toml.Value.text?, Toml.Value.flag?, Toml.Value.items?, Toml.Value.choice?, hparams]

end OperationEntry

namespace LambdaEntry

def toFields (e : LambdaEntry) : List (String × Toml.Datum) :=
  [("token", .text e.token), ("inputs", .texts (e.inputs.map Scalar.text)), ("output", .text e.output.text)]

def scalar? (v : Toml.Value) : Option Scalar := v.choice? >>= Scalar.ofText?

def ofToml? (v : Toml.Value) : Option LambdaEntry := do
  match ← v.fields? ["token", "inputs", "output"] with
  | [token, inputs, output] =>
    return {
      token := ← token.text?
      inputs := ← (← inputs.items?).mapM scalar?
      output := ← scalar? output }
  | _ => none

theorem ofToml?_table (origin : Toml.Origin) (e : LambdaEntry) :
    ofToml? (.table origin (Toml.Table.ofFields e.toFields)) = some e := by
  have hscalar (s : Scalar) : scalar? (.string s.text) = some s := by
    simp [scalar?, Toml.Value.choice?]
  have hinputs := Toml.Value.mapM_map_eq_some (Toml.Value.string ∘ Scalar.text) scalar? hscalar e.inputs
  simp [ofToml?, Toml.Table.ofFields, toFields, Toml.Value.fields?, Toml.Table.lookup_cons_if, Toml.Datum.value,
    Toml.Value.text?, Toml.Value.items?, hscalar, hinputs]

end LambdaEntry

namespace Catalog

/-- The document in which a catalog is published. -/
def tomlText (c : Catalog) : String :=
  let void (name : String) (isEmpty : Bool) : List (String × Toml.Datum) :=
    if isEmpty then [(name, .texts [])] else []
  Toml.writeDocument
    (void "operation" c.operations.isEmpty ++ void "lambda" c.lambdas.isEmpty)
    (c.operations.map (fun e => ("operation", e.toFields)) ++
      c.lambdas.map fun e => ("lambda", e.toFields))

/-- The catalog in the root table of a document. -/
def ofTable? (t : Toml.Table) : Option Catalog := do
  return {
    operations := ← (← (← t.lookup "operation").items?).mapM OperationEntry.ofToml?
    lambdas := ← (← (← t.lookup "lambda").items?).mapM LambdaEntry.ofToml? }

/-- The catalog in a document, if there is one. -/
def ofToml? (text : String) : Option Catalog := Toml.Table.ofText? text >>= ofTable?

end Catalog

end ListScript
