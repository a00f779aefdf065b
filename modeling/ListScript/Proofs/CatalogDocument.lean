import ListScript.Catalog.Toml
import ListScript.Proofs.WrittenDocuments

/-!
# Published catalogs are read back

The document of a catalog holds a list of entries under each of two names, as tables if there are any and as an empty
array if there are none. Both are read as the entries in order.
-/
namespace ListScript.Catalog

open Toml (Datum IsName AreFields IsDocument Table)

/-! ## The document -/

theorem areFields_operation (e : OperationEntry) : AreFields e.toFields where
  isName := by simp [OperationEntry.toFields,IsName,Toml.isBare]
  nodup := by simp [OperationEntry.toFields]

theorem areFields_lambda (e : LambdaEntry) : AreFields e.toFields where
  isName := by simp [LambdaEntry.toFields,IsName,Toml.isBare]
  nodup := by simp [LambdaEntry.toFields]

/-- The root fields of a catalog's document: an empty array for each list without entries. -/
def rootFields (c : Catalog) : List (String × Datum) :=
  (if c.operations.isEmpty then [("operation",.texts [])] else []) ++
    if c.lambdas.isEmpty then [("lambda",.texts [])] else []

/-- The tables of a catalog's document, each with its header. -/
def tables (c : Catalog) : List (String × List (String × Datum)) :=
  c.operations.map (fun e => ("operation",e.toFields)) ++ c.lambdas.map fun e => ("lambda",e.toFields)

theorem tomlText_eq (c : Catalog) : c.tomlText = Toml.writeDocument c.rootFields c.tables := rfl

theorem mem_tables {c : Catalog} {table : String × List (String × Datum)} :
    table ∈ c.tables ↔ (∃ e ∈ c.operations, ("operation",e.toFields) = table) ∨
      ∃ e ∈ c.lambdas, ("lambda",e.toFields) = table := by
  rw [tables,List.mem_append,List.mem_map,List.mem_map]

theorem areFields_rootFields (c : Catalog) : AreFields c.rootFields := by
  have hname : IsName "operation" ∧ IsName "lambda" := by simp [IsName,Toml.isBare]
  unfold rootFields
  constructor <;> split <;> split <;> simp [hname]

/-- A name is not both a field of the root and a header, since only a list without entries is a field of the root. -/
theorem isDocument (c : Catalog) : IsDocument c.rootFields c.tables where
  rootFields := areFields_rootFields c
  isName table htable := by
    obtain ⟨e,-,rfl⟩ | ⟨e,-,rfl⟩ := mem_tables.mp htable <;> simp [IsName,Toml.isBare]
  not_mem_root table htable := by
    obtain ⟨e,he,rfl⟩ | ⟨e,he,rfl⟩ := mem_tables.mp htable
    · have hne : c.operations ≠ [] := List.ne_nil_of_mem he
      simp [rootFields,hne]
    · have hne : c.lambdas ≠ [] := List.ne_nil_of_mem he
      simp [rootFields,hne]
  elementFields table htable := by
    obtain ⟨e,-,rfl⟩ | ⟨e,-,rfl⟩ := mem_tables.mp htable
    · exact areFields_operation e
    · exact areFields_lambda e

/-! ## The lists of entries -/

theorem under_operation (c : Catalog) : Table.under "operation" c.tables =
    c.operations.map fun e => Table.ofFields e.toFields := by
  rw [tables,Table.under_append,Table.under_map,Table.under_map,if_pos rfl,if_neg (by decide),List.append_nil]

theorem under_lambda (c : Catalog) : Table.under "lambda" c.tables =
    c.lambdas.map fun e => Table.ofFields e.toFields := by
  rw [tables,Table.under_append,Table.under_map,Table.under_map,if_neg (by decide),if_pos rfl,List.nil_append]

theorem lookup_rootFields (c : Catalog) :
    (Table.ofFields c.rootFields).lookup "operation" = (if c.operations.isEmpty then some (.array []) else none) ∧
      (Table.ofFields c.rootFields).lookup "lambda" = if c.lambdas.isEmpty then some (.array []) else none := by
  unfold rootFields
  split <;> split <;> simp [Table.ofFields,Table.lookup_cons_if,Datum.value]

/-- A list of entries is read back, whether it is written as tables or as an empty array. -/
theorem mapM_items_written {α : Type} {root : List (String × Datum)} {elements : List (String × List (String × Datum))}
    {name : String} {entries : List α} {toFields : α → List (String × Datum)} {ofToml? : Toml.Value → Option α}
    (hroot : (Table.ofFields root).lookup name = if entries.isEmpty then some (.array []) else none)
    (hunder : Table.under name elements = entries.map fun a => Table.ofFields (toFields a))
    (hread : ∀ a, ofToml? (.table .header (Table.ofFields (toFields a))) = some a) :
    ((Table.written? root elements name).bind Toml.Value.items?).bind (·.mapM ofToml?) = some entries := by
  rw [Table.written?,hroot,hunder]
  cases entries with
  | nil => rfl
  | cons a entries =>
    have hitems := Toml.Value.mapM_map_eq_some _ ofToml? hread (a :: entries)
    simpa [Toml.Value.items?,Function.comp_def] using hitems

theorem ofTable?_eq_some {t : Table} {c : Catalog}
    (hoperations : ((t.lookup "operation").bind Toml.Value.items?).bind (·.mapM OperationEntry.ofToml?) =
      some c.operations)
    (hlambdas : ((t.lookup "lambda").bind Toml.Value.items?).bind (·.mapM LambdaEntry.ofToml?) = some c.lambdas) :
    ofTable? t = some c := by
  obtain ⟨items,hitems,hread⟩ := Option.bind_eq_some_iff.mp hoperations
  obtain ⟨v,hv,hview⟩ := Option.bind_eq_some_iff.mp hitems
  obtain ⟨items',hitems',hread'⟩ := Option.bind_eq_some_iff.mp hlambdas
  obtain ⟨v',hv',hview'⟩ := Option.bind_eq_some_iff.mp hitems'
  simp [ofTable?,hv,hview,hread,hv',hview',hread']

/-- A catalog is read back from its document, with every entry in its place, and describes each operation and each lambda
as before. -/
theorem ofToml?_tomlText (c : Catalog) :
    ofToml? c.tomlText = some c ∧
      ∀ token, (ofToml? c.tomlText).map (·.operation? token) = some (c.operation? token) ∧
        (ofToml? c.tomlText).map (·.lambda? token) = some (c.lambda? token) := by
  have hcatalog : ofToml? c.tomlText = some c := by
    obtain ⟨t,htext,ht⟩ := Table.ofText?_document c.isDocument
    have hoperations := mapM_items_written c.lookup_rootFields.1 c.under_operation (OperationEntry.ofToml?_table .header)
    have hlambdas := mapM_items_written c.lookup_rootFields.2 c.under_lambda (LambdaEntry.ofToml?_table .header)
    rw [← ht] at hoperations hlambdas
    rw [ofToml?,tomlText_eq,htext]
    exact ofTable?_eq_some hoperations hlambdas
  rw [hcatalog]
  exact ⟨rfl,fun token => ⟨rfl,rfl⟩⟩

example : (Catalog.mk [] [⟨"*\"",[.int],.bool⟩]).tomlText =
    "operation = []\n\n[[lambda]]\ntoken = '*\"'\ninputs = [\"int\"]\noutput = \"bool\"\n" := by rfl

end ListScript.Catalog
