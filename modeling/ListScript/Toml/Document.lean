import ListScript.Toml.Line

/-!
# TOML documents

The keys in front of the first header belong to the root, and the keys after a header to the table of that header.
-/
namespace ListScript.Toml

/-- A header with the keys under it. -/
structure Section where
  /-- Whether the header is doubled, so that the table is one among several. -/
  isElement : Bool
  path : List String
  pairs : List (List String × Value)

/-- The keys in front of the first header, and the sections. -/
def sections : List Line → List (List String × Value) × List Section
  | [] => ([], [])
  | .pair path v :: rest => ((path, v) :: (sections rest).1, (sections rest).2)
  | .table path :: rest => ([], ⟨false, path, (sections rest).1⟩ :: (sections rest).2)
  | .element path :: rest => ([], ⟨true, path, (sections rest).1⟩ :: (sections rest).2)

def Table.addSection (t : Table) (s : Section) : Option Table :=
  if s.isElement then addElement s.path s.pairs t else addTable s.path s.pairs t

/-- The root table that lines add up to. -/
def Table.ofLines (ls : List Line) : Option Table := do
  let root ← Table.addAll (sections ls).1 []
  (sections ls).2.foldlM Table.addSection root

def skipMark : List Char → List Char
  | '\ufeff' :: cs => cs
  | cs => cs

/-- The root table of a document, if the document is well formed. -/
def Table.ofText? (text : String) : Option Table :=
  let cs := unifyBreaks (skipMark text.toList)
  lines (cs.length + 1) cs >>= Table.ofLines

end ListScript.Toml
