import ListScript.Toml.Value

/-!
# Reading records from TOML values

The views of a value that records are read through. A list may be an array or the tables under a doubled header. A
record may be a table, in which keys that are not asked for are passed over, or an array with the fields in
order. A choice between names may be given as a text or as the only key of a table, with nothing in it.
-/
namespace ListScript.Toml.Value

def text? : Value → Option String
  | .string s => some s
  | _ => none

def flag? : Value → Option Bool
  | .boolean b => some b
  | _ => none

def integer? : Value → Option Int64
  | .integer n => some n
  | _ => none

def items? : Value → Option (List Value)
  | .array items => some items
  | .tables items => some (items.map (.table .header))
  | _ => none

/-- The values of the fields with the given names, in that order. -/
def fields? (names : List String) (v : Value) : Option (List Value) :=
  match v with
  | .table _ entries => names.mapM fun name => entries.lookup name
  | _ => do
    let items ← v.items?
    if items.length < names.length then none else some (items.take names.length)

/-- Whether a value is an array or a table and has nothing in it. -/
def isVoid : Value → Bool
  | .array items => items.isEmpty
  | .table _ entries => entries.isEmpty
  | .tables items => items.isEmpty
  | _ => false

def choice? : Value → Option String
  | .string s => some s
  | .table _ [(name, v)] => if v.isVoid then some name else none
  | _ => none

/-- A list is read back if each of its items is. -/
theorem mapM_map_eq_some {α : Type} (f : α → Value) (g : Value → Option α) (h : ∀ a, g (f a) = some a)
    (items : List α) : (items.map f).mapM g = some items := by
  induction items with
  | nil => rfl
  | cons a items ih => rw [List.map_cons, List.mapM_cons, ih, h]; rfl

end ListScript.Toml.Value
