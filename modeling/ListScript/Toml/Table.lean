import ListScript.Toml.Value

/-!
# Building TOML tables

A document is a sequence of additions to tables. A dotted key adds a value below a table and may pass only through
tables that are still open to dotted keys; a header adds a whole table and may pass through every table that is
not part of a value. A table that is passed through and does not exist yet is made on the way. Nothing is ever
replaced.
-/
namespace ListScript.Toml

namespace Table

/-- Sets a key, in its place if it has one and at the end otherwise. -/
def set (key : String) (v : Value) : Table → Table
  | [] => [(key, v)]
  | (name, old) :: t => if name = key then (key, v) :: t else (name, old) :: set key v t

/-- Looking a key up goes through the entries in order. -/
theorem lookup_cons_if (k name : String) (v : Value) (t : Table) :
    List.lookup k ((name, v) :: t) = if k = name then some v else t.lookup k := by
  by_cases h : k = name
  · simp [h]
  · simp [List.lookup_cons, beq_eq_false_iff_ne.2 h, h]

/-- A key that is set has its new value, and every other key the one it had. -/
theorem lookup_set (key k : String) (v : Value) (t : Table) :
    (set key v t).lookup k = if k = key then some v else t.lookup k := by
  induction t with
  | nil => exact lookup_cons_if k key v []
  | cons entry t ih =>
    obtain ⟨name, old⟩ := entry
    by_cases hname : name = key
    · subst hname
      rw [set, if_pos rfl, lookup_cons_if, lookup_cons_if]
      split <;> rfl
    · rw [set, if_neg hname, lookup_cons_if, lookup_cons_if, ih]
      by_cases hk : k = name
      · rw [if_pos hk, if_pos hk, if_neg (hk ▸ hname)]
      · rw [if_neg hk, if_neg hk]

def changeLast (change : Table → Option Table) (items : List Table) : Option (List Table) := do
  let last ← items.getLast?
  return items.dropLast ++ [← change last]

/-- Adds a value under a key that may be dotted. The last table that the key passes through must have come about by
dotted keys. -/
def add (v : Value) : (path : List String) → Table → Option Table
  | [], _ => none
  | [key], t =>
    match t.lookup key with
    | none => some (set key v t)
    | some _ => none
  | key :: next :: path, t =>
    match t.lookup key with
    | none => do return set key (.table .dotted (← add v (next :: path) [])) t
    | some (.table origin sub) =>
      if origin = .dotted ∨ origin.isOpen ∧ path ≠ [] then do
        return set key (.table origin (← add v (next :: path) sub)) t
      else none
    | some (.tables items) =>
      if path = [] then none
      else do return set key (.tables (← changeLast (add v (next :: path)) items)) t
    | some _ => none

def addAll (pairs : List (List String × Value)) (t : Table) : Option Table :=
  pairs.foldlM (fun t (path, v) => add v path t) t

/-- Changes the table that a header's last key belongs to. A table in braces is a value, which no header reaches. -/
def changeBelow (change : String → Table → Option Table) : (path : List String) → Table → Option Table
  | [], _ => none
  | [key], t => change key t
  | key :: next :: path, t =>
    match t.lookup key with
    | none => do return set key (.table .parent (← changeBelow change (next :: path) [])) t
    | some (.table .braces _) => none
    | some (.table origin sub) => do
      return set key (.table origin (← changeBelow change (next :: path) sub)) t
    | some (.tables items) => do
      return set key (.tables (← changeLast (changeBelow change (next :: path)) items)) t
    | some _ => none

/-- Adds the table of a header. If it exists, then only as a parent, and what it holds is kept. -/
def addTable (path : List String) (pairs : List (List String × Value)) (t : Table) : Option Table :=
  changeBelow
    (fun key t =>
      match t.lookup key with
      | none => do return set key (.table .header (← addAll pairs [])) t
      | some (.table .parent sub) => do return set key (.table .header (← addAll pairs sub)) t
      | some _ => none)
    path t

/-- Adds the table of a doubled header, after the ones with the same header. -/
def addElement (path : List String) (pairs : List (List String × Value)) (t : Table) : Option Table :=
  changeBelow
    (fun key t =>
      match t.lookup key with
      | none => do return set key (.tables [← addAll pairs []]) t
      | some (.tables items) => do return set key (.tables (items ++ [← addAll pairs []])) t
      | some _ => none)
    path t

end Table

end ListScript.Toml
