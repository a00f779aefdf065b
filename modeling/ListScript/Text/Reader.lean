/-!
# Readers

A reader takes what it understands from the front of a text and leaves the rest. Readers are total: a reader of a
list gets a bound on the number of its items, and the length of the text is always enough.
-/
namespace ListScript.Text

/-- What was read and what is left, or nothing if the text does not begin that way. -/
abbrev Reader (α : Type) := List Char → Option (α × List Char)

/-- At most `bound` items, but at least one, with a comma between each two, up to a closing character. -/
def itemsUntil {α : Type} (close : Char) (item : Reader α) : (bound : Nat) → Reader (List α)
  | 0, _ => none
  | bound + 1, cs => do
    let (a, rest) ← item cs
    match rest with
    | [] => none
    | c :: rest =>
      if c = close then return ([a], rest)
      else if c = ',' then
        let (as, rest) ← itemsUntil close item bound rest
        return (a :: as, rest)
      else none

/-- An item at the front of the text with nothing else read is the only item before the closing character. -/
theorem itemsUntil_close {α : Type} {close : Char} {item : Reader α} {bound : Nat} {cs rest : List Char}
    {a : α} (h : item cs = some (a, close :: rest)) :
    itemsUntil close item (bound + 1) cs = some ([a], rest) := by
  simp [itemsUntil, h]

/-- An item before a comma comes in front of the items after the comma. -/
theorem itemsUntil_comma {α : Type} {close : Char} (hclose : close ≠ ',') {item : Reader α} {bound : Nat}
    {cs rest : List Char} {a : α} (h : item cs = some (a, ',' :: rest)) :
    itemsUntil close item (bound + 1) cs =
      (itemsUntil close item bound rest).map fun (as, rest) => (a :: as, rest) := by
  simp only [itemsUntil, h, Option.bind_eq_bind, Option.bind_some, if_neg hclose.symm]
  cases itemsUntil close item bound rest <;> rfl

end ListScript.Text
