/-!
# Groups of tokens

A list cut at every occurrence of a separator. The empty list has no group; a separator at an end, or next
to another one, makes an empty group.
-/
namespace ListScript.Token

variable {α : Type}

/-- Puts the separator between consecutive groups. -/
def joinGroups (separator : α) (groups : List (List α)) : List α := [separator].intercalate groups

/-- Cuts a list at each separator. -/
def splitGroups [DecidableEq α] (separator : α) : List α → List (List α)
  | [] => []
  | items => items.splitOn separator

@[simp] theorem splitGroups_nil [DecidableEq α] (separator : α) : splitGroups separator [] = [] := rfl

/-- Nothing is lost: joining the groups of a list gives the list back. -/
theorem joinGroups_splitGroups [DecidableEq α] (separator : α) (items : List α) :
    joinGroups separator (splitGroups separator items) = items := by
  cases items with
  | nil => rfl
  | cons a rest => exact List.intercalate_splitOn separator

end ListScript.Token
