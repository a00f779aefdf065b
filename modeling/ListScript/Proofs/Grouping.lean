import Mathlib.Data.List.Induction
import ListScript.Proofs.Splitting

/-!
# Groups and separators

Groups are joined one after the other, with a separator in front of each but the first, and a list is cut by going through it
once, with the complete groups and the open one at hand. What is cut is always the whole list and no group contains the
separator, so joining the groups gives the list back. Cutting gives groups back that have no separator in them, except a single
empty group, which is joined to the empty list as no group at all is.
-/
namespace ListScript.Token

variable {α : Type}

/-! ## Joining in turn -/

/-- Adds a group to those that are joined. Its number tells whether it is the first. -/
def joinNext (separator : α) (joined : List α) (group : List α × Nat) : List α :=
  (if 0 < group.2 then joined ++ [separator] else joined) ++ group.1

/-- Joins groups by adding them one after the other. -/
def joinInTurn (separator : α) (groups : List (List α)) : List α := groups.zipIdx.foldl (joinNext separator) []

theorem joinGroups_concat (separator : α) {groups : List (List α)} (h : groups ≠ []) (g : List α) :
    joinGroups separator (groups ++ [g]) = joinGroups separator groups ++ separator :: g := by
  induction groups with
  | nil => contradiction
  | cons first rest ih =>
    cases rest with
    | nil => simp [joinGroups]
    | cons second rest =>
      rw [List.cons_append,List.cons_append,joinGroups_cons_cons,joinGroups_cons_cons,← List.cons_append,
        ih (List.cons_ne_nil second rest),List.append_assoc,List.cons_append]

/-- What is added to the last group is added to what the groups are joined to. -/
theorem joinGroups_concat_append (separator : α) (groups : List (List α)) (g more : List α) :
    joinGroups separator (groups ++ [g ++ more]) = joinGroups separator (groups ++ [g]) ++ more := by
  by_cases h : groups = []
  · simp [h,joinGroups]
  · rw [joinGroups_concat separator h,joinGroups_concat separator h,List.append_assoc,List.cons_append]

theorem joinInTurn_eq (separator : α) (groups : List (List α)) :
    joinInTurn separator groups = joinGroups separator groups := by
  induction groups using List.reverseRecOn with
  | nil => rfl
  | append_singleton groups g ih =>
    rw [joinInTurn] at ih ⊢
    rw [List.zipIdx_append,List.foldl_append,ih]
    by_cases h : groups = []
    · simp [h,joinNext,joinGroups]
    · rw [joinGroups_concat separator h]
      simp [joinNext,h,List.length_pos_iff]

/-! ## Cutting in turn -/

/-- How far a list is cut: the groups that are complete and the one that is still open. -/
structure Cut (α : Type) where
  complete : List (List α)
  current : List α

namespace Cut

def start : Cut α := ⟨[],[]⟩

def groups (c : Cut α) : List (List α) := c.complete ++ [c.current]

/-- A separator completes the open group and opens the next one, and any other item belongs to the open group. -/
def next [DecidableEq α] (separator : α) (c : Cut α) (a : α) : Cut α :=
  if a = separator then ⟨c.complete ++ [c.current],[]⟩ else ⟨c.complete,c.current ++ [a]⟩

theorem forall_mem_groups {c : Cut α} {p : List α → Prop} :
    (∀ g ∈ c.groups, p g) ↔ (∀ g ∈ c.complete, p g) ∧ p c.current := by
  rw [groups,List.forall_mem_append,List.forall_mem_singleton]

/-- What is cut so far, whatever comes next: the groups are joined to it, and no separator is left in them. -/
structure IsCutOf (separator : α) (c : Cut α) (items : List α) : Prop where
  joined : joinGroups separator c.groups = items
  free : ∀ g ∈ c.groups, separator ∉ g

theorem isCutOf_start (separator : α) : IsCutOf separator start [] := ⟨rfl,by simp [start,groups]⟩

variable [DecidableEq α] {separator : α} {c : Cut α} {items : List α}

/-- One more item is cut. -/
theorem IsCutOf.next (h : IsCutOf separator c items) (a : α) : IsCutOf separator (c.next separator a) (items ++ [a]) := by
  obtain ⟨hcomplete,hcurrent⟩ := forall_mem_groups.mp h.free
  rw [Cut.next]
  split
  case isTrue ha =>
    constructor
    · rw [groups,joinGroups_concat separator (by simp),← groups,h.joined,ha]
    · exact forall_mem_groups.mpr ⟨h.free,List.not_mem_nil⟩
  case isFalse ha =>
    constructor
    · rw [← h.joined]
      exact joinGroups_concat_append separator c.complete c.current [a]
    · refine forall_mem_groups.mpr ⟨hcomplete,?_⟩
      rw [List.mem_append,List.mem_singleton,not_or]
      exact ⟨hcurrent,Ne.symm ha⟩

theorem IsCutOf.foldl (h : IsCutOf separator c items) (rest : List α) :
    IsCutOf separator (rest.foldl (Cut.next separator) c) (items ++ rest) := by
  induction rest generalizing c items with
  | nil => simpa using h
  | cons a rest ih => simpa using ih (h.next a)

end Cut

variable [DecidableEq α]

/-- Cuts a list by going through it. The empty list has no group. -/
def cutInTurn (separator : α) : List α → List (List α)
  | [] => []
  | items => (items.foldl (Cut.next separator) .start).groups

/-- Cutting a list loses nothing, leaves no separator in a group and never makes a single empty group. -/
theorem cutInTurn_spec (separator : α) (items : List α) :
    joinGroups separator (cutInTurn separator items) = items ∧ cutInTurn separator items ≠ [[]] ∧
      ∀ g ∈ cutInTurn separator items, separator ∉ g := by
  unfold cutInTurn
  split
  case h_1 => exact ⟨rfl,by simp,by simp⟩
  case h_2 hne =>
    have h := (Cut.isCutOf_start separator).foldl items
    refine ⟨h.joined,?_,h.free⟩
    intro hsingle
    have hjoined := h.joined
    rw [hsingle] at hjoined
    exact hne hjoined.symm

theorem splitGroups_eq_cutInTurn (separator : α) (items : List α) :
    splitGroups separator items = cutInTurn separator items := by
  obtain ⟨hjoined,hne,hfree⟩ := cutInTurn_spec separator items
  calc
    splitGroups separator items = splitGroups separator (joinGroups separator (cutInTurn separator items)) := by rw [hjoined]
    _ = cutInTurn separator items := splitGroups_joinGroups hne hfree

/-- Cutting at a separator and joining with it are inverse to each other. Joining the groups of any list gives the list back.
Cutting what groups are joined to gives the groups back exactly if no group contains the separator and the groups are not a
single empty one; groups may be empty anywhere else, and there may be none. Cutting and joining are done in one pass: cutting
keeps the complete groups and the open one, and joining puts a separator in front of each group but the first. -/
theorem cutting_inverts_joining (separator : α) :
    (∀ items : List α, joinGroups separator (splitGroups separator items) = items) ∧
    (∀ groups : List (List α), splitGroups separator (joinGroups separator groups) = groups ↔
      groups ≠ [[]] ∧ ∀ g ∈ groups, separator ∉ g) ∧
    (∀ items : List α, splitGroups separator items = cutInTurn separator items) ∧
    ∀ groups : List (List α), joinGroups separator groups = joinInTurn separator groups := by
  refine ⟨joinGroups_splitGroups separator,?_,splitGroups_eq_cutInTurn separator,?_⟩
  · intro groups
    constructor
    · intro h
      rw [← h,splitGroups_eq_cutInTurn]
      exact (cutInTurn_spec separator _).2
    · intro ⟨hne,hfree⟩
      exact splitGroups_joinGroups hne hfree
  · intro groups
    exact (joinInTurn_eq separator groups).symm

/-- Separators at both ends and next to each other make empty groups. -/
example : splitGroups "|" ["|","a","|","|","b","|"] = [[],["a"],[],["b"],[]] := by decide

end ListScript.Token
