import ListScript.RunError

/-!
# Outcomes

A run ends in one of three ways: with a fault, because the program or the call is malformed; without a result,
because the program is fine but undefined on these inputs; or with a result.
-/
namespace ListScript

inductive Outcome (α : Type) where
  | fault (error : RunError)
  | undefined
  | done (result : α)
  deriving DecidableEq, Repr

namespace Outcome

variable {α β : Type}

def bind : Outcome α → (α → Outcome β) → Outcome β
  | fault e, _ => fault e
  | undefined, _ => undefined
  | done a, next => next a

instance : Monad Outcome where
  pure := done
  bind := bind

def ofOption : Option α → Outcome α
  | none => undefined
  | some a => done a

def ofExcept : Except RunError α → Outcome α
  | .error e => fault e
  | .ok a => done a

/-- The outcome as an error or a possibly missing result. -/
def toExcept : Outcome α → Except RunError (Option α)
  | fault e => .error e
  | undefined => .ok none
  | done a => .ok (some a)

@[simp] theorem pure_eq (a : α) : (pure a : Outcome α) = done a := rfl
@[simp] theorem fault_bind (e : RunError) (f : α → Outcome β) : (fault e >>= f) = fault e := rfl
@[simp] theorem undefined_bind (f : α → Outcome β) : (undefined >>= f) = undefined := rfl
@[simp] theorem done_bind (a : α) (f : α → Outcome β) : (done a >>= f) = f a := rfl

instance : LawfulMonad Outcome := LawfulMonad.mk' Outcome
  (fun x => by cases x <;> rfl)
  (fun _ _ => rfl)
  (fun x _ _ => by cases x <;> rfl)

/-- Two steps have a result exactly when the first has one from which the second has one. -/
theorem bind_eq_done_iff {x : Outcome α} {f : α → Outcome β} {b : β} :
    (x >>= f) = done b ↔ ∃ a, x = done a ∧ f a = done b := by
  cases x <;> simp

/-- A result is that of a mapped outcome exactly when it is the image of a result. -/
theorem map_eq_done_iff {x : Outcome α} {f : α → β} {b : β} :
    f <$> x = done b ↔ ∃ a, x = done a ∧ f a = b := by
  rw [map_eq_pure_bind,bind_eq_done_iff]
  simp

end Outcome

end ListScript
