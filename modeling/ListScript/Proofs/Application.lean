import ListScript.Operation.Apply
import ListScript.Proofs.Reading

/-!
# Applying operations

Arguments are matched with slots one by one, and each makes an operand for the slot that it fits. A result is valid and of
the kind that its operation announces.
-/
namespace ListScript
open Reading

/-- An argument makes an operand exactly for the slot that it fits. -/
theorem Slot.isSome_operand?_iff {slot : Slot} {arg : Argument} :
    (slot.operand? arg).isSome = true ↔ arg.slot = slot := by
  cases arg with
  | lambda l =>
    rcases slot with c | k
    · cases c
      · simpa [operand?,Argument.slot] using l.isSome_unary?_iff
      · simpa [operand?,Argument.slot] using l.isSome_predicate?_iff
      · simpa [operand?,Argument.slot] using l.isSome_binary?_iff
    · simp [operand?,Argument.slot]
  | value v =>
    rcases slot with c | k
    · cases c <;> simp [operand?,Argument.slot]
    · cases k <;> cases v <;> simp [operand?,Argument.slot,Value.int?,Value.list?,Value.kind]

theorem Slot.eq_of_operand?_int {arg : Argument} {n : Int64} (h : (Slot.value .int).operand? arg = some n) :
    arg = .value (.int n) := by
  cases arg with
  | lambda l => contradiction
  | value v =>
    cases v with
    | int m => exact congrArg (fun k => Argument.value (.int k)) (Option.some.inj h)
    | list xs => contradiction

theorem Slot.eq_of_operand?_list {arg : Argument} {xs : List Int64}
    (h : (Slot.value .list).operand? arg = some xs) : arg = .value (.list xs) := by
  cases arg with
  | lambda l => contradiction
  | value v =>
    cases v with
    | int n => contradiction
    | list ys => exact congrArg (fun zs => Argument.value (.list zs)) (Option.some.inj h)

namespace Operation

variable {c : Config} {op : Operation}

/-- Matched arguments give their operands one by one. -/
theorem operandsFrom_cons_eq_ok {position : Nat} {slot : Slot} {slots : List Slot} {args : List Argument}
    {h : args.length = (slot :: slots).length} {xs : Operands (slot :: slots)}
    (hxs : op.operandsFrom position (slot :: slots) args h = .ok xs) :
    ∃ arg rest, ∃ hrest : rest.length = slots.length, args = arg :: rest ∧ slot.operand? arg = some xs.1 ∧
      op.operandsFrom (position+1) slots rest hrest = .ok xs.2 := by
  cases args with
  | nil => contradiction
  | cons arg rest =>
    rw [operandsFrom] at hxs
    split at hxs
    case h_1 => contradiction
    case h_2 x hx =>
      obtain ⟨ys,hys,hpair⟩ := bind_eq_ok_iff.mp hxs
      cases hpair
      exact ⟨arg,rest,Nat.succ.inj h,rfl,hx,hys⟩

theorem validResult_ne_fault (xs : Operands op.slots) (e : RunError) : op.validResult c xs ≠ .fault e := by
  unfold validResult
  cases (op.result c xs).filter Value.isValid <;> simp [Outcome.ofOption]

/-- An application has a result if the arguments make operands on which the operation has a valid one. -/
theorem apply_eq_done_iff {args : List Argument} {v : Value} : op.apply c args = .done v ↔
    ∃ xs, op.operands args = .ok xs ∧ op.result c xs = some v ∧ v.isValid = true := by
  rw [apply,Outcome.bind_eq_done_iff]
  constructor
  · rintro ⟨xs,hxs,hv⟩
    refine ⟨xs,?_,?_⟩
    · cases ho : op.operands args with
      | error e => simp [ho,Outcome.ofExcept] at hxs
      | ok ys => simpa [ho,Outcome.ofExcept] using hxs
    · unfold validResult at hv
      cases hr : (op.result c xs).filter Value.isValid with
      | none => simp [hr,Outcome.ofOption] at hv
      | some w =>
        obtain rfl : w = v := by simpa [hr,Outcome.ofOption] using hv
        exact Option.filter_eq_some_iff.mp hr
  · rintro ⟨xs,hxs,hr,hv⟩
    refine ⟨xs,by rw [hxs]; rfl,?_⟩
    rw [validResult,Option.filter_eq_some_iff.mpr ⟨hr,hv⟩]
    rfl

/-- The result of an operation is of the kind that the operation announces. -/
theorem kind_result {xs : Operands op.slots} {v : Value} (h : op.result c xs = some v) : v.kind = op.output := by
  have hint : ∀ {o : Option Int64}, Value.int <$> o = some v → v.kind = .int := by
    intro o ho
    obtain ⟨n,-,rfl⟩ := Option.map_eq_some_iff.mp ho
    rfl
  have hlist : ∀ {o : Option (List Int64)}, Value.list <$> o = some v → v.kind = .list := by
    intro o ho
    obtain ⟨ns,-,rfl⟩ := Option.map_eq_some_iff.mp ho
    rfl
  cases op with
  | head | last | maximum | minimum | sum | count => exact hint h
  | map | zipWith | scanl1 => exact hlist h
  | take | drop | reverse | sort | filter => exact (Option.some.inj h) ▸ rfl
  | access =>
    have ha : (if xs.1 < 0 then none else Value.int <$> xs.2.1[xs.1.toInt.toNat]?) = some v := h
    split at ha
    · contradiction
    · exact hint ha

/-- What an application results in is valid and of the kind that the operation announces. -/
theorem apply_done {args : List Argument} {v : Value} (h : op.apply c args = .done v) :
    v.isValid = true ∧ v.kind = op.output := by
  obtain ⟨xs,-,hr,hv⟩ := apply_eq_done_iff.mp h
  exact ⟨hv,kind_result hr⟩

end Operation
end ListScript
