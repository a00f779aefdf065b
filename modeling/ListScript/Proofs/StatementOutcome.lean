import ListScript.Proofs.Placement

/-!
# Outcomes of one statement

A statement that sets another variable than the next one, names an undefined variable, or names one of another kind than the
slot asks for leads to a fault, and no other statement does. As a statement has the lambda and the number of arguments that
its operation asks for, no fault is about these. Without a fault, a statement has no result or adds one value to the state.
-/
namespace ListScript
open Reading

namespace Statement

variable {s : Statement}

/-- The argument at a position holds a value of another kind than its slot asks for. Slots are counted with the lambda. -/
def Misfits (s : Statement) (values : List Value) (i : Nat) : Prop :=
  ∃ arg v kind, s.args[i]? = some arg ∧ values[arg.toNat]? = some v ∧
    s.operation.slots[s.lambda.toList.length + i]? = some (.value kind) ∧ v.kind ≠ kind

/-- After the lambda, the slots of an operation ask for values. -/
theorem getElem?_slots (s : Statement) (i : Nat) :
    s.operation.slots[s.lambda.toList.length + i]? = s.operation.valueKinds[i]?.map Slot.value := by
  have hlen : s.lambda.toList.length = (s.operation.lambdaClass?.toList.map Slot.lambda).length := by
    rw [List.length_map,length_lambda]
  rw [Operation.slots_eq,hlen,List.getElem?_append_right (Nat.le_add_right _ i),Nat.add_sub_cancel_left,
    List.getElem?_map]

/-- When all arguments are defined, the entry that is selected for one is the entry at its index. -/
theorem getElem?_select {α : Type} {xs : List α} (h : ∀ arg ∈ s.args, arg.toNat < xs.length) (i : Nat) :
    (s.select xs)[i]? = s.args[i]?.bind fun arg => xs[arg.toNat]? := by
  rw [select]
  generalize s.args = args at h ⊢
  induction args generalizing i with
  | nil => rfl
  | cons arg args ih =>
    have harg := List.getElem?_eq_getElem (h arg List.mem_cons_self)
    rw [List.filterMap_cons,harg]
    cases i with
    | zero => exact harg.symm
    | succ i => exact ih i fun a ha => h a (List.mem_cons_of_mem arg ha)

/-- Among defined arguments, one misfits where the selected kinds differ from those that the slots ask for. -/
theorem misfits_iff {values : List Value} (h : ∀ arg ∈ s.args, arg.toNat < values.length) {i : Nat} :
    s.Misfits values i ↔ ∃ got kind, (s.select (values.map Value.kind))[i]? = some got ∧
      s.operation.valueKinds[i]? = some kind ∧ got ≠ kind := by
  rw [Misfits,getElem?_slots,select_map,List.getElem?_map,getElem?_select h]
  constructor
  · rintro ⟨arg,v,kind,harg,hv,hkind,hne⟩
    obtain ⟨k,hk,hslot⟩ := Option.map_eq_some_iff.mp hkind
    obtain rfl := Slot.value.inj hslot
    exact ⟨v.kind,k,by rw [harg,Option.bind_some,hv]; rfl,hk,hne⟩
  · rintro ⟨got,kind,hgot,hkind,hne⟩
    obtain ⟨v,hv,rfl⟩ := Option.map_eq_some_iff.mp hgot
    obtain ⟨arg,harg,hv⟩ := Option.bind_eq_some_iff.mp hv
    exact ⟨arg,v,kind,harg,hv,by rw [hkind]; rfl,hne⟩

/-- What keeps a statement from being well placed in a state. -/
theorem not_wellPlaced_iff {state : State} : ¬ s.WellPlaced state.kinds ↔ s.lhs.toNat ≠ state.length ∨
    (∃ arg ∈ s.args, state.length ≤ arg.toNat) ∨ ∃ i, s.Misfits state.values i := by
  constructor
  · intro h
    by_cases hlhs : s.lhs.toNat = state.length
    · right
      by_cases hdef : ∀ arg ∈ s.args, arg.toNat < state.length
      · right
        have hlen : (s.select state.kinds).length = s.operation.valueKinds.length := length_select (by simpa using hdef)
        have hfits : s.select state.kinds ≠ s.operation.valueKinds :=
          fun hfits => h ⟨by simpa using hlhs,by simpa using hdef,hfits⟩
        obtain ⟨before,got,rest,kind,rest',hgot,hkind,hne⟩ := exists_first_ne hlen hfits
        rw [State.kinds] at hgot
        exact ⟨before.length,(misfits_iff hdef).mpr ⟨got,kind,by simp [hgot],by simp [hkind],hne⟩⟩
      · left
        obtain ⟨before,arg,after,hargs,-,harg⟩ := exists_first_not hdef
        exact ⟨arg,by simp [hargs],Nat.not_lt.mp harg⟩
    · exact Or.inl hlhs
  · rintro (hlhs | ⟨arg,harg,hle⟩ | ⟨i,hi⟩) h
    · exact hlhs (by simpa using h.lhs)
    · have := h.defined arg harg
      rw [State.length_kinds] at this
      omega
    · have hdef : ∀ arg ∈ s.args, arg.toNat < state.length := by simpa using h.defined
      obtain ⟨got,kind,hgot,hkind,hne⟩ := (misfits_iff hdef).mp hi
      rw [← State.kinds,h.fits,hkind] at hgot
      exact hne (Option.some.inj hgot).symm

end Statement

namespace State

variable {c : Config} {state : State} {s : Statement}

/-- The faults of a statement in a state are those of its misplacement, each for its own reason. -/
theorem step_eq_fault_iff {e : RunError} : state.step c s = .fault e ↔ s.Misplaced state.kinds e := by
  constructor
  · intro h
    have hs : ¬ s.WellPlaced state.kinds := fun hs => step_ne_fault hs e h
    obtain ⟨e',he'⟩ := (Statement.wellPlaced_or_misplaced state.kinds s).resolve_left hs
    have heq : Outcome.fault e = .fault e' := h.symm.trans (step_of_misplaced he')
    cases heq
    exact he'
  · exact step_of_misplaced

theorem exists_step_eq_fault_iff : (∃ e, state.step c s = .fault e) ↔ ¬ s.WellPlaced state.kinds := by
  constructor
  · rintro ⟨e,he⟩ hs
    exact step_ne_fault hs e he
  · intro hs
    obtain ⟨e,he⟩ := (Statement.wellPlaced_or_misplaced state.kinds s).resolve_left hs
    exact ⟨e,step_of_misplaced he⟩

/-- What comes of a statement in a state. It leads to a fault exactly if it does not set the next variable, or an argument is
not defined, or one misfits its slot. The first of these reasons decides which fault it is, and among arguments the first of
them: the fault is about the variable that is set, whatever else is wrong, or else about the first undefined argument, or
else about the first slot whose argument is of another kind. It is never about the number of arguments, the class of the
lambda or the number of inputs. Without a fault there is no result, or else the state with one value more, which is valid
and of the kind that the operation announces. -/
theorem step_outcomes (c : Config) (state : State) (s : Statement) :
    ((∃ e, state.step c s = .fault e) ↔ s.lhs.toNat ≠ state.length ∨
      (∃ arg ∈ s.args, state.length ≤ arg.toNat) ∨ ∃ i, s.Misfits state.values i) ∧
    (∀ e, state.step c s = .fault e ↔ s.Misplaced state.kinds e) ∧
    (∀ e, state.step c s = .fault e → (∀ op m n, e ≠ .argumentCount op m n) ∧ (∀ l k, e ≠ .lambdaClass l k) ∧
      ∀ m n, e ≠ .inputCount m n) ∧
    ((∀ e, state.step c s ≠ .fault e) → state.step c s = .undefined ∨
      ∃ v, state.step c s = .done (state.push v) ∧ v.isValid = true ∧ v.kind = s.operation.output) := by
  refine ⟨exists_step_eq_fault_iff.trans Statement.not_wellPlaced_iff,fun e => step_eq_fault_iff,?_,?_⟩
  · intro e he
    cases step_eq_fault_iff.mp he <;> simp
  · intro hno
    cases h : state.step c s with
    | fault e => exact absurd h (hno e)
    | undefined => exact Or.inl rfl
    | done next =>
      obtain ⟨v,rfl,-,-,hv⟩ := step_eq_done_iff.mp h
      exact Or.inr ⟨v,rfl,Operation.apply_done hv⟩

end State
end ListScript
