import ListScript.Proofs.Execution
import ListScript.Proofs.SignatureCheck

/-!
# Placement of statements

Whether a run meets a fault can be told from the kinds of its inputs alone. Each statement is judged among the kinds of
the variables before it. Statements that are well placed never lead to a fault, and the kinds of their results are
those of their operations; the first statement that is not well placed decides the fault.
-/
namespace ListScript
open Reading

def State.kinds (state : State) : List Kind := state.values.map Value.kind

namespace Statement

/-- Among variables of given kinds, a statement sets the next one, its arguments are defined, and their kinds are those
that the value slots of its operation ask for, in order. -/
structure WellPlaced (kinds : List Kind) (s : Statement) : Prop where
  lhs : s.lhs.toNat = kinds.length
  defined : ∀ arg ∈ s.args, arg.toNat < kinds.length
  fits : s.select kinds = s.operation.valueKinds

/-- The fault of a statement that is not well placed: the variable that it sets comes before its first undefined
argument, and that before the first value slot with an argument of another kind. Slots are counted with the lambda. -/
inductive Misplaced (kinds : List Kind) (s : Statement) : RunError → Prop
  | lhs (hlhs : s.lhs.toNat ≠ kinds.length) : Misplaced kinds s (.lhsIndex kinds.length s.lhs.toNat)
  | undefined {before after : List UInt64} {arg : UInt64} (hlhs : s.lhs.toNat = kinds.length)
      (hargs : s.args = before ++ arg :: after) (hbefore : ∀ a ∈ before, a.toNat < kinds.length)
      (harg : kinds.length ≤ arg.toNat) : Misplaced kinds s (.undefinedVariable arg.toNat kinds.length)
  | kind {before rest rest' : List Kind} {got expected : Kind} (hlhs : s.lhs.toNat = kinds.length)
      (hdefined : ∀ arg ∈ s.args, arg.toNat < kinds.length) (hgot : s.select kinds = before ++ got :: rest)
      (hexpected : s.operation.valueKinds = before ++ expected :: rest') (hne : got ≠ expected) :
      Misplaced kinds s (.argumentType s.operation (s.lambda.toList.length + before.length)
        (.value expected) (.value got))

/-- The kinds of the variables after some statements. -/
def kindsAfter (kinds : List Kind) (ss : List Statement) : List Kind := kinds ++ ss.map fun s => s.operation.output

/-- Each statement is well placed among the variables before it. -/
def AllPlaced : List Kind → List Statement → Prop
  | _, [] => True
  | kinds, s :: ss => s.WellPlaced kinds ∧ AllPlaced (kinds ++ [s.operation.output]) ss

@[simp] theorem kindsAfter_nil (kinds : List Kind) : kindsAfter kinds [] = kinds := by simp [kindsAfter]

@[simp] theorem kindsAfter_cons (kinds : List Kind) (s : Statement) (ss : List Statement) :
    kindsAfter kinds (s :: ss) = kindsAfter (kinds ++ [s.operation.output]) ss := by simp [kindsAfter]

theorem length_select {α : Type} {s : Statement} {xs : List α} (h : ∀ arg ∈ s.args, arg.toNat < xs.length) :
    (s.select xs).length = s.operation.variableArity := by
  rw [← s.args_fit,select]
  generalize s.args = args at h ⊢
  induction args with
  | nil => rfl
  | cons arg args ih =>
    rw [List.filterMap_cons,List.getElem?_eq_getElem (h arg (by simp))]
    simp [ih fun a ha => h a (List.mem_cons_of_mem arg ha)]

/-- A statement is well placed, or there is a fault for it. -/
theorem wellPlaced_or_misplaced (kinds : List Kind) (s : Statement) :
    s.WellPlaced kinds ∨ ∃ e, s.Misplaced kinds e := by
  by_cases hlhs : s.lhs.toNat = kinds.length
  · by_cases hdef : ∀ arg ∈ s.args, arg.toNat < kinds.length
    · by_cases hfits : s.select kinds = s.operation.valueKinds
      · exact Or.inl ⟨hlhs,hdef,hfits⟩
      · obtain ⟨before,got,rest,expected,rest',hgot,hexpected,hne⟩ := exists_first_ne (length_select hdef) hfits
        exact Or.inr ⟨_,.kind hlhs hdef hgot hexpected hne⟩
    · obtain ⟨before,arg,after,hargs,hbefore,harg⟩ := exists_first_not hdef
      exact Or.inr ⟨_,.undefined hlhs hargs hbefore (Nat.not_lt.mp harg)⟩
  · exact Or.inr ⟨_,.lhs hlhs⟩

/-- The first statement that is not well placed, if there is any. -/
theorem exists_first_misplaced {kinds : List Kind} {ss : List Statement} (h : ¬ AllPlaced kinds ss) :
    ∃ before s after, ss = before ++ s :: after ∧ AllPlaced kinds before ∧
      ¬ s.WellPlaced (kindsAfter kinds before) := by
  induction ss generalizing kinds with
  | nil => exact absurd trivial h
  | cons s ss ih =>
    by_cases hs : s.WellPlaced kinds
    · obtain ⟨before,t,after,rfl,hbefore,ht⟩ := ih fun hall => h ⟨hs,hall⟩
      exact ⟨s :: before,t,after,rfl,⟨hs,hbefore⟩,by simpa using ht⟩
    · exact ⟨[],s,ss,rfl,trivial,by simpa using hs⟩

theorem length_argumentsIn {s : Statement} {values : List Value} (h : ∀ arg ∈ s.args, arg.toNat < values.length) :
    (s.argumentsIn values).length = s.operation.arity := by
  rw [argumentsIn,List.length_append,List.length_map,List.length_map,length_select h,length_lambda,
    Operation.arity_eq]

theorem map_slot_lambda (s : Statement) : (s.lambda.toList.map Argument.lambda).map Argument.slot =
    s.operation.lambdaClass?.toList.map Slot.lambda := by
  rw [← s.lambda_fits]
  cases s.lambda <;> rfl

theorem map_slot_value (vs : List Value) :
    (vs.map Argument.value).map Argument.slot = (vs.map Value.kind).map Slot.value := by
  rw [List.map_map,List.map_map]
  rfl

end Statement

/-! ## One step -/

namespace State

open Statement

variable {c : Config} {state : State} {s : Statement}

@[simp] theorem length_kinds (state : State) : state.kinds.length = state.length := by simp [kinds,length]

@[simp] theorem kinds_push (state : State) (v : Value) : (state.push v).kinds = state.kinds ++ [v.kind] := by
  simp [kinds,push]

/-- A well placed statement does not lead to a fault. -/
theorem step_ne_fault (h : s.WellPlaced state.kinds) (e : RunError) : state.step c s ≠ .fault e := by
  have hfit : (s.argumentsIn state.values).map Argument.slot = s.operation.slots := by
    rw [argumentsIn,List.map_append,map_slot_lambda,map_slot_value,Operation.slots_eq,← h.fits,kinds,select_map]
  rw [step_eq,evaluate_of_defined (by simpa using h.lhs) (by simpa using h.defined)]
  have happly := Operation.apply_ne_fault (c := c) hfit
  cases hv : s.operation.apply c (s.argumentsIn state.values) with
  | fault e' => exact absurd hv (happly e')
  | undefined => simp
  | done v => simp

/-- A step adds the kind that its operation announces. -/
theorem kinds_of_step {next : State} (h : state.step c s = .done next) :
    next.kinds = state.kinds ++ [s.operation.output] := by
  obtain ⟨v,rfl,-,-,hv⟩ := step_eq_done_iff.mp h
  rw [kinds_push,(Operation.apply_done hv).2]

/-- A statement that is not well placed leads to its fault. -/
theorem step_of_misplaced {e : RunError} (h : s.Misplaced state.kinds e) : state.step c s = .fault e := by
  rw [step_eq]
  cases h with
  | lhs hlhs =>
    rw [length_kinds] at hlhs ⊢
    rw [evaluate_of_lhs_ne hlhs,Outcome.fault_bind]
  | undefined hlhs hargs hbefore harg =>
    rw [length_kinds] at hlhs harg ⊢
    rw [evaluate_of_undefined hlhs hargs (by simpa using hbefore) harg,Outcome.fault_bind]
  | @kind before rest rest' got expected hlhs hdefined hgot hexpected hne =>
    rw [evaluate_of_defined (by simpa using hlhs) (by simpa using hdefined)]
    -- The arguments are cut where their kinds are: before `v` they fit, and `v` does not.
    rw [kinds,select_map] at hgot
    obtain ⟨vs,ws,hvs,rfl,hws⟩ := List.map_eq_append_iff.mp hgot
    obtain ⟨v,ws',rfl,rfl,rfl⟩ := List.map_eq_cons_iff.mp hws
    have hargs : s.argumentsIn state.values =
        (s.lambda.toList.map Argument.lambda ++ vs.map Argument.value) ++
          .value v :: ws'.map Argument.value := by simp [argumentsIn,hvs]
    have hlen : (s.argumentsIn state.values).length = s.operation.arity :=
      length_argumentsIn (by simpa [State.length] using hdefined)
    have hslots : s.operation.slots =
        (s.lambda.toList.map Argument.lambda ++ vs.map Argument.value).map Argument.slot ++
          .value expected :: rest'.map Slot.value := by
      rw [List.map_append,map_slot_lambda,map_slot_value,Operation.slots_eq,hexpected]
      simp
    rw [hargs] at hlen ⊢
    rw [Operation.apply_of_misfit hlen hslots fun h => hne (Slot.value.inj h)]
    simp [Argument.slot]

/-! ## Runs -/

theorem kinds_of_steps {next : State} {ss : List Statement} (h : state.steps c ss = .done next) :
    next.kinds = kindsAfter state.kinds ss := by
  induction ss generalizing state with
  | nil =>
    cases h
    rw [kindsAfter_nil]
  | cons s ss ih =>
    obtain ⟨mid,hmid,hrest⟩ := Outcome.bind_eq_done_iff.mp h
    rw [ih hrest,kinds_of_step hmid,kindsAfter_cons]

/-- Well placed statements do not lead to a fault, however many run. -/
theorem steps_ne_fault {ss : List Statement} (h : AllPlaced state.kinds ss) (e : RunError) :
    state.steps c ss ≠ .fault e := by
  induction ss generalizing state with
  | nil => simp
  | cons s ss ih =>
    obtain ⟨hs,hss⟩ := h
    rw [steps_cons]
    cases hstep : state.step c s with
    | fault e' => exact absurd hstep (step_ne_fault hs e')
    | undefined => simp
    | done mid =>
      rw [Outcome.done_bind]
      exact ih (kinds_of_step hstep ▸ hss)

end State

namespace Program

open Statement

variable {c : Config} {inputs : List Value}

/-- An input is out of bounds, or one of the statements has no result in the state that those before it end in. -/
def LacksResult (c : Config) (inputs : List Value) (ss : List Statement) : Prop :=
  (∃ v ∈ inputs, v.isValid = false) ∨ ∃ before s after mid, ss = before ++ s :: after ∧
    run c ⟨inputs.length,before⟩ inputs = .done mid ∧ mid.step c s = .undefined

theorem run_eq_undefined_iff {ss : List Statement} :
    run c ⟨inputs.length,ss⟩ inputs = .undefined ↔ LacksResult c inputs ss := by
  by_cases hvalid : ∀ v ∈ inputs, v.isValid = true
  · have hno : ¬ ∃ v ∈ inputs, v.isValid = false := by
      rintro ⟨v,hv,hf⟩
      rw [hvalid v hv] at hf
      contradiction
    have hrun : ∀ ts, run c ⟨inputs.length,ts⟩ inputs = (State.mk inputs).steps c ts :=
      fun ts => run_of_valid rfl hvalid
    simp only [LacksResult,hno,false_or,hrun,State.steps_eq_undefined_iff]
  · obtain ⟨before,v,after,rfl,-,hv⟩ := exists_first_not hvalid
    rw [run_of_invalid rfl hvalid,LacksResult]
    exact iff_of_true rfl (Or.inl ⟨v,by simp,by simpa using hv⟩)

theorem run_ne_fault {ss : List Statement} (h : AllPlaced (inputs.map Value.kind) ss) (e : RunError) :
    run c ⟨inputs.length,ss⟩ inputs ≠ .fault e := by
  by_cases hvalid : ∀ v ∈ inputs, v.isValid = true
  · rw [run_of_valid rfl hvalid]
    exact State.steps_ne_fault h e
  · rw [run_of_invalid rfl hvalid]
    simp

theorem kinds_of_run {ss : List Statement} {st : State} (h : run c ⟨inputs.length,ss⟩ inputs = .done st) :
    st.kinds = kindsAfter (inputs.map Value.kind) ss := by
  obtain ⟨-,-,hsteps⟩ := run_eq_done_iff.mp h
  exact State.kinds_of_steps hsteps

/-- The outcome of a run is foretold by the kinds of its inputs. When all statements are well placed, the run does not
end in a fault, and the variables of a state that it ends in have the kinds foretold. Otherwise there is a first
statement that is not well placed. Then the run does not end in a state; it has no result exactly if that is due to an
input or to a statement before that one, and else it ends in the fault of that statement. -/
theorem run_placement (c : Config) (inputs : List Value) (ss : List Statement) :
    (AllPlaced (inputs.map Value.kind) ss →
      (∀ e, run c ⟨inputs.length,ss⟩ inputs ≠ .fault e) ∧
      ∀ st, run c ⟨inputs.length,ss⟩ inputs = .done st → st.kinds = kindsAfter (inputs.map Value.kind) ss) ∧
    (¬ AllPlaced (inputs.map Value.kind) ss →
      ∃ before s after, ss = before ++ s :: after ∧ AllPlaced (inputs.map Value.kind) before ∧
        ¬ s.WellPlaced (kindsAfter (inputs.map Value.kind) before) ∧
        (∀ st, run c ⟨inputs.length,ss⟩ inputs ≠ .done st) ∧
        (run c ⟨inputs.length,ss⟩ inputs = .undefined ↔ LacksResult c inputs before) ∧
        ∀ e, run c ⟨inputs.length,ss⟩ inputs = .fault e ↔
          ¬ LacksResult c inputs before ∧ s.Misplaced (kindsAfter (inputs.map Value.kind) before) e) := by
  refine ⟨fun h => ⟨run_ne_fault h,fun st => kinds_of_run⟩,?_⟩
  intro h
  obtain ⟨before,s,after,rfl,hbefore,hs⟩ := exists_first_misplaced h
  refine ⟨before,s,after,rfl,hbefore,hs,?_⟩
  obtain ⟨e,he⟩ := (wellPlaced_or_misplaced _ s).resolve_left hs
  rw [run_append_eq,← run_eq_undefined_iff]
  cases hrun : run c ⟨inputs.length,before⟩ inputs with
  | fault e' => exact absurd hrun (run_ne_fault hbefore e')
  | undefined => simp
  | done mid =>
    -- The statements before have run, so what comes of the run is the fault of `s`, whatever follows it.
    have hfault : ∀ e', s.Misplaced (kindsAfter (inputs.map Value.kind) before) e' →
        mid.steps c (s :: after) = .fault e' := by
      intro e' he'
      rw [State.steps_cons,State.step_of_misplaced (kinds_of_run hrun ▸ he'),Outcome.fault_bind]
    rw [Outcome.done_bind]
    refine ⟨?_,?_,?_⟩
    · intro st
      simp [hfault e he]
    · simp [hfault e he]
    · intro e'
      constructor
      · intro h'
        rw [hfault e he] at h'
        cases h'
        exact ⟨by simp,he⟩
      · rintro ⟨-,he'⟩
        exact hfault e' he'

end Program
end ListScript
