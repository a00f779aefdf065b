import ListScript.Proofs.Application
import ListScript.Proofs.Reading
import ListScript.Run

/-!
# Execution

Executing statements in place comes to the same as running each on a copy of the state before it. Hence a run goes on
from where a first part of it ended, and its result is the trace of the values that the statements compute in turn.
-/
namespace ListScript
open Reading

/-! ## In place and on copies -/

/-- Going on only after a result is going on with the state that the result left behind. -/
theorem Execution.outcome_andThen (x y : Execution Bool) (state : State) :
    Execution.outcome (do if ← x then y else return false) state =
      x.outcome state >>= fun next => y.outcome next := by
  unfold Execution.outcome
  rw [ExceptT.run_bind,StateT.run_bind]
  rcases h : x.run.run state with ⟨answer,next⟩
  cases answer with
  | error e => rfl
  | ok result => cases result <;> rfl

namespace Statement

variable (c : Config) (s : Statement) (state : State)

/-- An execution changes the state only if it has a result, and then only at its end. -/
theorem execute_run : ((s.execute c).run.run state : Except RunError Bool × State) =
    match s.evaluate c state with
    | .fault e => (.error e,state)
    | .undefined => (.ok false,state)
    | .done v => (.ok true,state.push v) := by
  -- Reading the state at the beginning gives the state that the execution starts in.
  have h : (s.execute c).run.run state = StateT.run (ExceptT.run (
      match s.evaluate c state with
      | .fault e => throw e
      | .undefined => return false
      | .done v => do
        modify fun state => state.push v
        return true : Execution Bool)) state := rfl
  rw [h]
  cases s.evaluate c state <;> rfl

end Statement

namespace State

variable {c : Config} {state next : State} {s : Statement}

theorem step_eq : state.step c s = s.evaluate c state >>= fun v => .done (state.push v) := by
  unfold step Execution.outcome
  rw [Statement.execute_run]
  cases s.evaluate c state <;> rfl

@[simp] theorem steps_nil : state.steps c [] = .done state := rfl

@[simp] theorem steps_cons (rest : List Statement) :
    state.steps c (s :: rest) = state.step c s >>= fun mid => mid.steps c rest := rfl

/-- Running more statements goes on from where the first ones ended. -/
theorem steps_append (first second : List Statement) :
    state.steps c (first ++ second) = state.steps c first >>= fun mid => mid.steps c second := by
  simp [steps]

/-- Executing statements in place comes to the same as running each on a copy of the state before it. -/
theorem executeAll_outcome (ss : List Statement) :
    (Statement.executeAll c ss).outcome state = state.steps c ss := by
  induction ss generalizing state with
  | nil => rfl
  | cons s ss ih =>
    rw [Statement.executeAll,Execution.outcome_andThen,steps_cons]
    congr 1
    funext mid
    exact ih

end State

/-! ## One statement -/

namespace Statement

/-- The entries of a list at the argument indices of a statement. -/
def select {α : Type} (s : Statement) (xs : List α) : List α := s.args.filterMap fun arg => xs[arg.toNat]?

/-- The arguments of a statement's operation among given values. -/
def argumentsIn (s : Statement) (values : List Value) : List Argument :=
  s.lambda.toList.map Argument.lambda ++ (s.select values).map Argument.value

theorem select_map {α β : Type} (s : Statement) (f : α → β) (xs : List α) :
    s.select (xs.map f) = (s.select xs).map f := by
  simp [select,List.map_filterMap]

end Statement

namespace State

theorem get_of_getElem? {state : State} {i : Nat} {v : Value} (h : state.values[i]? = some v) :
    state.get i = .ok v := by
  rw [get,h]

theorem get_of_length_le {state : State} {i : Nat} (h : state.length ≤ i) :
    state.get i = .error (.undefinedVariable i state.length) := by
  rw [get,List.getElem?_eq_none h]

theorem mapM_get {state : State} {args : List UInt64} (h : ∀ arg ∈ args, arg.toNat < state.length) :
    (args.mapM fun arg => state.get arg.toNat) = .ok (args.filterMap fun arg => state.values[arg.toNat]?) := by
  induction args with
  | nil => rfl
  | cons arg args ih =>
    obtain ⟨v,hv⟩ : ∃ v, state.values[arg.toNat]? = some v :=
      ⟨_,List.getElem?_eq_getElem (h arg (by simp))⟩
    rw [List.mapM_cons,get_of_getElem? hv,ih fun a ha => h a (List.mem_cons_of_mem arg ha),
      List.filterMap_cons,hv]
    rfl

end State

namespace Statement

variable {s : Statement} {state : State}

theorem arguments_of_defined (h : ∀ arg ∈ s.args, arg.toNat < state.length) :
    s.arguments state = .ok (s.argumentsIn state.values) := by
  rw [arguments,State.mapM_get h]
  rfl

/-- The first argument that is not defined decides the fault. -/
theorem arguments_of_undefined {before after : List UInt64} {arg : UInt64} (hargs : s.args = before ++ arg :: after)
    (hbefore : ∀ a ∈ before, a.toNat < state.length) (harg : state.length ≤ arg.toNat) :
    s.arguments state = .error (.undefinedVariable arg.toNat state.length) := by
  rw [arguments,bind_eq_error_iff]
  left
  rw [hargs,mapM_eq_error_iff]
  exact ⟨before,arg,after,_,rfl,State.mapM_get hbefore,State.get_of_length_le harg⟩

theorem evaluate_of_lhs_ne {c : Config} (h : s.lhs.toNat ≠ state.length) :
    s.evaluate c state = .fault (.lhsIndex state.length s.lhs.toNat) := by
  rw [evaluate,if_pos h]

theorem evaluate_of_undefined {c : Config} {before after : List UInt64} {arg : UInt64}
    (hlhs : s.lhs.toNat = state.length) (hargs : s.args = before ++ arg :: after)
    (hbefore : ∀ a ∈ before, a.toNat < state.length) (harg : state.length ≤ arg.toNat) :
    s.evaluate c state = .fault (.undefinedVariable arg.toNat state.length) := by
  rw [evaluate,if_neg (by simp [hlhs]),arguments_of_undefined hargs hbefore harg]
  rfl

theorem evaluate_of_defined {c : Config} (hlhs : s.lhs.toNat = state.length)
    (h : ∀ arg ∈ s.args, arg.toNat < state.length) :
    s.evaluate c state = s.operation.apply c (s.argumentsIn state.values) := by
  rw [evaluate,if_neg (by simp [hlhs]),arguments_of_defined h]
  rfl

/-- A statement has a value in a state if it sets the next variable, its arguments are defined, and its operation has
that result on them. -/
theorem evaluate_eq_done_iff {c : Config} {v : Value} : s.evaluate c state = .done v ↔
    s.lhs.toNat = state.length ∧ (∀ arg ∈ s.args, arg.toNat < state.length) ∧
      s.operation.apply c (s.argumentsIn state.values) = .done v := by
  constructor
  · intro h
    by_cases hlhs : s.lhs.toNat = state.length
    · by_cases hdef : ∀ arg ∈ s.args, arg.toNat < state.length
      · exact ⟨hlhs,hdef,evaluate_of_defined hlhs hdef ▸ h⟩
      · obtain ⟨before,arg,after,hargs,hbefore,harg⟩ := exists_first_not hdef
        rw [evaluate_of_undefined hlhs hargs hbefore (Nat.not_lt.mp harg)] at h
        contradiction
    · rw [evaluate_of_lhs_ne hlhs] at h
      contradiction
  · rintro ⟨hlhs,hdef,h⟩
    rw [evaluate_of_defined hlhs hdef,h]

end Statement

namespace State

variable {c : Config} {state next : State} {s : Statement}

theorem step_eq_done_iff : state.step c s = .done next ↔ ∃ v, next = state.push v ∧
    s.lhs.toNat = state.length ∧ (∀ arg ∈ s.args, arg.toNat < state.length) ∧
      s.operation.apply c (s.argumentsIn state.values) = .done v := by
  rw [step_eq,Outcome.bind_eq_done_iff]
  constructor
  · rintro ⟨v,hv,h⟩
    exact ⟨v,(Outcome.done.inj h).symm,Statement.evaluate_eq_done_iff.mp hv⟩
  · rintro ⟨v,rfl,hv⟩
    exact ⟨v,Statement.evaluate_eq_done_iff.mpr hv,rfl⟩

/-- What every step keeps, a run keeps. -/
theorem steps_invariant {P : State → Prop}
    (hstep : ∀ {state next : State} {s : Statement}, state.step c s = .done next → P state → P next)
    {ss : List Statement} (h : state.steps c ss = .done next) (hP : P state) : P next := by
  induction ss generalizing state with
  | nil =>
    cases h
    exact hP
  | cons s ss ih =>
    obtain ⟨mid,hmid,hrest⟩ := Outcome.bind_eq_done_iff.mp h
    exact ih hrest (hstep hmid hP)

theorem isValid_of_step (h : state.step c s = .done next) (hs : state.isValid = true) : next.isValid = true := by
  obtain ⟨v,rfl,-,-,hv⟩ := step_eq_done_iff.mp h
  have hvalid := (Operation.apply_done hv).1
  unfold isValid at hs ⊢
  simp [push,hs,hvalid]

theorem isValid_of_steps {ss : List Statement} (h : state.steps c ss = .done next) (hs : state.isValid = true) :
    next.isValid = true := by
  apply steps_invariant _ h hs
  intro state next s hstep hs
  exact isValid_of_step hstep hs

/-- Statements run without a result exactly if one of them has none in the state that those before it end in. -/
theorem steps_eq_undefined_iff {ss : List Statement} : state.steps c ss = .undefined ↔
    ∃ before s after mid, ss = before ++ s :: after ∧ state.steps c before = .done mid ∧
      mid.step c s = .undefined := by
  constructor
  · intro h
    induction ss generalizing state with
    | nil => contradiction
    | cons s ss ih =>
      cases hstep : state.step c s with
      | fault e =>
        rw [steps_cons,hstep] at h
        contradiction
      | undefined => exact ⟨[],s,ss,state,rfl,rfl,hstep⟩
      | done next =>
        rw [steps_cons,hstep,Outcome.done_bind] at h
        obtain ⟨before,t,after,mid,rfl,hbefore,ht⟩ := ih h
        refine ⟨s :: before,t,after,mid,rfl,?_,ht⟩
        rw [steps_cons,hstep,Outcome.done_bind,hbefore]
  · rintro ⟨before,s,after,mid,rfl,hbefore,hs⟩
    rw [steps_append,hbefore,Outcome.done_bind,steps_cons,hs,Outcome.undefined_bind]

end State

/-! ## Traces -/

/-- The results of statements, each computed from the values before it: the statement number `k` sets the variable
after the inputs and the first `k` results, and its arguments are among these. -/
structure IsTrace (c : Config) (inputs : List Value) (statements : List Statement) (results : List Value) :
    Prop where
  length_eq : results.length = statements.length
  lhs : ∀ k (s : Statement), statements[k]? = some s → s.lhs.toNat = inputs.length + k
  defined : ∀ k (s : Statement), statements[k]? = some s → ∀ arg ∈ s.args, arg.toNat < inputs.length + k
  result : ∀ k (s : Statement) v, statements[k]? = some s → results[k]? = some v →
    s.operation.apply c (s.argumentsIn (inputs ++ results.take k)) = .done v

theorem isTrace_nil_iff {c : Config} {inputs results : List Value} :
    IsTrace c inputs [] results ↔ results = [] := by
  constructor
  · intro h
    exact List.length_eq_zero_iff.mp h.length_eq
  · rintro rfl
    exact ⟨rfl,by simp,by simp,by simp⟩

/-- What is said of every entry of a list is said of the first one and, by number, of those after it. -/
theorem forall_getElem?_cons {α : Type} {P : Nat → α → Prop} {x : α} {xs : List α} :
    (∀ k y, (x :: xs)[k]? = some y → P k y) ↔ P 0 x ∧ ∀ k y, xs[k]? = some y → P (k+1) y := by
  constructor
  · intro h
    exact ⟨h 0 x rfl,fun k y hy => h (k+1) y hy⟩
  · intro h k y hy
    cases k with
    | zero =>
      cases hy
      exact h.1
    | succ k => exact h.2 k y hy

/-- The first result belongs to the inputs of the remaining trace. -/
theorem isTrace_cons_iff {c : Config} {inputs results : List Value} {s : Statement} {ss : List Statement} :
    IsTrace c inputs (s :: ss) results ↔ ∃ v rest, results = v :: rest ∧ s.lhs.toNat = inputs.length ∧
      (∀ arg ∈ s.args, arg.toNat < inputs.length) ∧ s.operation.apply c (s.argumentsIn inputs) = .done v ∧
        IsTrace c (inputs ++ [v]) ss rest := by
  have hlen : ∀ (v : Value) k, (inputs ++ [v]).length + k = inputs.length + (k+1) := by
    intro v k
    rw [List.length_append,List.length_singleton]
    omega
  constructor
  · intro h
    cases results with
    | nil => exact absurd h.length_eq (by simp)
    | cons v rest =>
      obtain ⟨hlhs,hlhs'⟩ := forall_getElem?_cons.mp h.lhs
      obtain ⟨hdef,hdef'⟩ := forall_getElem?_cons.mp h.defined
      have hv := h.result 0 s v rfl rfl
      refine ⟨v,rest,rfl,hlhs,hdef,by simpa using hv,Nat.succ.inj h.length_eq,?_,?_,?_⟩
      · intro k t ht
        rw [hlen]
        exact hlhs' k t ht
      · intro k t ht
        rw [hlen]
        exact hdef' k t ht
      · intro k t w ht hw
        simpa using h.result (k+1) t w ht hw
  · intro h
    obtain ⟨v,rest,rfl,hlhs,hdef,hv,h⟩ := h
    refine ⟨congrArg (·+1) h.length_eq,forall_getElem?_cons.mpr ⟨hlhs,?_⟩,
      forall_getElem?_cons.mpr ⟨hdef,?_⟩,?_⟩
    · intro k t ht
      rw [← hlen v]
      exact h.lhs k t ht
    · intro k t ht
      rw [← hlen v]
      exact h.defined k t ht
    · intro k t w ht hw
      cases k with
      | zero =>
        cases ht
        cases hw
        simpa using hv
      | succ k => simpa using h.result k t w ht hw

/-- Statements run to a result exactly along a trace, which is what they add to the state. -/
theorem State.steps_eq_done_iff {c : Config} {state next : State} {ss : List Statement} :
    state.steps c ss = .done next ↔
      ∃ results, IsTrace c state.values ss results ∧ next.values = state.values ++ results := by
  -- For any state, since what the first statement computes is among the values that the others start from.
  induction ss generalizing state with
  | nil =>
    simp only [steps_nil,Outcome.done.injEq,isTrace_nil_iff,exists_eq_left,List.append_nil]
    constructor
    · rintro rfl
      rfl
    · intro h
      cases next
      cases state
      exact congrArg State.mk h.symm
  | cons s ss ih =>
    rw [steps_cons,Outcome.bind_eq_done_iff]
    constructor
    · rintro ⟨mid,hmid,hrest⟩
      obtain ⟨v,rfl,hlhs,hdef,hv⟩ := step_eq_done_iff.mp hmid
      obtain ⟨results,htrace,hnext⟩ := ih.mp hrest
      exact ⟨v :: results,isTrace_cons_iff.mpr ⟨v,results,rfl,hlhs,hdef,hv,htrace⟩,by simpa [push] using hnext⟩
    · rintro ⟨results,htrace,hnext⟩
      obtain ⟨v,rest,rfl,hlhs,hdef,hv,htrace⟩ := isTrace_cons_iff.mp htrace
      exact ⟨state.push v,step_eq_done_iff.mpr ⟨v,rfl,hlhs,hdef,hv⟩,
        ih.mpr ⟨rest,htrace,by simpa [push] using hnext⟩⟩

/-! ## Programs -/

namespace Program

variable {c : Config} {p : Program} {inputs : List Value}

/-- On as many valid inputs as it declares, a program runs its statements. -/
theorem run_of_valid (hlen : inputs.length = p.numInputs) (hvalid : ∀ v ∈ inputs, v.isValid = true) :
    p.run c inputs = (State.mk inputs).steps c p.statements := by
  rw [run,if_neg (by simp [hlen]),if_pos (List.all_eq_true.mpr hvalid),State.executeAll_outcome]

theorem run_of_invalid (hlen : inputs.length = p.numInputs) (h : ¬ ∀ v ∈ inputs, v.isValid = true) :
    p.run c inputs = .undefined := by
  rw [run,if_neg (by simp [hlen]),if_neg (fun hall => h (List.all_eq_true.mp hall))]

theorem run_of_length_ne (h : inputs.length ≠ p.numInputs) :
    p.run c inputs = .fault (.inputCount p.numInputs inputs.length) := by
  rw [run,if_pos h]

theorem run_eq_done_iff {st : State} : p.run c inputs = .done st ↔
    inputs.length = p.numInputs ∧ (∀ v ∈ inputs, v.isValid = true) ∧
      (State.mk inputs).steps c p.statements = .done st := by
  constructor
  · intro h
    by_cases hlen : inputs.length = p.numInputs
    · by_cases hvalid : ∀ v ∈ inputs, v.isValid = true
      · exact ⟨hlen,hvalid,run_of_valid hlen hvalid ▸ h⟩
      · rw [run_of_invalid hlen hvalid] at h
        contradiction
    · rw [run_of_length_ne hlen] at h
      contradiction
  · rintro ⟨hlen,hvalid,h⟩
    rw [run_of_valid hlen hvalid,h]

/-- A longer program goes on with the state that the shorter one ends in. -/
theorem run_append_eq (n : Nat) (first second : List Statement) :
    run c ⟨n,first ++ second⟩ inputs = run c ⟨n,first⟩ inputs >>= fun st => st.steps c second := by
  by_cases hlen : inputs.length = n
  · by_cases hvalid : ∀ v ∈ inputs, v.isValid = true
    · rw [run_of_valid hlen hvalid,run_of_valid hlen hvalid,State.steps_append]
    · rw [run_of_invalid hlen hvalid,run_of_invalid hlen hvalid,Outcome.undefined_bind]
  · rw [run_of_length_ne hlen,run_of_length_ne hlen,Outcome.fault_bind]

/-- A state that a run ends in serves as the inputs of another run. -/
theorem run_values {st : State} (h : p.run c inputs = .done st) (ss : List Statement) :
    run c ⟨st.length,ss⟩ st.values = st.steps c ss := by
  obtain ⟨-,hvalid,hsteps⟩ := run_eq_done_iff.mp h
  have hst : st.isValid = true := State.isValid_of_steps hsteps (List.all_eq_true.mpr hvalid)
  rw [run_of_valid rfl (List.all_eq_true.mp hst)]

/-- A run has a result exactly if there are as many inputs as declared, all of them in bounds, and the statements have a
trace of results; the state is then the inputs followed by these results, one value for each line of the program. -/
theorem run_eq_done_iff_trace (c : Config) (p : Program) (inputs : List Value) (st : State) :
    (p.run c inputs = .done st ↔
      inputs.length = p.numInputs ∧ (∀ v ∈ inputs, v.isValid = true) ∧
        ∃ results, IsTrace c inputs p.statements results ∧ st.values = inputs ++ results) ∧
    (p.run c inputs = .done st → st.length = p.length) := by
  have htrace : p.run c inputs = .done st ↔
      inputs.length = p.numInputs ∧ (∀ v ∈ inputs, v.isValid = true) ∧
        ∃ results, IsTrace c inputs p.statements results ∧ st.values = inputs ++ results := by
    rw [run_eq_done_iff,State.steps_eq_done_iff]
  refine ⟨htrace,?_⟩
  intro h
  obtain ⟨hlen,-,results,hresults,hst⟩ := htrace.mp h
  rw [State.length,hst,List.length_append,hlen,hresults.length_eq,length]

/-- Runs compose. A fault or a missing result of the first statements is that of the whole run; a state that they end
in is where the run goes on, be it as the inputs of a program of the other statements or by running these one by one,
each on a copy of the state before it. -/
theorem run_append (c : Config) (n : Nat) (first second : List Statement) (inputs : List Value) :
    (∀ e, run c ⟨n,first⟩ inputs = .fault e → run c ⟨n,first ++ second⟩ inputs = .fault e) ∧
    (run c ⟨n,first⟩ inputs = .undefined → run c ⟨n,first ++ second⟩ inputs = .undefined) ∧
    ∀ st, run c ⟨n,first⟩ inputs = .done st →
      run c ⟨n,first ++ second⟩ inputs = run c ⟨st.length,second⟩ st.values ∧
      run c ⟨n,first ++ second⟩ inputs = st.steps c second := by
  refine ⟨?_,?_,?_⟩
  · intro e h
    rw [run_append_eq,h,Outcome.fault_bind]
  · intro h
    rw [run_append_eq,h,Outcome.undefined_bind]
  · intro st h
    have hrest : run c ⟨n,first ++ second⟩ inputs = st.steps c second := by
      rw [run_append_eq,h,Outcome.done_bind]
    exact ⟨hrest.trans (run_values h second).symm,hrest⟩

end Program
end ListScript
