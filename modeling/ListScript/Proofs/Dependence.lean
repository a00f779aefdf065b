import Mathlib.Data.List.Basic
import ListScript.Proofs.Execution

/-!
# What a variable depends on

A statement reads nothing but the variables among its arguments. The value of a variable is therefore determined by the
inputs that it reaches through arguments, arguments of these, and so on.
-/
namespace ListScript

/-! ## What a statement reads -/

namespace Statement

variable {s : Statement}

theorem argumentsIn_congr {values values' : List Value}
    (h : ∀ arg ∈ s.args, values[arg.toNat]? = values'[arg.toNat]?) : s.argumentsIn values = s.argumentsIn values' := by
  have hselect : s.select values = s.select values' := List.filterMap_congr h
  rw [argumentsIn,argumentsIn,hselect]

/-- Values after those that a statement uses make no difference to its arguments. -/
theorem argumentsIn_append {values : List Value} (h : ∀ arg ∈ s.args, arg.toNat < values.length) (rest : List Value) :
    s.argumentsIn (values ++ rest) = s.argumentsIn values := by
  apply argumentsIn_congr
  intro arg harg
  exact List.getElem?_append_left (h arg harg)

end Statement

namespace Program

/-- The input variables that a variable reaches. One that is an input reaches itself, and one that is set by a statement
reaches what the arguments of the statement reach. -/
inductive Reaches (p : Program) : Nat → Nat → Prop
  | input {i : Nat} (hi : i < p.numInputs) : Reaches p i i
  | argument {k i : Nat} {s : Statement} {arg : UInt64} (hs : p.statements[k]? = some s) (harg : arg ∈ s.args)
      (h : Reaches p arg.toNat i) : Reaches p (p.numInputs + k) i

variable {c : Config} {p : Program} {inputs inputs₁ inputs₂ : List Value} {st st₁ st₂ : State}

theorem reaches_input_iff {i j : Nat} (hj : j < p.numInputs) : p.Reaches j i ↔ i = j := by
  constructor
  · intro h
    cases h with
    | input => rfl
    | argument => omega
  · rintro rfl
    exact .input hj

theorem reaches_statement_iff {k i : Nat} {s : Statement} (hs : p.statements[k]? = some s) :
    p.Reaches (p.numInputs + k) i ↔ ∃ arg ∈ s.args, p.Reaches arg.toNat i := by
  constructor
  · intro h
    generalize hj : p.numInputs + k = j at h
    cases h with
    | input => omega
    | argument hs' harg h =>
      obtain rfl := Nat.add_left_cancel hj
      obtain rfl := Option.some.inj (hs.symm.trans hs')
      exact ⟨_,harg,h⟩
  · rintro ⟨arg,harg,h⟩
    exact .argument hs harg h

/-! ## The values of a run -/

/-- A run ends in its inputs followed by the results that the statements are traced to. -/
theorem exists_trace_of_run (h : p.run c inputs = .done st) : inputs.length = p.numInputs ∧
    ∃ results, IsTrace c inputs p.statements results ∧ st.values = inputs ++ results := by
  obtain ⟨hlen,-,hsteps⟩ := run_eq_done_iff.mp h
  exact ⟨hlen,State.steps_eq_done_iff.mp hsteps⟩

theorem length_of_run (h : p.run c inputs = .done st) : st.length = p.length := by
  obtain ⟨hlen,results,htrace,hst⟩ := exists_trace_of_run h
  rw [State.length,hst,List.length_append,hlen,htrace.length_eq,length]

/-- The input variables hold the inputs. -/
theorem getElem?_of_input (h : p.run c inputs = .done st) {i : Nat} (hi : i < p.numInputs) :
    st.values[i]? = inputs[i]? := by
  obtain ⟨hlen,results,-,hst⟩ := exists_trace_of_run h
  rw [hst,List.getElem?_append_left (by omega)]

/-- The variable of a statement holds what the operation results in on the final values of the arguments, which are
variables before it. -/
theorem exists_getElem?_of_statement (h : p.run c inputs = .done st) {k : Nat} {s : Statement}
    (hs : p.statements[k]? = some s) : ∃ v, st.values[p.numInputs + k]? = some v ∧
      (∀ arg ∈ s.args, arg.toNat < p.numInputs + k) ∧ s.operation.apply c (s.argumentsIn st.values) = .done v := by
  obtain ⟨hlen,results,htrace,hst⟩ := exists_trace_of_run h
  have hk : k < results.length := by
    rw [htrace.length_eq]
    exact (List.getElem?_eq_some_iff.mp hs).1
  have hargs : ∀ arg ∈ s.args, arg.toNat < p.numInputs + k := by
    rw [← hlen]
    exact htrace.defined k s hs
  have hbefore : ∀ arg ∈ s.args, arg.toNat < (inputs ++ results.take k).length := by
    intro arg harg
    rw [List.length_append,List.length_take_of_le (Nat.le_of_lt hk),hlen]
    exact hargs arg harg
  have hv := htrace.result k s results[k] hs (List.getElem?_eq_getElem hk)
  refine ⟨results[k],?_,hargs,?_⟩
  · rw [hst,List.getElem?_append_right (by omega),hlen,Nat.add_sub_cancel_left,List.getElem?_eq_getElem hk]
  · rw [← hv,hst,← Statement.argumentsIn_append hbefore (results.drop k),List.append_assoc,List.take_append_drop]

/-! ## Two runs -/

/-- In two runs of a program, a variable has the same value if the inputs are the same that it reaches. -/
theorem value_determined_by_reached_inputs (h₁ : p.run c inputs₁ = .done st₁) (h₂ : p.run c inputs₂ = .done st₂)
    (j : Nat) (hagree : ∀ i, p.Reaches j i → inputs₁[i]? = inputs₂[i]?) : st₁.values[j]? = st₂.values[j]? := by
  -- Arguments come before the variable that is computed from them.
  induction j using Nat.strongRecOn with
  | ind j ih =>
    rcases Nat.lt_or_ge j p.numInputs with hj | hj
    · rw [getElem?_of_input h₁ hj,getElem?_of_input h₂ hj]
      exact hagree j (.input hj)
    · obtain ⟨k,rfl⟩ := Nat.exists_eq_add_of_le hj
      cases hs : p.statements[k]? with
      | none =>
        -- There is no such variable in either run.
        have hlen := List.getElem?_eq_none_iff.mp hs
        have hlen₁ := length_of_run h₁
        have hlen₂ := length_of_run h₂
        rw [State.length,length] at hlen₁ hlen₂
        rw [List.getElem?_eq_none (by omega),List.getElem?_eq_none (by omega)]
      | some s =>
        obtain ⟨v₁,hget₁,hargs,hv₁⟩ := exists_getElem?_of_statement h₁ hs
        obtain ⟨v₂,hget₂,-,hv₂⟩ := exists_getElem?_of_statement h₂ hs
        have heq : s.argumentsIn st₁.values = s.argumentsIn st₂.values := by
          apply Statement.argumentsIn_congr
          intro arg harg
          exact ih arg.toNat (hargs arg harg) fun i hi => hagree i (.argument hs harg hi)
        rw [heq,hv₂] at hv₁
        rw [hget₁,hget₂,Outcome.done.inj hv₁]

/-- Two runs that differ in the first input only: what is computed from the second one is the same. -/
theorem value_determined_by_reached_inputs_second :
    let p : Program := ⟨2,[⟨2,.reverse,none,[1],rfl,rfl⟩,⟨3,.sum,none,[0],rfl,rfl⟩,⟨4,.map,some .square,[2],rfl,rfl⟩]⟩
    let st (sum : Int64) (xs : List Int64) := State.mk [.list xs,.list [3,-4],.list [-4,3],.int sum,.list [16,9]]
    p.run {} [.list [1,1],.list [3,-4]] = .done (st 2 [1,1]) ∧ p.run {} [.list [5],.list [3,-4]] = .done (st 5 [5]) ∧
      (∀ i, p.Reaches 4 i → [Value.list [1,1],.list [3,-4]][i]? = [Value.list [5],.list [3,-4]][i]?) ∧
      (st 2 [1,1]).values[4]? = (st 5 [5]).values[4]? := by
  intro p st
  have h₁ : p.run {} [.list [1,1],.list [3,-4]] = .done (st 2 [1,1]) := by decide
  have h₂ : p.run {} [.list [5],.list [3,-4]] = .done (st 5 [5]) := by decide
  have hagree : ∀ i, p.Reaches 4 i → [Value.list [1,1],.list [3,-4]][i]? = [Value.list [5],.list [3,-4]][i]? := by
    -- The last variable is computed from `x2`, and that from the second input.
    intro i hi
    obtain ⟨arg,harg,hi⟩ := (reaches_statement_iff (p := p) (k := 2) rfl).mp hi
    obtain rfl := List.mem_singleton.mp harg
    obtain ⟨arg,harg,hi⟩ := (reaches_statement_iff (p := p) (k := 0) rfl).mp hi
    obtain rfl := List.mem_singleton.mp harg
    obtain rfl := (reaches_input_iff (p := p) (by decide)).mp hi
    rfl
  exact ⟨h₁,h₂,hagree,value_determined_by_reached_inputs h₁ h₂ 4 hagree⟩

end Program
end ListScript
