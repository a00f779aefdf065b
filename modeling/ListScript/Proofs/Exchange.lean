import Mathlib.Logic.Equiv.Basic
import ListScript.Proofs.Dependence

/-!
# Exchanging variables

Two statements next to each other that do not use each other's variable can change places. The two variables then hold
each other's values, and the statements after them compute what they did before once they name the two variables the
other way round.
-/
namespace ListScript

/-! ## Renaming in statements and states -/

namespace Statement

/-- The statement with another variable to set. -/
def assign (s : Statement) (lhs : UInt64) : Statement := { s with lhs := lhs }

/-- The statement with two variables taking each other's place among its arguments. -/
def exchange (x y : UInt64) (s : Statement) : Statement where
  lhs := s.lhs
  operation := s.operation
  lambda := s.lambda
  args := s.args.map (Equiv.swap x y)
  lambda_fits := s.lambda_fits
  args_fit := by rw [List.length_map,s.args_fit]

end Statement

namespace State

/-- The state with the values of two variables in each other's place. -/
def exchange (i j : Nat) (state : State) : State :=
  match state.values[i]?, state.values[j]? with
  | some v, some w => ⟨(state.values.set i w).set j v⟩
  | _, _ => state

variable {state : State} {i j : Nat}

@[simp] theorem length_exchange : (state.exchange i j).length = state.length := by
  unfold exchange
  split
  · simp [length]
  · rfl

theorem getElem?_exchange (hi : i < state.length) (hj : j < state.length) (k : Nat) :
    (state.exchange i j).values[k]? = state.values[Equiv.swap i j k]? := by
  rw [length] at hi hj
  rw [exchange,List.getElem?_eq_getElem hi,List.getElem?_eq_getElem hj]
  change ((state.values.set i state.values[j]).set j state.values[i])[k]? = _
  rw [List.getElem?_set,List.getElem?_set,List.length_set,if_pos hj,if_pos hi,Equiv.swap_apply_def]
  by_cases hkj : k = j
  · subst k
    rw [if_pos rfl]
    by_cases hji : j = i
    · rw [if_pos hji,List.getElem?_eq_getElem hj]
      simp only [hji]
    · rw [if_neg hji,if_pos rfl,List.getElem?_eq_getElem hi]
  · rw [if_neg (Ne.symm hkj)]
    by_cases hki : k = i
    · subst k
      rw [if_pos rfl,if_pos rfl,List.getElem?_eq_getElem hj]
    · rw [if_neg (Ne.symm hki),if_neg hki,if_neg hkj]

/-- Values that are added later stay in their place. -/
theorem exchange_push (hi : i < state.length) (hj : j < state.length) (v : Value) :
    (state.push v).exchange i j = (state.exchange i j).push v := by
  rw [length] at hi hj
  simp [exchange,push,List.getElem?_append_left,hi,hj,List.set_append_left]

/-- A state and the exchanged state agree on what a variable holds if it is named accordingly. -/
theorem get_exchange {x y : UInt64} (hx : x.toNat < state.length) (hy : y.toNat < state.length) (arg : UInt64) :
    (state.exchange x.toNat y.toNat).get (Equiv.swap x y arg).toNat = state.get arg.toNat := by
  have hswap : Equiv.swap x.toNat y.toNat arg.toNat = (Equiv.swap x y arg).toNat :=
    Function.Injective.swap_apply (fun _ _ => UInt64.toNat_inj.mp) x y arg
  have hlookup : (state.exchange x.toNat y.toNat).values[(Equiv.swap x y arg).toNat]? = state.values[arg.toNat]? := by
    rw [getElem?_exchange hx hy,← hswap,Equiv.swap_apply_self]
  rw [get,get,hlookup]
  cases hv : state.values[arg.toNat]? with
  | some v => rfl
  | none =>
    -- An undefined variable is neither of the two, so that it is still reported under its own index.
    have hne : ∀ z : UInt64, z.toNat < state.length → arg ≠ z := by
      rintro z hz rfl
      exact absurd hz (Nat.not_lt.mpr (List.getElem?_eq_none_iff.mp hv))
    rw [length_exchange,Equiv.swap_apply_of_ne_of_ne (hne x hx) (hne y hy)]

end State

/-! ## The statements after the exchanged ones -/

section Renaming

variable {c : Config} {state : State} {x y : UInt64} (hx : x.toNat < state.length) (hy : y.toNat < state.length)
include hx hy

/-- A statement that names two variables the other way round has the same outcome where these hold each other's values. -/
theorem Statement.evaluate_exchange (s : Statement) :
    (s.exchange x y).evaluate c (state.exchange x.toNat y.toNat) = s.evaluate c state := by
  have hargs : (s.exchange x y).arguments (state.exchange x.toNat y.toNat) = s.arguments state := by
    rw [arguments,arguments,exchange,List.mapM_map]
    congr 2
    funext arg
    exact State.get_exchange hx hy arg
  rw [evaluate,evaluate,hargs,State.length_exchange]
  rfl

namespace State

theorem step_exchange (s : Statement) : (state.exchange x.toNat y.toNat).step c (s.exchange x y) =
    exchange x.toNat y.toNat <$> state.step c s := by
  rw [step_eq,step_eq,Statement.evaluate_exchange hx hy]
  cases s.evaluate c state with
  | fault e => rfl
  | undefined => rfl
  | done v => exact congrArg Outcome.done (exchange_push hx hy v).symm

/-- A run of the statements after the exchanged ones ends as before, with the two variables in each other's place. -/
theorem steps_exchange (ss : List Statement) :
    (state.exchange x.toNat y.toNat).steps c (ss.map (Statement.exchange x y)) =
      exchange x.toNat y.toNat <$> state.steps c ss := by
  induction ss generalizing state with
  | nil => rfl
  | cons s ss ih =>
    rw [List.map_cons,steps_cons,steps_cons,step_exchange hx hy]
    cases hstep : state.step c s with
    | fault e => rfl
    | undefined => rfl
    | done next =>
      obtain ⟨v,rfl,-⟩ := step_eq_done_iff.mp hstep
      exact ih (by rw [length_push]; omega) (by rw [length_push]; omega)

end State

end Renaming

/-! ## The exchanged statements -/

namespace State

variable {c : Config} {state : State} {a b : Statement}

/-- Two statements that only use variables before them both compute their value from the state before them. -/
theorem steps_pair (ha : a.lhs.toNat = state.length) (hb : b.lhs.toNat = state.length + 1)
    (haargs : ∀ arg ∈ a.args, arg.toNat < state.length) (hbargs : ∀ arg ∈ b.args, arg.toNat < state.length) :
    state.steps c [a,b] = do
      let v ← a.operation.apply c (a.argumentsIn state.values)
      let w ← b.operation.apply c (b.argumentsIn state.values)
      return (state.push v).push w := by
  rw [steps_cons,step_eq,Statement.evaluate_of_defined ha haargs]
  cases a.operation.apply c (a.argumentsIn state.values) with
  | fault e => rfl
  | undefined => rfl
  | done v =>
    have hb' : b.lhs.toNat = (state.push v).length := by rw [length_push,hb]
    have hbargs' : ∀ arg ∈ b.args, arg.toNat < (state.push v).length := by
      intro arg harg
      rw [length_push]
      exact Nat.lt_succ_of_lt (hbargs arg harg)
    have hsame : b.argumentsIn (state.push v).values = b.argumentsIn state.values :=
      Statement.argumentsIn_append hbargs [v]
    simp only [Outcome.done_bind]
    rw [steps_cons,step_eq,Statement.evaluate_of_defined hb' hbargs',hsame]
    cases b.operation.apply c (b.argumentsIn state.values) <;> rfl

theorem exchange_push_push (v w : Value) :
    ((state.push v).push w).exchange state.length (state.length+1) = (state.push w).push v := by
  simp [exchange,push,length]

/-- Two statements that only use variables before them end in a state exactly if they do in the other order, and then
their variables are exchanged. -/
theorem steps_pair_exchange (ha : a.lhs.toNat = state.length) (hb : b.lhs.toNat = state.length + 1)
    (haargs : ∀ arg ∈ a.args, arg.toNat < state.length) (hbargs : ∀ arg ∈ b.args, arg.toNat < state.length)
    (next : State) : state.steps c [b.assign a.lhs,a.assign b.lhs] = .done next ↔
      ∃ mid, state.steps c [a,b] = .done mid ∧ next = mid.exchange a.lhs.toNat b.lhs.toNat := by
  -- Both orders come to a value for each of the two statements, computed from the same state.
  rw [steps_pair (a := b.assign a.lhs) (b := a.assign b.lhs) ha hb hbargs haargs,steps_pair ha hb haargs hbargs,ha,hb]
  simp only [Outcome.bind_eq_done_iff]
  constructor
  · rintro ⟨w,hw,v,hv,hnext⟩
    refine ⟨(state.push v).push w,⟨v,hv,w,hw,rfl⟩,?_⟩
    rw [exchange_push_push]
    exact (Outcome.done.inj hnext).symm
  · rintro ⟨mid,⟨v,hv,w,hw,hmid⟩,rfl⟩
    refine ⟨w,hw,v,hv,?_⟩
    rw [← Outcome.done.inj hmid,exchange_push_push]
    rfl

end State

namespace Program

variable {c : Config} {n : Nat} {inputs : List Value} {before after : List Statement} {a b : Statement}

theorem run_pair_exchange (ha : a.lhs.toNat = n + before.length) (hb : b.lhs.toNat = n + before.length + 1)
    (haargs : ∀ arg ∈ a.args, arg.toNat < n + before.length) (hbargs : ∀ arg ∈ b.args, arg.toNat < n + before.length)
    (next' : State) : run c ⟨n,before ++ [b.assign a.lhs,a.assign b.lhs]⟩ inputs = .done next' ↔
      ∃ next, run c ⟨n,before ++ [a,b]⟩ inputs = .done next ∧ next' = next.exchange a.lhs.toNat b.lhs.toNat := by
  rw [run_append_eq,run_append_eq]
  cases h : run c ⟨n,before⟩ inputs with
  | fault e => simp
  | undefined => simp
  | done mid =>
    have hlen : mid.length = n + before.length := length_of_run h
    rw [← hlen] at ha hb haargs hbargs
    exact State.steps_pair_exchange ha hb haargs hbargs next'

/-- Independent statements commute. Let two statements next to each other set the variables `i` and `i+1`, and let both
use variables below `i` only. If they change places, and with them the variables that they set and the uses of these
in the statements after them, the program ends in a state for the same inputs as before, and then with the values of the
two variables exchanged. -/
theorem run_exchange (ha : a.lhs.toNat = n + before.length) (hb : b.lhs.toNat = n + before.length + 1)
    (haargs : ∀ arg ∈ a.args, arg.toNat < n + before.length) (hbargs : ∀ arg ∈ b.args, arg.toNat < n + before.length)
    (st' : State) :
    run c ⟨n,before ++ [b.assign a.lhs,a.assign b.lhs] ++ after.map (Statement.exchange a.lhs b.lhs)⟩ inputs = .done st' ↔
      ∃ st, run c ⟨n,before ++ [a,b] ++ after⟩ inputs = .done st ∧
        st' = st.exchange (n + before.length) (n + before.length + 1) := by
  have hpair := @run_pair_exchange c n inputs before a b ha hb haargs hbargs
  -- The statements after the pair meet a state with both variables in it.
  have hdefined : ∀ {next}, run c ⟨n,before ++ [a,b]⟩ inputs = .done next →
      a.lhs.toNat < next.length ∧ b.lhs.toNat < next.length := by
    intro next h
    have hlen : next.length = n + (before ++ [a,b]).length := length_of_run h
    rw [List.length_append,List.length_cons,List.length_singleton] at hlen
    omega
  rw [run_append_eq,Outcome.bind_eq_done_iff,← hb,← ha]
  constructor
  · rintro ⟨next',hnext',hrest⟩
    obtain ⟨next,hrun,rfl⟩ := (hpair next').mp hnext'
    obtain ⟨hx,hy⟩ := hdefined hrun
    rw [State.steps_exchange hx hy] at hrest
    obtain ⟨st,hst,rfl⟩ := Outcome.map_eq_done_iff.mp hrest
    exact ⟨st,by rw [run_append_eq,hrun,Outcome.done_bind,hst],rfl⟩
  · rintro ⟨st,hst,rfl⟩
    rw [run_append_eq] at hst
    obtain ⟨next,hrun,hrest⟩ := Outcome.bind_eq_done_iff.mp hst
    obtain ⟨hx,hy⟩ := hdefined hrun
    refine ⟨_,(hpair _).mpr ⟨next,hrun,rfl⟩,?_⟩
    rw [State.steps_exchange hx hy,hrest]
    rfl

/-- The sum and the double of a list are computed in either order, and a statement after them uses both. -/
theorem run_exchange_sum_and_double :
    let sum : Statement := ⟨1,.sum,none,[0],rfl,rfl⟩
    let double : Statement := ⟨2,.map,some .timesTwo,[0],rfl,rfl⟩
    let take (x y : UInt64) : Statement := ⟨3,.take,none,[x,y],rfl,rfl⟩
    sum.lhs.toNat = 1 ∧ double.lhs.toNat = 2 ∧ (∀ arg ∈ sum.args, arg.toNat < 1) ∧ (∀ arg ∈ double.args, arg.toNat < 1) ∧
      run {} ⟨1,[sum,double,take 1 2]⟩ [.list [4,-3]] =
        .done ⟨[.list [4,-3],.int 1,.list [8,-6],.list [8]]⟩ ∧
      run {} ⟨1,[double.assign 1,sum.assign 2,take 2 1]⟩ [.list [4,-3]] =
        .done ⟨[.list [4,-3],.list [8,-6],.int 1,.list [8]]⟩ := by
  intro sum double take
  have hrun : run {} ⟨1,[sum,double,take 1 2]⟩ [.list [4,-3]] =
      .done ⟨[.list [4,-3],.int 1,.list [8,-6],.list [8]]⟩ := by decide
  have hsum : ∀ arg ∈ sum.args, arg.toNat < 1 := by simp [sum]
  have hdouble : ∀ arg ∈ double.args, arg.toNat < 1 := by simp [double]
  have hexchanged := @run_exchange {} 1 [.list [4,-3]] [] [take 1 2] sum double rfl rfl hsum hdouble
  exact ⟨rfl,rfl,hsum,hdouble,hrun,(hexchanged _).mpr ⟨_,hrun,rfl⟩⟩

end Program
end ListScript
