import ListScript.Proofs.Bindings
import ListScript.Proofs.Execution
import ListScript.Session

/-!
# Sessions

A step leaves the slots as they are, fills a new one, or adds to the state in one of them. States are therefore only
ever added to, each by the steps directed at it. As long as no value is put into a state by hand, all states stay
within bounds and can be read back from what they are written with.
-/
namespace ListScript

/-- What a list holds at an index, it also holds there when it goes on. -/
theorem getElem?_of_isPrefix {α : Type} {xs ys : List α} (h : xs <+: ys) {i : Nat} {x : α} (hx : xs[i]? = some x) :
    ys[i]? = some x := by
  obtain ⟨hi,rfl⟩ := List.getElem?_eq_some_iff.mp hx
  exact List.prefix_iff_getElem?.mp h i hi

/-! ## What a step does -/

/-- Executing a statement in place adds one value to the state, or leaves it as it is. -/
theorem Statement.execute_keeps {c : Config} {s : Statement} {state after : State} {answer : Except RunError Bool}
    (h : ((s.execute c).run.run state : Except RunError Bool × State) = (answer,after)) :
    (answer = .ok true ∧ ∃ v, after = state.push v) ∨ (answer ≠ .ok true ∧ after = state) := by
  rw [execute_run] at h
  cases hv : s.evaluate c state with
  | fault e =>
    rw [hv] at h
    cases h
    exact Or.inr ⟨by simp,rfl⟩
  | undefined =>
    rw [hv] at h
    cases h
    exact Or.inr ⟨by simp,rfl⟩
  | done v =>
    rw [hv] at h
    cases h
    exact Or.inl ⟨rfl,v,rfl⟩

theorem State.exists_push_of_step {c : Config} {state next : State} {s : Statement}
    (h : state.step c s = .done next) : ∃ v, next = state.push v := by
  obtain ⟨v,hv,-⟩ := step_eq_done_iff.mp h
  exact ⟨v,hv⟩

/-- The value of a variable stays what it is when values are added after it. -/
theorem State.get_of_isPrefix {state later : State} (h : state.values <+: later.values) {i : Nat} {v : Value}
    (hv : state.get i = .ok v) : later.get i = .ok v := by
  unfold get at hv
  split at hv
  · rename_i w hw
    cases hv
    exact get_of_getElem? (getElem?_of_isPrefix h hw)
  · contradiction

namespace Session

/-- The state that a step puts into a new slot. -/
inductive Opens (s : Session) : Step → State → Prop
  | clone {slot : Nat} : Opens s (.clone slot) (s.state slot)
  | parse {tokens : List String} {state : State} (h : State.ofTokens tokens = .ok state) :
      Opens s (.parse tokens) state
  | insert {state : State} : Opens s (.insert state) state
  | run {slot : Nat} {statement : Statement} {state : State}
      (h : (s.state slot).step s.config statement = .done state) : Opens s (.run slot statement) state
  | runProgram {slot : Nat} {p : Program} {state : State} (h : p.run s.config (s.state slot).values = .done state) :
      Opens s (.runProgram slot p) state

/-- The longer state that a step puts in the place of the one in a slot. -/
inductive Extends (s : Session) : Step → Nat → State → Prop
  | add {slot : Nat} {v : Value} : Extends s (.add slot v) slot ((s.state slot).push v)
  | advance {slot : Nat} {statement : Statement} {state : State}
      (h : (s.state slot).step s.config statement = .done state) : Extends s (.advance slot statement) slot state

variable {s next : Session} {step : Step} {answer : Answer}

theorem Extends.exists_push {slot : Nat} {state : State} (h : Extends s step slot state) :
    ∃ v, state = (s.state slot).push v := by
  cases h with
  | add => exact ⟨_,rfl⟩
  | advance h => exact State.exists_push_of_step h

/-- What comes of the result of a run. -/
theorem keepResult_eq_ok_iff {keep : State → Session × Answer} {r : Outcome State} {result : Session × Answer} :
    s.keepResult keep r = .ok result ↔
      (r = .undefined ∧ result = (s,.noResult)) ∨ ∃ state, r = .done state ∧ result = keep state := by
  cases r <;> simp [keepResult,eq_comm]

/-- A step that does not fail leaves the slots as they are, fills a new one or extends the state in one. In the latter
two cases it does not report that there is no result. -/
theorem step_cases (h : s.step step = .ok (next,answer)) :
    next.slots = s.slots ∨
    (∃ state, Opens s step state ∧ next.slots = s.slots ++ [state] ∧ answer ≠ .noResult) ∨
    ∃ slot state, Extends s step slot state ∧ next.slots = s.slots.set slot state ∧ answer ≠ .noResult := by
  cases step with
  | add slot v =>
    cases h
    exact Or.inr (Or.inr ⟨slot,_,.add,rfl,by simp⟩)
  | get slot index =>
    simp only [Session.step] at h
    split at h
    · cases h
      exact Or.inl rfl
    · contradiction
  | output slot =>
    cases h
    exact Or.inl rfl
  | clone slot =>
    cases h
    exact Or.inr (Or.inl ⟨_,.clone,rfl,by simp⟩)
  | equal slot other =>
    cases h
    exact Or.inl rfl
  | parse tokens =>
    simp only [Session.step] at h
    split at h
    · rename_i state hstate
      cases h
      exact Or.inr (Or.inl ⟨state,.parse hstate,rfl,by simp⟩)
    · contradiction
  | insert state =>
    cases h
    exact Or.inr (Or.inl ⟨state,.insert,rfl,by simp⟩)
  | reparse slot =>
    simp only [Session.step] at h
    split at h
    · cases h
      exact Or.inl rfl
    · contradiction
  | configure c =>
    cases h
    exact Or.inl rfl
  | run slot statement =>
    rcases keepResult_eq_ok_iff.mp h with ⟨-,h⟩ | ⟨state,hstate,h⟩
    · cases h
      exact Or.inl rfl
    · cases h
      exact Or.inr (Or.inl ⟨state,.run hstate,rfl,by simp⟩)
  | advance slot statement =>
    rcases keepResult_eq_ok_iff.mp h with ⟨-,h⟩ | ⟨state,hstate,h⟩
    · cases h
      exact Or.inl rfl
    · cases h
      -- The state that a statement has run in ends with its value, so there is one to report.
      obtain ⟨v,hv⟩ := State.exists_push_of_step hstate
      exact Or.inr (Or.inr ⟨slot,state,.advance hstate,rfl,by simp [hv,State.output?,State.push,Answer.ofValue?]⟩)
  | runProgram slot p =>
    rcases keepResult_eq_ok_iff.mp h with ⟨-,h⟩ | ⟨state,hstate,h⟩
    · cases h
      exact Or.inl rfl
    · cases h
      exact Or.inr (Or.inl ⟨state,.runProgram hstate,rfl,by simp⟩)

theorem after_of_ok (h : s.step step = .ok (next,answer)) : s.after step = next := by rw [after,h]

theorem after_of_error {e : Error} (h : s.step step = .error e) : s.after step = s := by rw [after,h]

/-- Whether it fails or not, a step leaves the slots as they are, fills a new one or extends the state in one. -/
theorem slots_after (s : Session) (step : Step) :
    (s.after step).slots = s.slots ∨
    (∃ state, Opens s step state ∧ (s.after step).slots = s.slots ++ [state]) ∨
    ∃ slot state, Extends s step slot state ∧ (s.after step).slots = s.slots.set slot state := by
  cases h : s.step step with
  | error e => exact Or.inl (by rw [after_of_error h])
  | ok result =>
    obtain ⟨next,answer⟩ := result
    rw [after_of_ok h]
    rcases step_cases h with hsame | ⟨state,hopens,hslots,-⟩ | ⟨slot,state,hextends,hslots,-⟩
    · exact Or.inl hsame
    · exact Or.inr (Or.inl ⟨state,hopens,hslots⟩)
    · exact Or.inr (Or.inr ⟨slot,state,hextends,hslots⟩)

@[simp] theorem afterAll_nil (s : Session) : s.afterAll [] = s := rfl

@[simp] theorem afterAll_cons (s : Session) (step : Step) (steps : List Step) :
    s.afterAll (step :: steps) = (s.after step).afterAll steps := rfl

theorem state_of_getElem? {slot : Nat} {state : State} (h : s.slots[slot]? = some state) : s.state slot = state := by
  rw [Session.state,List.getD_eq_getElem?_getD,h]
  rfl

/-! ## What stays as it is -/

/-- The slot whose state a step is directed at, if it is to change one. -/
def Step.target? : Step → Option Nat
  | .add slot _ => some slot
  | .advance slot _ => some slot
  | _ => none

theorem Extends.target? {slot : Nat} {state : State} (h : Extends s step slot state) :
    step.target? = some slot := by
  cases h <;> rfl

/-- A state that a step is not directed at stays as it is. -/
theorem getElem?_after {slot : Nat} {state : State} (h : s.slots[slot]? = some state)
    (htarget : step.target? ≠ some slot) : (s.after step).slots[slot]? = some state := by
  rcases s.slots_after step with hsame | ⟨opened,-,hslots⟩ | ⟨other,extended,hextends,hslots⟩
  · rw [hsame,h]
  · rw [hslots]
    exact getElem?_of_isPrefix (List.prefix_append _ _) h
  · have hne : other ≠ slot := by
      rintro rfl
      exact htarget hextends.target?
    rw [hslots,List.getElem?_set_ne hne,h]

/-- A state is only ever added to. -/
theorem exists_prefix_after (step : Step) {slot : Nat} {state : State} (h : s.slots[slot]? = some state) :
    ∃ later, (s.after step).slots[slot]? = some later ∧ state.values <+: later.values := by
  by_cases htarget : step.target? = some slot
  · rcases s.slots_after step with hsame | ⟨opened,-,hslots⟩ | ⟨other,extended,hextends,hslots⟩
    · exact ⟨state,by rw [hsame,h],List.prefix_rfl⟩
    · exact ⟨state,by rw [hslots]; exact getElem?_of_isPrefix (List.prefix_append _ _) h,List.prefix_rfl⟩
    · obtain rfl : other = slot := Option.some.inj (hextends.target?.symm.trans htarget)
      obtain ⟨v,rfl⟩ := hextends.exists_push
      have hlt : other < s.slots.length := (List.getElem?_eq_some_iff.mp h).1
      rw [state_of_getElem? h] at hslots
      exact ⟨state.push v,by rw [hslots,List.getElem?_set_self hlt],List.prefix_append _ _⟩
  · exact ⟨state,getElem?_after h htarget,List.prefix_rfl⟩

/-- If there is a result to keep, running a statement has added one value to the state that it has run in. -/
theorem exists_push_of_keepResult {keep : State → Session × Answer} {slot : Nat} {statement : Statement}
    (hanswer : answer ≠ .noResult)
    (h : s.keepResult keep ((s.state slot).step s.config statement) = .ok (next,answer)) :
    ∃ v, (next,answer) = keep ((s.state slot).push v) := by
  rcases keepResult_eq_ok_iff.mp h with ⟨-,h⟩ | ⟨state,hstate,h⟩
  · cases h
    contradiction
  · obtain ⟨v,rfl⟩ := State.exists_push_of_step hstate
    exact ⟨v,h⟩

/-- What a step leaves as it was: every state but the one that it is directed at, what that one held before, and, if it
fails or has no result, everything. A statement that has a result adds one value. -/
structure Keeps (s : Session) (step : Step) : Prop where
  others : ∀ (slot : Nat) (state : State), s.slots[slot]? = some state → step.target? ≠ some slot →
    (s.after step).slots[slot]? = some state
  grows : ∀ (slot : Nat) (state : State), s.slots[slot]? = some state →
    ∃ later : State, (s.after step).slots[slot]? = some later ∧ state.values <+: later.values
  run : ∀ slot statement next answer, step = .run slot statement → s.step step = .ok (next,answer) →
    answer ≠ .noResult → ∃ v, next.slots = s.slots ++ [(s.state slot).push v]
  advance : ∀ slot statement next answer, step = .advance slot statement → s.step step = .ok (next,answer) →
    answer ≠ .noResult → ∃ v, next.slots = s.slots.set slot ((s.state slot).push v)
  failed : ∀ e, s.step step = .error e → (s.after step).slots = s.slots
  undefined : ∀ next, s.step step = .ok (next,.noResult) → (s.after step).slots = s.slots

theorem keeps (s : Session) (step : Step) : Keeps s step where
  others _ _ h htarget := getElem?_after h htarget
  grows _ _ h := exists_prefix_after step h
  run := by
    rintro slot statement next answer rfl h hanswer
    obtain ⟨v,hv⟩ := exists_push_of_keepResult hanswer h
    cases hv
    exact ⟨v,rfl⟩
  advance := by
    rintro slot statement next answer rfl h hanswer
    obtain ⟨v,hv⟩ := exists_push_of_keepResult hanswer h
    cases hv
    exact ⟨v,rfl⟩
  failed _ h := by rw [after_of_error h]
  undefined next h := by
    rw [after_of_ok h]
    rcases step_cases h with hsame | ⟨_,_,_,hanswer⟩ | ⟨_,_,_,_,hanswer⟩
    · exact hsame
    · contradiction
    · contradiction

/-- Over any steps a state is only ever added to. -/
theorem exists_prefix_afterAll {slot : Nat} {state : State} (h : s.slots[slot]? = some state) (steps : List Step) :
    ∃ later, (s.afterAll steps).slots[slot]? = some later ∧ state.values <+: later.values := by
  induction steps generalizing s state with
  | nil => exact ⟨state,h,List.prefix_rfl⟩
  | cons step steps ih =>
    obtain ⟨mid,hmid,hgrows⟩ := exists_prefix_after step h
    obtain ⟨later,hlater,hgrows'⟩ := ih hmid
    rw [afterAll_cons]
    exact ⟨later,hlater,hgrows.trans hgrows'⟩

/-- Over any steps a state that none of them is directed at stays as it is. -/
theorem getElem?_afterAll {slot : Nat} {state : State} (h : s.slots[slot]? = some state) {steps : List Step}
    (htarget : ∀ step ∈ steps, step.target? ≠ some slot) : (s.afterAll steps).slots[slot]? = some state := by
  induction steps generalizing s with
  | nil => simpa using h
  | cons step steps ih =>
    have hmid := getElem?_after h (htarget step (by simp))
    rw [afterAll_cons]
    exact ih hmid fun other hother => htarget other (List.mem_cons_of_mem step hother)

/-- States are append-only, independent of each other and untouched by failure. Each step of a session leaves as it was
what it is not directed at, and what was in the state that it is directed at; this also holds of all its steps together,
so a variable that has a value keeps it. Even inside of a step, executing a statement changes the state that it works on
only if it has a result. -/
theorem slots_append_only (s : Session) (steps : List Step) :
    (∀ before step after, steps = before ++ step :: after → Keeps (s.afterAll before) step) ∧
    (∀ (slot : Nat) (state : State), s.slots[slot]? = some state →
      ((∀ step ∈ steps, step.target? ≠ some slot) → (s.afterAll steps).slots[slot]? = some state) ∧
      ∃ later : State, (s.afterAll steps).slots[slot]? = some later ∧ state.values <+: later.values ∧
        ∀ i v, state.get i = .ok v → later.get i = .ok v) ∧
    ∀ (c : Config) (statement : Statement) (state after : State) (answer : Except RunError Bool),
      ((statement.execute c).run.run state : Except RunError Bool × State) = (answer,after) →
        (answer = .ok true ∧ ∃ v, after = state.push v) ∨ (answer ≠ .ok true ∧ after = state) := by
  refine ⟨?_,?_,?_⟩
  · intro before step after _
    exact keeps _ step
  · intro slot state h
    obtain ⟨later,hlater,hgrows⟩ := exists_prefix_afterAll h steps
    exact ⟨getElem?_afterAll h,later,hlater,hgrows,fun i v => State.get_of_isPrefix hgrows⟩
  · intro c statement state after answer h
    exact Statement.execute_keeps h

end Session

/-! ## Reachable states -/

namespace State

/-- All values of a state are within bounds, and all its variables have 64-bit indices. -/
structure IsSound (state : State) : Prop where
  isValid : state.isValid = true
  length_le : state.length ≤ UInt64.size

theorem isSound_empty : empty.IsSound := ⟨rfl,Nat.zero_le _⟩

theorem isSound_of_ofTokens {tokens : List String} {state : State} (h : ofTokens tokens = .ok state) :
    state.IsSound := by
  obtain ⟨hlen,hvalid,-⟩ := ofTokens_eq_ok_iff.mp h
  exact ⟨hvalid,hlen⟩

/-- A statement sets the next variable, whose index is that of the statement, a 64-bit word. -/
theorem IsSound.step {c : Config} {state next : State} {s : Statement} (h : state.step c s = .done next)
    (hs : state.IsSound) : next.IsSound := by
  refine ⟨isValid_of_step h hs.isValid,?_⟩
  obtain ⟨v,rfl,hlhs,-⟩ := step_eq_done_iff.mp h
  rw [length_push,← hlhs]
  exact s.lhs.toNat_lt

/-- The inputs of a run are checked, so the state that it ends in is sound whatever they are. -/
theorem isSound_of_run {c : Config} {p : Program} {inputs : List Value} {state : State}
    (hp : p.numInputs ≤ UInt64.size) (h : p.run c inputs = .done state) : state.IsSound := by
  obtain ⟨hlen,hvalid,hsteps⟩ := Program.run_eq_done_iff.mp h
  have hinputs : (State.mk inputs).IsSound := ⟨List.all_eq_true.mpr hvalid,by rwa [length,hlen]⟩
  exact steps_invariant IsSound.step hsteps hinputs

end State

namespace Session

variable {s : Session} {step : Step}

/-- A step that puts no value into a state by hand. -/
def Step.IsDerived : Step → Prop
  | .add _ _ => False
  | .insert _ => False
  | _ => True

/-- The sessions that come about by reading, copying and running alone, under changing configurations. A program may
also be run on any values, as many as can be numbered; a text is read through its tokens. -/
inductive Reachable : Session → Prop
  | start (c : Config) : Reachable ⟨[],c⟩
  | step {s : Session} {step : Step} (hstep : step.IsDerived) (h : Reachable s) : Reachable (s.after step)
  | runOn {s : Session} {p : Program} {inputs : List Value} {state : State} (hp : p.numInputs ≤ UInt64.size)
      (hrun : p.run s.config inputs = .done state) (h : Reachable s) : Reachable (s.push state)

/-- All states of a session are sound. -/
def IsSound (s : Session) : Prop := ∀ state ∈ s.slots, state.IsSound

theorem IsSound.state (h : s.IsSound) (slot : Nat) : (s.state slot).IsSound := by
  cases hslot : s.slots[slot]? with
  | none =>
    rw [Session.state,List.getD_eq_getElem?_getD,hslot]
    exact State.isSound_empty
  | some state =>
    rw [state_of_getElem? hslot]
    exact h state (List.mem_of_getElem? hslot)

/-- A program that runs on the values of a sound state declares as many inputs as that state has variables. -/
theorem IsSound.runProgram {p : Program} {slot : Nat} {state : State} (h : s.IsSound)
    (hrun : p.run s.config (s.state slot).values = .done state) : state.IsSound := by
  obtain ⟨hlen,-,-⟩ := Program.run_eq_done_iff.mp hrun
  exact State.isSound_of_run (hlen ▸ (h.state slot).length_le) hrun

/-- Reading, copying and running keep all states sound. -/
theorem IsSound.after (hstep : step.IsDerived) (h : s.IsSound) : (s.after step).IsSound := by
  -- Reading and runs check what they make; only the two steps that put in a value by hand do not.
  intro state hstate
  rcases s.slots_after step with hsame | ⟨opened,hopens,hslots⟩ | ⟨slot,extended,hextends,hslots⟩
  · exact h state (hsame ▸ hstate)
  · rw [hslots,List.mem_append,List.mem_singleton] at hstate
    rcases hstate with hstate | rfl
    · exact h state hstate
    · cases hopens with
      | clone => exact h.state _
      | parse htokens => exact State.isSound_of_ofTokens htokens
      | insert => exact hstep.elim
      | run hrun => exact State.IsSound.step hrun (h.state _)
      | runProgram hrun => exact h.runProgram hrun
  · rw [hslots] at hstate
    rcases List.mem_or_eq_of_mem_set hstate with hstate | rfl
    · exact h state hstate
    · cases hextends with
      | add => exact hstep.elim
      | advance hrun => exact State.IsSound.step hrun (h.state _)

theorem Reachable.isSound (h : Reachable s) : s.IsSound := by
  induction h with
  | start c =>
    intro state hstate
    contradiction
  | step hstep _ ih => exact ih.after hstep
  | runOn hp hrun _ ih =>
    intro state hstate
    rw [push,List.mem_append,List.mem_singleton] at hstate
    rcases hstate with hstate | rfl
    · exact ih state hstate
    · exact State.isSound_of_run hp hrun

/-- Every state that reading, copying and running lead to has only integers within bounds, and is read back from its
tokens and from its text. -/
theorem reachable_reparses (h : Reachable s) {state : State} (hstate : state ∈ s.slots) :
    (∀ v ∈ state.values, ∀ n ∈ v.integers, n.toInt.natAbs ≤ 256) ∧
      State.ofTokens state.tokens = .ok state ∧ State.ofText state.text = .ok state := by
  obtain ⟨hvalid,hlen⟩ := h.isSound state hstate
  refine ⟨?_,State.ofTokens_tokens hlen hvalid,?_⟩
  · intro v hv n hn
    have hbound : inBounds n = true := List.all_eq_true.mp (State.isValid_iff.mp hvalid v hv) n hn
    exact of_decide_eq_true hbound
  · rw [State.ofText_text,State.ofTokens_tokens hlen hvalid]

/-- A list is read, doubled in place, and summed in a new slot. -/
theorem reachable_reparses_doubled :
    let read := (Session.mk [] {}).after (.parse ["x0","=","[","6",",","-07","]"])
    let doubled := read.after (.advance 0 ⟨1,.map,some .timesTwo,[0],rfl,rfl⟩)
    let summed := doubled.after (.run 0 ⟨2,.sum,none,[1],rfl,rfl⟩)
    let state := State.mk [.list [6,-7],.list [12,-14],.int (-2)]
    Reachable summed ∧ state ∈ summed.slots ∧ (∀ v ∈ state.values, ∀ n ∈ v.integers, n.toInt.natAbs ≤ 256) ∧
      State.ofTokens state.tokens = .ok state ∧ State.ofText state.text = .ok state := by
  intro read doubled summed state
  have hread : Reachable read := .step trivial (.start {})
  have hsummed : Reachable summed := .step trivial (.step trivial hread)
  have hstate : state ∈ summed.slots := by decide
  exact ⟨hsummed,hstate,reachable_reparses hsummed hstate⟩

end Session
end ListScript
