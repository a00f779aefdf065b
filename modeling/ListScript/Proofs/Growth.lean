import ListScript.Proofs.Placement
import ListScript.Proofs.Totals

/-!
# Sizes of lists in a run

Every operation works on a list, and none of them makes a list longer than all those that it works on. A run therefore
never grows a list, and it has no statement to run if no input is a list. As the integers of a run are within bounds, the
running total of a sum stays far below the 64-bit range unless an input is enormous.
-/
namespace ListScript
open Reading

/-! ## Lists among operands -/

/-- The lists among the operands for some slots. -/
def Operands.lists : (slots : List Slot) → Operands slots → List (List Int64)
  | [], _ => []
  | .lambda _ :: slots, (_,rest) => lists slots rest
  | .value .int :: slots, (_,rest) => lists slots rest
  | .value .list :: slots, (xs,rest) => xs :: lists slots rest

namespace Operation

variable {c : Config} {op : Operation}

/-- A list among the operands was an argument. -/
theorem mem_of_mem_lists {position : Nat} {slots : List Slot} {args : List Argument}
    {hlen : args.length = slots.length} {operands : Operands slots}
    (h : op.operandsFrom position slots args hlen = .ok operands) {xs : List Int64}
    (hxs : xs ∈ operands.lists) : .value (.list xs) ∈ args := by
  induction slots generalizing position args with
  | nil => contradiction
  | cons slot slots ih =>
    obtain ⟨arg,rest,hrest,rfl,hx,hops⟩ := operandsFrom_cons_eq_ok h
    rcases slot with lambdaClass | kind
    · exact List.mem_cons_of_mem arg (ih hops hxs)
    · cases kind with
      | int => exact List.mem_cons_of_mem arg (ih hops hxs)
      | list =>
        rcases List.mem_cons.mp hxs with rfl | hxs
        · exact Slot.eq_of_operand?_list hx ▸ List.mem_cons_self
        · exact List.mem_cons_of_mem arg (ih hops hxs)

/-! ## Lengths of results -/

theorem length_of_mapM {α β : Type} {f : α → Option β} {xs : List α} {ys : List β} (h : xs.mapM f = some ys) :
    ys.length = xs.length := by
  induction xs generalizing ys with
  | nil =>
    cases h
    rfl
  | cons x xs ih =>
    rw [List.mapM_cons] at h
    obtain ⟨y,-,h⟩ := Option.bind_eq_some_iff.mp h
    obtain ⟨rest,hrest,h⟩ := Option.bind_eq_some_iff.mp h
    cases h
    rw [List.length_cons,List.length_cons,ih hrest]

theorem length_of_scanFrom {f : Int64 → Int64 → Option Int64} {acc : Int64} {xs ys : List Int64}
    (h : scan.scanFrom f acc xs = some ys) : ys.length = xs.length := by
  induction xs generalizing acc ys with
  | nil =>
    cases h
    rfl
  | cons x xs ih =>
    rw [scan.scanFrom] at h
    obtain ⟨next,-,h⟩ := Option.bind_eq_some_iff.mp h
    obtain ⟨rest,hrest,h⟩ := Option.bind_eq_some_iff.mp h
    cases h
    rw [List.length_cons,List.length_cons,ih hrest]

theorem length_of_scan {f : Int64 → Int64 → Option Int64} {xs ys : List Int64} (h : scan f xs = some ys) :
    ys.length = xs.length := by
  cases xs with
  | nil =>
    cases h
    rfl
  | cons x xs =>
    obtain ⟨rest,hrest,rfl⟩ := Option.map_eq_some_iff.mp h
    rw [List.length_cons,List.length_cons,length_of_scanFrom hrest]

/-- What bounds the length of a list result. -/
theorem length_le_of_some {zs xs : List Int64} {v : Value} (h : some (.list zs) = some v)
    (hlen : zs.length ≤ xs.length) : ∀ ys, v = .list ys → ys.length ≤ xs.length := by
  rintro ys rfl
  obtain rfl := Value.list.inj (Option.some.inj h)
  exact hlen

theorem length_le_of_map {o : Option (List Int64)} {xs : List Int64} {v : Value} (h : Value.list <$> o = some v)
    (hlen : ∀ zs, o = some zs → zs.length ≤ xs.length) : ∀ ys, v = .list ys → ys.length ≤ xs.length := by
  obtain ⟨zs,hzs,rfl⟩ := Option.map_eq_some_iff.mp h
  exact length_le_of_some rfl (hlen zs hzs)

/-- An operation has a list among its operands that is at least as long as its result. -/
theorem exists_list_of_result {operands : Operands op.slots} {v : Value} (h : op.result c operands = some v) :
    ∃ xs ∈ operands.lists, ∀ ys, v = .list ys → ys.length ≤ xs.length := by
  have hkind := kind_result h
  have hint : op.output = .int → ∀ ys, v ≠ .list ys := by
    rintro hop ys rfl
    rw [hop] at hkind
    contradiction
  cases op with
  | head | last | maximum | minimum | sum =>
    obtain ⟨xs,_⟩ := operands
    exact ⟨xs,List.mem_cons_self,fun ys hys => absurd hys (hint rfl ys)⟩
  | access | count =>
    obtain ⟨_,xs,_⟩ := operands
    exact ⟨xs,List.mem_cons_self,fun ys hys => absurd hys (hint rfl ys)⟩
  | take =>
    obtain ⟨n,xs,_⟩ := operands
    exact ⟨xs,List.mem_cons_self,length_le_of_some h (List.length_take_le' _ xs)⟩
  | drop =>
    obtain ⟨n,xs,_⟩ := operands
    exact ⟨xs,List.mem_cons_self,length_le_of_some h (by simp)⟩
  | reverse | sort =>
    obtain ⟨xs,_⟩ := operands
    exact ⟨xs,List.mem_cons_self,length_le_of_some h (by simp)⟩
  | filter =>
    obtain ⟨p,xs,_⟩ := operands
    exact ⟨xs,List.mem_cons_self,length_le_of_some h (List.length_filter_le _ xs)⟩
  | map =>
    obtain ⟨f,xs,_⟩ := operands
    exact ⟨xs,List.mem_cons_self,length_le_of_map h fun zs hzs => Nat.le_of_eq (length_of_mapM hzs)⟩
  | zipWith =>
    obtain ⟨f,xs,ys,_⟩ := operands
    refine ⟨xs,List.mem_cons_self,length_le_of_map h ?_⟩
    intro zs hzs
    rw [length_of_mapM hzs,List.length_zip]
    exact Nat.min_le_left _ _
  | scanl1 =>
    obtain ⟨f,xs,_⟩ := operands
    exact ⟨xs,List.mem_cons_self,length_le_of_map h fun zs hzs => Nat.le_of_eq (length_of_scan hzs)⟩

/-- Whatever an operation results in, one of its arguments was a list, and at least as long. -/
theorem exists_list_of_apply {args : List Argument} {v : Value} (h : op.apply c args = .done v) :
    ∃ xs, .value (.list xs) ∈ args ∧ ∀ ys, v = .list ys → ys.length ≤ xs.length := by
  obtain ⟨operands,hoperands,hresult,-⟩ := apply_eq_done_iff.mp h
  obtain ⟨xs,hxs,hlen⟩ := exists_list_of_result hresult
  rw [Operation.operands] at hoperands
  split at hoperands
  · exact ⟨xs,mem_of_mem_lists hoperands hxs,hlen⟩
  · contradiction

end Operation

/-! ## Runs -/

/-- No list of a state is longer than all those among some inputs. -/
def State.KeepsWithin (inputs : List Value) (state : State) : Prop :=
  ∀ xs, .list xs ∈ state.values → ∃ ys, .list ys ∈ inputs ∧ xs.length ≤ ys.length

theorem Statement.mem_of_mem_argumentsIn {s : Statement} {values : List Value} {v : Value}
    (h : .value v ∈ s.argumentsIn values) : v ∈ values := by
  rw [argumentsIn,List.mem_append,List.mem_map,List.mem_map] at h
  rcases h with ⟨l,-,hl⟩ | ⟨w,hw,hv⟩
  · contradiction
  · obtain rfl := Argument.value.inj hv
    obtain ⟨arg,-,harg⟩ := List.mem_filterMap.mp hw
    exact List.mem_of_getElem? harg

namespace State

variable {c : Config} {state next : State} {s : Statement} {inputs : List Value}

/-- A statement has a value only in a state with a list that is at least as long. -/
theorem exists_list_of_step (h : state.step c s = .done next) : ∃ v xs, next = state.push v ∧
    .list xs ∈ state.values ∧ ∀ ys, v = .list ys → ys.length ≤ xs.length := by
  obtain ⟨v,hnext,-,-,hv⟩ := step_eq_done_iff.mp h
  obtain ⟨xs,hxs,hlen⟩ := Operation.exists_list_of_apply hv
  exact ⟨v,xs,hnext,Statement.mem_of_mem_argumentsIn hxs,hlen⟩

theorem KeepsWithin.step (h : state.step c s = .done next) (hs : state.KeepsWithin inputs) :
    next.KeepsWithin inputs := by
  obtain ⟨v,xs,rfl,hxs,hlen⟩ := exists_list_of_step h
  intro zs hzs
  rw [push,List.mem_append,List.mem_singleton] at hzs
  rcases hzs with hzs | hzs
  · exact hs zs hzs
  · obtain ⟨ys,hys,hle⟩ := hs xs hxs
    exact ⟨ys,hys,Nat.le_trans (hlen zs hzs.symm) hle⟩

theorem keepsWithin_of_steps {ss : List Statement} (h : (State.mk inputs).steps c ss = .done next) :
    next.KeepsWithin inputs := by
  apply steps_invariant _ h
  · intro xs hxs
    exact ⟨xs,hxs,Nat.le_refl _⟩
  · intro state next s hstep
    exact KeepsWithin.step hstep

/-- Without a list in the state, no statement has a value. -/
theorem eq_nil_of_steps {ss : List Statement} (h : state.steps c ss = .done next)
    (hno : ∀ xs, .list xs ∉ state.values) : ss = [] := by
  cases ss with
  | nil => rfl
  | cons s ss =>
    obtain ⟨mid,hmid,-⟩ := Outcome.bind_eq_done_iff.mp h
    obtain ⟨v,xs,-,hxs,-⟩ := exists_list_of_step hmid
    exact absurd hxs (hno xs)

end State

/-! ## Sums -/

namespace Operation

/-- The sum of a list that is not too long and within bounds is exact, and a result exactly if it is within bounds. -/
theorem apply_sum (c : Config) {xs : List Int64} (hxs : ∀ x ∈ xs, inBounds x = true) (hlen : xs.length < 2^55) :
    ∃ total, xs.foldlM exactAdd 0 = some total ∧ total.toInt = (xs.map Int64.toInt).sum ∧
      apply c .sum [.value (.list xs)] =
        if (xs.map Int64.toInt).sum.natAbs ≤ 256 then .done (.int total) else .undefined := by
  have hfit := totalsFit_of_inBounds hxs hlen
  refine ⟨Int64.ofInt (total xs),?_,toInt_ofInt_of_fits hfit.total,apply_sum_of_totalsFit c hfit⟩
  rw [foldlM_exactAdd_zero,if_pos hfit]

end Operation

/-- The only argument of a well placed sum is a list. -/
theorem Statement.argumentsIn_of_sum {s : Statement} {state : State} (hs : s.WellPlaced state.kinds)
    (hsum : s.operation = .sum) : ∃ xs, s.argumentsIn state.values = [.value (.list xs)] := by
  have hlambda : s.lambda = none := by
    have h := s.lambda_fits
    rw [hsum] at h
    exact Option.map_eq_none_iff.mp h
  have hkinds : (s.select state.values).map Value.kind = [.list] := by
    rw [← select_map,← State.kinds,hs.fits,hsum]
    rfl
  obtain ⟨v,hv,hkind⟩ := List.map_eq_singleton_iff.mp hkinds
  cases v with
  | int n => contradiction
  | list xs => exact ⟨xs,by rw [argumentsIn,hlambda,hv]; rfl⟩

/-- What a sum comes to in a valid state whose lists are not too long. -/
theorem State.step_sum {c : Config} {state : State} {s : Statement} (hvalid : state.isValid = true)
    (hlen : ∀ xs, .list xs ∈ state.values → xs.length < 2^55) (hs : s.WellPlaced state.kinds)
    (hsum : s.operation = .sum) : ∃ xs total, s.argumentsIn state.values = [.value (.list xs)] ∧
      xs.foldlM Operation.exactAdd 0 = some total ∧ total.toInt = (xs.map Int64.toInt).sum ∧
      state.step c s =
        if (xs.map Int64.toInt).sum.natAbs ≤ 256 then .done (state.push (.int total)) else .undefined := by
  obtain ⟨xs,hxs⟩ := Statement.argumentsIn_of_sum hs hsum
  have hmem : .list xs ∈ state.values := Statement.mem_of_mem_argumentsIn (s := s) (by rw [hxs]; simp)
  have hbounds : ∀ x ∈ xs, inBounds x = true := List.all_eq_true.mp (List.all_eq_true.mp hvalid _ hmem)
  obtain ⟨total,htotal,hexact,happly⟩ := Operation.apply_sum c hbounds (hlen xs hmem)
  refine ⟨xs,total,hxs,htotal,hexact,?_⟩
  rw [step_eq,Statement.evaluate_of_defined (by simpa using hs.lhs) (by simpa using hs.defined),hsum,hxs,happly]
  split <;> rfl

namespace Program

/-- A run grows no list: each list of the state that it ends in is at most as long as some list among the inputs, and
without a list among the inputs the program has no statement. Hence, when all lists among the inputs have fewer than 2^55
elements, a sum that is reached in a run is exact: the running total does not leave the 64-bit range, and the sum is the
value of the statement if it is within bounds, which otherwise has none. A sum that is not well placed is a fault. -/
theorem lists_do_not_grow (c : Config) (p : Program) (inputs : List Value) :
    (∀ st, p.run c inputs = .done st →
      (∀ xs, .list xs ∈ st.values → ∃ ys, .list ys ∈ inputs ∧ xs.length ≤ ys.length) ∧
      ((∀ ys, .list ys ∉ inputs) → p.statements = [])) ∧
    ((∀ ys, .list ys ∈ inputs → ys.length < 2^55) → ∀ before s after mid, p.statements = before ++ s :: after →
      run c ⟨p.numInputs,before⟩ inputs = .done mid → s.operation = .sum →
      (s.WellPlaced mid.kinds → ∃ xs total, s.argumentsIn mid.values = [.value (.list xs)] ∧
        xs.foldlM Operation.exactAdd 0 = some total ∧ total.toInt = (xs.map Int64.toInt).sum ∧
        mid.step c s =
          if (xs.map Int64.toInt).sum.natAbs ≤ 256 then .done (mid.push (.int total)) else .undefined) ∧
      (¬ s.WellPlaced mid.kinds → ∃ e, mid.step c s = .fault e)) := by
  constructor
  · intro st h
    obtain ⟨-,-,hsteps⟩ := run_eq_done_iff.mp h
    exact ⟨State.keepsWithin_of_steps hsteps,State.eq_nil_of_steps hsteps⟩
  · intro hlen before s after mid _ hmid hsum
    obtain ⟨-,hinputs,hsteps⟩ := run_eq_done_iff.mp hmid
    have hvalid : mid.isValid = true := State.isValid_of_steps hsteps (List.all_eq_true.mpr hinputs)
    refine ⟨fun hs => State.step_sum hvalid ?_ hs hsum,?_⟩
    · intro xs hxs
      obtain ⟨ys,hys,hle⟩ := State.keepsWithin_of_steps hsteps xs hxs
      exact Nat.lt_of_le_of_lt hle (hlen ys hys)
    · intro hs
      obtain ⟨e,he⟩ := (Statement.wellPlaced_or_misplaced mid.kinds s).resolve_left hs
      exact ⟨e,State.step_of_misplaced he⟩

end Program
end ListScript
