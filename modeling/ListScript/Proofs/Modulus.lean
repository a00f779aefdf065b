import ListScript.Proofs.Execution

/-!
# What the modulus acts on

The modulus of a configuration acts on the numbers that arithmetic lambdas compute and on nothing else. It leaves those
alone that lie between zero and the modulus.
-/
namespace ListScript

namespace Config

/-- An integer between zero and the modulus. -/
def InRange (c : Config) (n : Int64) : Prop := 0 ≤ n.toInt ∧ n.toInt < c.modulo.toNat

/-- A number that is narrowed to a word in the range of a modulus is narrowed to that word under the modulus. -/
theorem narrow?_of_inRange {c : Config} {n : Int} {w : Int64} (h : narrow? {} n = some w) (hw : c.InRange w) :
    c.narrow? n = some w := by
  obtain rfl : w.toInt = n := exactInt64?_eq_some_iff.mp h
  have hreduce : c.reduce w.toInt = w.toInt := by
    unfold reduce
    split
    · rfl
    · exact Int.emod_eq_of_lt hw.1 hw.2
  rw [narrow?,hreduce]
  exact h

end Config

namespace Operation

variable {op : Operation}

/-- The operations that apply an arithmetic lambda. -/
def arithmetic : List Operation := [map,zipWith,scanl1]

/-- The integers in a result of an operation that an arithmetic lambda has computed. The first of a row of running
results stands as it was. -/
def computed : Operation → Value → List Int64
  | map, v | zipWith, v => v.integers
  | scanl1, v => v.integers.tail
  | _, _ => []

/-! ## Operations without an arithmetic lambda -/

theorem result_congr (h : op ∉ arithmetic) (c c' : Config) (operands : Operands op.slots) :
    op.result c operands = op.result c' operands := by
  cases op with
  | map | zipWith | scanl1 => exact absurd (by decide) h
  | head | last | take | drop | access | maximum | minimum | reverse | sort | sum | filter | count => rfl

theorem apply_congr (h : op ∉ arithmetic) (c c' : Config) (args : List Argument) :
    op.apply c args = op.apply c' args := by
  simp only [apply,validResult,result_congr h c c']

/-! ## Results within the range of the modulus -/

/-- Items that are mapped successfully are mapped to the same by a function that agrees on the results. -/
theorem mapM_of_agree {α β : Type} {f g : α → Option β} {xs : List α} {ys : List β} (h : xs.mapM f = some ys)
    (hfg : ∀ x, ∀ y ∈ ys, f x = some y → g x = some y) : xs.mapM g = some ys := by
  induction xs generalizing ys with
  | nil => exact h
  | cons x xs ih =>
    rw [List.mapM_cons] at h ⊢
    obtain ⟨y,hy,h⟩ := Option.bind_eq_some_iff.mp h
    obtain ⟨rest,hrest,h⟩ := Option.bind_eq_some_iff.mp h
    cases h
    rw [hfg x y List.mem_cons_self hy,ih hrest fun x z hz => hfg x z (List.mem_cons_of_mem y hz)]
    rfl

theorem scanFrom_of_agree {f g : Int64 → Int64 → Option Int64} {acc : Int64} {xs ys : List Int64}
    (h : scan.scanFrom f acc xs = some ys) (hfg : ∀ acc x, ∀ y ∈ ys, f acc x = some y → g acc x = some y) :
    scan.scanFrom g acc xs = some ys := by
  induction xs generalizing acc ys with
  | nil => exact h
  | cons x xs ih =>
    rw [scan.scanFrom] at h ⊢
    obtain ⟨y,hy,h⟩ := Option.bind_eq_some_iff.mp h
    obtain ⟨rest,hrest,h⟩ := Option.bind_eq_some_iff.mp h
    cases h
    rw [hfg acc x y List.mem_cons_self hy,Option.bind_eq_bind,Option.bind_some,
      ih hrest fun acc x z hz => hfg acc x z (List.mem_cons_of_mem y hz)]
    rfl

/-- A result without a modulus is also the result under a modulus in whose range the computed integers are. -/
theorem result_of_inRange {c : Config} {operands : Operands op.slots} {v : Value} (h : op.result {} operands = some v)
    (hrange : ∀ n ∈ op.computed v, c.InRange n) : op.result c operands = some v := by
  cases op with
  | head | last | take | drop | access | maximum | minimum | reverse | sort | sum | filter | count => exact h
  | map =>
    obtain ⟨f,xs,_⟩ := operands
    obtain ⟨ys,hys,rfl⟩ := Option.map_eq_some_iff.mp h
    have hmap := mapM_of_agree hys fun x y hy hx => Config.narrow?_of_inRange hx (hrange y hy)
    exact Option.map_eq_some_iff.mpr ⟨ys,hmap,rfl⟩
  | zipWith =>
    obtain ⟨f,xs,ys,_⟩ := operands
    obtain ⟨zs,hzs,rfl⟩ := Option.map_eq_some_iff.mp h
    have hmap := mapM_of_agree hzs fun x y hy hx => Config.narrow?_of_inRange hx (hrange y hy)
    exact Option.map_eq_some_iff.mpr ⟨zs,hmap,rfl⟩
  | scanl1 =>
    obtain ⟨f,xs,_⟩ := operands
    obtain ⟨ys,hys,rfl⟩ := Option.map_eq_some_iff.mp h
    refine Option.map_eq_some_iff.mpr ⟨ys,?_,rfl⟩
    cases xs with
    | nil => exact hys
    | cons x xs =>
      obtain ⟨rest,hrest,rfl⟩ := Option.map_eq_some_iff.mp hys
      have hscan := scanFrom_of_agree hrest fun acc x y hy hx => Config.narrow?_of_inRange hx (hrange y hy)
      exact Option.map_eq_some_iff.mpr ⟨rest,hscan,rfl⟩

theorem apply_of_inRange {c : Config} {args : List Argument} {v : Value} (h : op.apply {} args = .done v)
    (hrange : ∀ n ∈ op.computed v, c.InRange n) : op.apply c args = .done v := by
  obtain ⟨operands,hoperands,hresult,hvalid⟩ := apply_eq_done_iff.mp h
  exact apply_eq_done_iff.mpr ⟨operands,hoperands,result_of_inRange hresult hrange,hvalid⟩

end Operation

/-! ## Runs -/

theorem State.step_congr {s : Statement} (h : s.operation ∉ Operation.arithmetic) (c c' : Config) (state : State) :
    state.step c s = state.step c' s := by
  rw [step_eq,step_eq,Statement.evaluate,Statement.evaluate]
  simp only [Operation.apply_congr h c c']

theorem State.steps_congr {ss : List Statement} (h : ∀ s ∈ ss, s.operation ∉ Operation.arithmetic) (c c' : Config)
    (state : State) : state.steps c ss = state.steps c' ss := by
  induction ss generalizing state with
  | nil => rw [steps_nil,steps_nil]
  | cons s ss ih =>
    have hrest := ih fun t ht => h t (List.mem_cons_of_mem s ht)
    rw [steps_cons,steps_cons,step_congr (h s List.mem_cons_self) c c']
    simp only [hrest]

/-- A trace without a modulus is a trace under a modulus in whose range its computed integers are. -/
theorem IsTrace.of_inRange {c : Config} {inputs : List Value} {ss : List Statement} {results : List Value}
    (h : IsTrace {} inputs ss results) (hrange : ∀ (k : Nat) (s : Statement) v, ss[k]? = some s → results[k]? = some v →
      ∀ n ∈ s.operation.computed v, c.InRange n) : IsTrace c inputs ss results where
  length_eq := h.length_eq
  lhs := h.lhs
  defined := h.defined
  result k s v hs hv := Operation.apply_of_inRange (h.result k s v hs hv) (hrange k s v hs hv)

namespace Program

/-- The modulus acts only through arithmetic lambdas. A program without an operation that applies one has the same outcome
under every configuration. And a state that a program ends in without a modulus is the state that it ends in under a
modulus, provided that all integers in it that were computed by an arithmetic lambda lie between zero and the modulus. -/
theorem modulus_acts_on_computed_integers (p : Program) (inputs : List Value) :
    ((∀ s ∈ p.statements, s.operation ∉ Operation.arithmetic) → ∀ c c' : Config, p.run c inputs = p.run c' inputs) ∧
    ∀ (c : Config) (st : State), p.run {} inputs = .done st →
      (∀ (k : Nat) (s : Statement) v, p.statements[k]? = some s → st.values[p.numInputs + k]? = some v →
        ∀ n ∈ s.operation.computed v, c.InRange n) → p.run c inputs = .done st := by
  constructor
  · intro h c c'
    rw [run,run,State.executeAll_outcome,State.executeAll_outcome,State.steps_congr h c c']
  · intro c st h hrange
    obtain ⟨hlen,hvalid,hsteps⟩ := run_eq_done_iff.mp h
    obtain ⟨results,htrace,hst⟩ := State.steps_eq_done_iff.mp hsteps
    refine run_eq_done_iff.mpr ⟨hlen,hvalid,State.steps_eq_done_iff.mpr ⟨results,?_,hst⟩⟩
    apply htrace.of_inRange
    intro k s v hs hv
    apply hrange k s v hs
    -- The result number `k` is the value of the variable that the statement sets.
    rw [hst,← hlen,List.getElem?_append_right (Nat.le_add_right _ k),Nat.add_sub_cancel_left]
    exact hv

/-- Selecting from a list is the same under the modulus 7 as under the modulus 10, however large the integers are. Running
sums that lie below 10 are the same under the modulus 10 as without one, after a first integer that is negative. -/
theorem modulus_acts_on_computed_integers_running_sum :
    let select : Program := ⟨1,[⟨1,.filter,some .isEven,[0],rfl,rfl⟩,⟨2,.maximum,none,[1],rfl,rfl⟩]⟩
    let sums : Program := ⟨1,[⟨1,.scanl1,some .add,[0],rfl,rfl⟩]⟩
    let st := State.mk [.list [-3,5,1],.list [-3,2,3]]
    (∀ s ∈ select.statements, s.operation ∉ Operation.arithmetic) ∧
      select.run ⟨7⟩ [.list [-13,42,8]] = select.run ⟨10⟩ [.list [-13,42,8]] ∧
      sums.run {} [.list [-3,5,1]] = .done st ∧
      (∀ (k : Nat) (s : Statement) v, sums.statements[k]? = some s → st.values[sums.numInputs + k]? = some v →
        ∀ n ∈ s.operation.computed v, (Config.mk 10).InRange n) ∧
      sums.run ⟨10⟩ [.list [-3,5,1]] = .done st := by
  intro select sums st
  have hselect : ∀ s ∈ select.statements, s.operation ∉ Operation.arithmetic := by decide
  have hrun : sums.run {} [.list [-3,5,1]] = .done st := by decide
  have hrange : ∀ (k : Nat) (s : Statement) v, sums.statements[k]? = some s → st.values[sums.numInputs + k]? = some v →
      ∀ n ∈ s.operation.computed v, (Config.mk 10).InRange n := by
    intro k s v hs hv
    obtain ⟨rfl,rfl⟩ : k = 0 ∧ _ = s := by simpa [sums,List.getElem?_singleton] using hs
    obtain rfl : Value.list [-3,2,3] = v := by simpa [sums,st] using hv
    intro n hn
    obtain rfl | rfl : n = 2 ∨ n = 3 := by simpa [Operation.computed,Value.integers] using hn
    · exact ⟨by decide,by decide⟩
    · exact ⟨by decide,by decide⟩
  exact ⟨hselect,(modulus_acts_on_computed_integers select _).1 hselect ⟨7⟩ ⟨10⟩,hrun,hrange,
    (modulus_acts_on_computed_integers sums _).2 ⟨10⟩ st hrun hrange⟩

end Program
end ListScript
