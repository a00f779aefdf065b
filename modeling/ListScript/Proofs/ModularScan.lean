import Mathlib.Data.Int.ModEq
import ListScript.Proofs.ExactArithmetic

/-!
# Running results under a modulus

Under a modulus each running result is computed from the residue before it. For sums, differences and products it is the
residue of the exact running result, as if nothing had been reduced on the way. The first integer of the list begins the
results unreduced, and may be negative.
-/
namespace ListScript

/-- The fold of a list of integers from the left, which starts with the first of them. -/
def exactFold (l : Lambda) : List Int → Int
  | [] => 0
  | x :: xs => xs.foldl l.exactBinary x

/-- The exact running result of a list at a position: the fold of the integers up to there. -/
def runningResult (l : Lambda) (xs : List Int64) (i : Nat) : Int := exactFold l ((xs.take (i+1)).map Int64.toInt)

/-! ## Congruence -/

/-- The lambdas that are compatible with taking residues. -/
def Lambda.ring : List Lambda := [.add,.subtract,.multiply]

variable {c : Config} {l : Lambda}

theorem Lambda.exactBinary_modEq (hl : l ∈ ring) {m a b : Int} (h : a ≡ b [ZMOD m]) (y : Int) :
    l.exactBinary a y ≡ l.exactBinary b y [ZMOD m] := by
  have hcases : l = .add ∨ l = .subtract ∨ l = .multiply := by simpa [ring] using hl
  rcases hcases with rfl | rfl | rfl
  · exact h.add_right y
  · exact h.sub_right y
  · exact h.mul_right y

theorem Config.residue_eq_emod (hc : c.modulo ≠ 0) (n : Int) : c.residue n = n % c.modulo.toNat := by
  rw [residue,if_neg hc,Int.fmod_eq_emod_of_nonneg n (Int.natCast_nonneg _)]

/-- Reducing the first operand does not change the residue. -/
theorem residue_exactBinary (hc : c.modulo ≠ 0) (hl : l ∈ Lambda.ring) (a y : Int) :
    c.residue (l.exactBinary (c.residue a) y) = c.residue (l.exactBinary a y) := by
  have hmod : c.residue a ≡ a [ZMOD c.modulo.toNat] := by
    rw [Config.residue_eq_emod hc]
    exact Int.mod_modEq a _
  rw [Config.residue_eq_emod hc,Config.residue_eq_emod hc (l.exactBinary a y)]
  exact Lambda.exactBinary_modEq hl hmod y

/-- Folding on from a residue, with a reduction at each step, comes to the residue of the exact fold. -/
theorem foldl_residue (hc : c.modulo ≠ 0) (hl : l ∈ Lambda.ring) (xs : List Int) (a : Int) :
    xs.foldl (fun acc y => c.residue (l.exactBinary acc y)) (c.residue a) = c.residue (xs.foldl l.exactBinary a) := by
  induction xs generalizing a with
  | nil => rfl
  | cons x xs ih =>
    rw [List.foldl_cons,List.foldl_cons,residue_exactBinary hc hl]
    exact ih _

/-! ## Rows -/

namespace Row

@[simp] theorem length_scan (xs : List Int) : (scan c l xs).length = xs.length := by
  cases xs <;> simp [scan]

theorem head?_scan (xs : List Int) : (scan c l xs).head? = xs.head? := by
  cases xs <;> simp [scan]

/-- The running results after the first are the residues of the exact ones. -/
theorem getElem?_scan (hc : c.modulo ≠ 0) (hl : l ∈ Lambda.ring) {xs : List Int} {i : Nat} (hi : 1 ≤ i)
    (hlen : i < xs.length) : (scan c l xs)[i]? = some (c.residue (exactFold l (xs.take (i+1)))) := by
  cases xs with
  | nil => contradiction
  | cons x xs =>
    rw [List.length_cons] at hlen
    rw [scan,List.getElem?_scanl,if_pos (by omega)]
    -- At a position after the first, the list has an integer with which the first result has been reduced.
    obtain ⟨k,rfl⟩ := Nat.exists_eq_add_of_le' hi
    cases xs with
    | nil =>
      rw [List.length_nil] at hlen
      omega
    | cons y xs => exact congrArg some (foldl_residue hc hl (xs.take k) (l.exactBinary x y))

/-- A row of running results is within the bound if its first integer is and so are the residues of the others. -/
theorem forall_mem_scan_iff (hc : c.modulo ≠ 0) (hl : l ∈ Lambda.ring) {x : Int} {xs : List Int} :
    (∀ n ∈ scan c l (x :: xs), n.natAbs ≤ bound) ↔ x.natAbs ≤ bound ∧ ∀ i, 1 ≤ i → i < (x :: xs).length →
      c.residue (exactFold l ((x :: xs).take (i+1))) ≤ bound := by
  have hres : ∀ n, c.residue n ≤ bound ↔ (c.residue n).natAbs ≤ bound := by
    intro n
    have hrange := Config.reduce_range hc n
    rw [Config.reduce_eq_residue] at hrange
    omega
  constructor
  · intro h
    refine ⟨h x (List.mem_of_mem_head? ((head?_scan _).trans rfl)),?_⟩
    intro i hi hlen
    exact (hres _).mpr (h _ (List.mem_of_getElem? (getElem?_scan hc hl hi hlen)))
  · rintro ⟨hfirst,hrest⟩ n hn
    obtain ⟨i,hi⟩ := List.mem_iff_getElem?.mp hn
    have hlen : i < (x :: xs).length := by
      obtain ⟨hlen,-⟩ := List.getElem?_eq_some_iff.mp hi
      rwa [length_scan] at hlen
    cases i with
    | zero =>
      rw [← List.head?_eq_getElem?,head?_scan] at hi
      cases hi
      exact hfirst
    | succ i =>
      rw [getElem?_scan hc hl (Nat.le_add_left 1 i) hlen] at hi
      cases hi
      exact (hres _).mp (hrest _ (Nat.le_add_left 1 i) hlen)

end Row

/-- The words of a row of running results are as many as those of the list and begin with the same one. -/
theorem length_head?_of_scan {xs ws : List Int64} (h : ws.map Int64.toInt = Row.scan c l (xs.map Int64.toInt)) :
    ws.length = xs.length ∧ ws.head? = xs.head? := by
  constructor
  · simpa using congrArg List.length h
  · have hhead : ws.head?.map Int64.toInt = xs.head?.map Int64.toInt := by
      rw [← List.head?_map,← List.head?_map,h,Row.head?_scan]
    exact Option.map_injective (fun _ _ => Int64.toInt_inj.mp) hhead

/-- After the first, the words of a row of running results are residues. -/
theorem words_of_scan (hc : c.modulo ≠ 0) (hl : l ∈ Lambda.ring) {xs ws : List Int64}
    (h : ws.map Int64.toInt = Row.scan c l (xs.map Int64.toInt)) {i : Nat} {n : Int64} (hi : 1 ≤ i)
    (hn : ws[i]? = some n) : n.toInt = c.residue (runningResult l xs i) := by
  have hlt : i < (xs.map Int64.toInt).length := by
    obtain ⟨hlt,-⟩ := List.getElem?_eq_some_iff.mp hn
    simpa [(length_head?_of_scan h).1] using hlt
  have hentry : (ws.map Int64.toInt)[i]? = some n.toInt := by rw [List.getElem?_map,hn]; rfl
  rw [h,Row.getElem?_scan hc hl hi hlt,← List.map_take] at hentry
  exact (Option.some.inj hentry).symm

namespace Operation

/-- Under a modulus, the running results of sums, differences or products are those of exact arithmetic, reduced once. They
are a result exactly if the list is empty, or its first integer is within the bound and so is the residue of each exact
running result after it. The first integer stands as it is, and the others are the residues. -/
theorem modular_scan_reduces_once (hc : c.modulo ≠ 0) (hl : l = .add ∨ l = .subtract ∨ l = .multiply) (xs : List Int64) :
    ((∃ v, apply c .scanl1 [.lambda l,.value (.list xs)] = .done v) ↔
      xs = [] ∨ (∃ x, xs.head? = some x ∧ inBounds x = true) ∧
        ∀ i, 1 ≤ i → i < xs.length → (runningResult l xs i).fmod c.modulo.toNat ≤ bound) ∧
    (∀ v, apply c .scanl1 [.lambda l,.value (.list xs)] = .done v →
      ∃ out, v = .list out ∧ out.length = xs.length ∧ out.head? = xs.head? ∧
        ∀ i n, 1 ≤ i → out[i]? = some n → n.toInt = (runningResult l xs i).fmod c.modulo.toNat) ∧
    ((¬ ∃ v, apply c .scanl1 [.lambda l,.value (.list xs)] = .done v) →
      apply c .scanl1 [.lambda l,.value (.list xs)] = .undefined) := by
  have hring : l ∈ Lambda.ring := by simpa [Lambda.ring] using hl
  have hclass : l.lambdaClass = .intIntToInt := by rcases hl with rfl | rfl | rfl <;> rfl
  have hfmod : ∀ n, c.residue n = n.fmod c.modulo.toNat := fun n => if_neg hc
  rw [apply_scanl1 hclass]
  simp only [← hfmod]
  refine ⟨?_,?_,?_⟩
  · rw [Row.exists_outcome_eq_done_iff]
    cases xs with
    | nil => simp [Row.scan]
    | cons x xs =>
      rw [List.map_cons,Row.forall_mem_scan_iff hc hring,← List.map_cons]
      simp [inBounds,runningResult,List.map_take]
  · intro v hv
    obtain ⟨-,out,rfl,hout⟩ := Row.outcome_eq_done_iff.mp hv
    obtain ⟨hlen,hhead⟩ := length_head?_of_scan hout
    exact ⟨out,rfl,hlen,hhead,fun i n hi hn => words_of_scan hc hring hout hi hn⟩
  · exact Row.outcome_eq_undefined

/-- Running products of -3 and twice the greatest word, under the modulus 10: the exact ones leave every machine width, and
their residues are 9 and 3. -/
theorem modular_scan_reduces_once_products :
    let xs := [-3,Int64.maxValue,Int64.maxValue]
    (Config.mk 10).modulo ≠ 0 ∧ apply ⟨10⟩ .scanl1 [.lambda .multiply,.value (.list xs)] = .done (.list [-3,9,3]) ∧
      runningResult .multiply xs 2 = -3 * (2^63-1)^2 ∧
      ∀ i, 1 ≤ i → i < xs.length → (runningResult .multiply xs i).fmod (10 : UInt32).toNat ≤ bound := by
  intro xs
  have hmodulo : (Config.mk 10).modulo ≠ 0 := by decide
  have hrun : apply ⟨10⟩ .scanl1 [.lambda .multiply,.value (.list xs)] = .done (.list [-3,9,3]) := by decide
  obtain ⟨hiff,-⟩ := modular_scan_reduces_once hmodulo (.inr (.inr rfl)) xs
  exact ⟨hmodulo,hrun,by decide,((hiff.mp ⟨_,hrun⟩).resolve_left (by simp [xs])).2⟩

end Operation
end ListScript
