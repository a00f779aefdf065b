import Mathlib.Data.Int.ModEq
import ListScript.Proofs.ListResults

/-!
# Exact arithmetic

An operation with an arithmetic lambda computes one integer after another, narrows each to a word, and stops at the first
that does not fit. What comes of it is what comes of a row of unbounded integers that is compared with the bound once, at
the end. Words of 128 bits are wide enough for everything that is computed on the way.
-/
namespace ListScript

/-- The integers of a signed word of 64 bits. -/
def FitsInt64 (n : Int) : Prop := -2^63 ≤ n ∧ n < 2^63

/-- The integers of a signed word of 128 bits. -/
def FitsInt128 (n : Int) : Prop := -2^127 ≤ n ∧ n < 2^127

/-- The floor residue of a number under the modulus of a configuration, or the number itself when the modulus is off. -/
def Config.residue (c : Config) (n : Int) : Int := if c.modulo = 0 then n else n.fmod c.modulo.toNat

/-- What a lambda of one integer makes of it. Division rounds to the floor. Other lambdas leave it as it is. -/
def Lambda.exactUnary : Lambda → Int → Int
  | plusOne, x => x + 1
  | minusOne, x => x - 1
  | timesTwo, x => 2 * x
  | divTwo, x => x.fdiv 2
  | negate, x => -x
  | square, x => x ^ 2
  | timesThree, x => 3 * x
  | divThree, x => x.fdiv 3
  | timesFour, x => 4 * x
  | divFour, x => x.fdiv 4
  | _, x => x

/-- What a lambda of two integers makes of them. Other lambdas answer with the first. -/
def Lambda.exactBinary : Lambda → Int → Int → Int
  | add, x, y => x + y
  | subtract, x, y => x - y
  | multiply, x, y => x * y
  | min, x, y => Min.min x y
  | max, x, y => Max.max x y
  | _, x, _ => x

/-! ## Rows of unbounded integers -/

namespace Row

def map (c : Config) (l : Lambda) (xs : List Int) : List Int := xs.map fun x => c.residue (l.exactUnary x)

/-- The row is as long as the shorter list. -/
def zipWith (c : Config) (l : Lambda) (xs ys : List Int) : List Int :=
  List.zipWith (fun x y => c.residue (l.exactBinary x y)) xs ys

/-- Each integer after the first, which stands as it is, is computed from the one before it in the row. -/
def scan (c : Config) (l : Lambda) : List Int → List Int
  | [] => []
  | x :: xs => xs.scanl (fun acc y => c.residue (l.exactBinary acc y)) x

/-- A row is a result if all its integers are within the bound, so that words stand for them. -/
def outcome (row : List Int) : Outcome Value :=
  if ∀ n ∈ row, n.natAbs ≤ bound then .done (.list (row.map Int64.ofInt)) else .undefined

end Row

/-! ## Narrowing -/

theorem fitsInt64_toInt (w : Int64) : FitsInt64 w.toInt := ⟨w.le_toInt,w.toInt_lt⟩

theorem toInt_ofInt_of_fits {n : Int} (h : FitsInt64 n) : (Int64.ofInt n).toInt = n :=
  Int64.toInt_ofInt_of_le h.1 h.2

theorem exactInt64?_of_fits {n : Int} (h : FitsInt64 n) : exactInt64? n = some (Int64.ofInt n) :=
  exactInt64?_eq_some_iff.mpr (toInt_ofInt_of_fits h)

/-- An integer that does not fit a word has none. -/
theorem exactInt64?_of_not_fits {n : Int} (h : ¬ FitsInt64 n) : exactInt64? n = none := by
  cases hn : exactInt64? n with
  | none => rfl
  | some w =>
    have hfits := fitsInt64_toInt w
    rw [exactInt64?_eq_some_iff.mp hn] at hfits
    contradiction

theorem fitsInt64_of_le_bound {n : Int} (h : n.natAbs ≤ bound) : FitsInt64 n := by
  unfold bound at h
  unfold FitsInt64
  omega

/-- A row is narrowed to the words that stand for its integers. -/
theorem mapM_exactInt64?_eq_some_iff {row : List Int} {ws : List Int64} :
    row.mapM exactInt64? = some ws ↔ ws.map Int64.toInt = row := by
  induction row generalizing ws with
  | nil => simp [eq_comm]
  | cons n row ih =>
    rw [List.mapM_cons]
    constructor
    · intro h
      obtain ⟨w,hw,h⟩ := Option.bind_eq_some_iff.mp h
      obtain ⟨rest,hrest,h⟩ := Option.bind_eq_some_iff.mp h
      cases h
      rw [List.map_cons,exactInt64?_eq_some_iff.mp hw,ih.mp hrest]
    · intro h
      obtain ⟨w,rest,rfl,hw,hrest⟩ := List.map_eq_cons_iff.mp h
      rw [exactInt64?_eq_some_iff.mpr hw,ih.mpr hrest]
      rfl

namespace Row

variable {row : List Int}

/-- A row within the bound is that of its words. -/
theorem map_toInt_ofInt (h : ∀ n ∈ row, n.natAbs ≤ bound) : (row.map Int64.ofInt).map Int64.toInt = row := by
  rw [List.map_map]
  exact (List.map_congr_left fun n hn => toInt_ofInt_of_fits (fitsInt64_of_le_bound (h n hn))).trans row.map_id

/-- Words are valid as a list exactly if their row is within the bound. -/
theorem isValid_list_iff {ws : List Int64} :
    (Value.list ws).isValid = true ↔ ∀ n ∈ ws.map Int64.toInt, n.natAbs ≤ bound := by
  rw [List.forall_mem_map]
  exact Value.isValid_list_iff.trans (forall₂_congr fun w _ => decide_eq_true_iff)

/-- Narrowing a row before it is compared with the bound does not change what comes of it. -/
theorem outcome_eq (row : List Int) :
    Outcome.ofOption ((Value.list <$> row.mapM exactInt64?).filter Value.isValid) = outcome row := by
  by_cases h : ∀ n ∈ row, n.natAbs ≤ bound
  · have hwords := map_toInt_ofInt h
    have hvalid : (Value.list (row.map Int64.ofInt)).isValid = true := isValid_list_iff.mpr (by rwa [hwords])
    rw [mapM_exactInt64?_eq_some_iff.mpr hwords,outcome,if_pos h]
    exact congrArg Outcome.ofOption (Option.filter_some_pos hvalid)
  · rw [outcome,if_neg h]
    cases hrow : row.mapM exactInt64? with
    | none => rfl
    | some ws =>
      rw [← mapM_exactInt64?_eq_some_iff.mp hrow,← isValid_list_iff] at h
      exact congrArg Outcome.ofOption (Option.filter_some_neg (Bool.eq_false_iff.mpr h))

/-- The result that comes of a row is the list of its words. -/
theorem outcome_eq_done_iff {v : Value} : outcome row = .done v ↔
    (∀ n ∈ row, n.natAbs ≤ bound) ∧ ∃ ws, v = .list ws ∧ ws.map Int64.toInt = row := by
  unfold outcome
  split
  case isTrue h =>
    constructor
    · intro hv
      cases hv
      exact ⟨h,_,rfl,map_toInt_ofInt h⟩
    · rintro ⟨-,ws,rfl,rfl⟩
      rw [List.map_map,List.map_congr_left fun w _ => w.ofInt_toInt,List.map_id']
  case isFalse h =>
    constructor
    · intro hv
      contradiction
    · rintro ⟨hrow,-⟩
      contradiction

theorem exists_outcome_eq_done_iff : (∃ v, outcome row = .done v) ↔ ∀ n ∈ row, n.natAbs ≤ bound := by
  constructor
  · rintro ⟨v,hv⟩
    exact (outcome_eq_done_iff.mp hv).1
  · intro h
    exact ⟨_,if_pos h⟩

theorem outcome_eq_undefined (h : ¬ ∃ v, outcome row = .done v) : outcome row = .undefined := by
  rw [exists_outcome_eq_done_iff] at h
  exact if_neg h

end Row

/-! ## Lambdas -/

theorem Config.reduce_eq_residue (c : Config) (n : Int) : c.reduce n = c.residue n := by
  rw [reduce,residue,Int.fmod_eq_emod_of_nonneg n (Int.natCast_nonneg _)]

namespace Lambda

variable {l : Lambda}

theorem operand?_unary (h : l.lambdaClass = .intToInt) :
    (Slot.lambda .intToInt).operand? (.lambda l) = some l.exactUnary := by
  change l.unary? = some l.exactUnary
  cases l with
  | plusOne | minusOne | negate => rfl
  | timesTwo | timesThree | timesFour => exact congrArg some (funext fun x => Int.mul_comm x _)
  | divTwo | divThree | divFour => exact congrArg some (funext fun x => (Int.fdiv_eq_ediv_of_nonneg x (by decide)).symm)
  | square => exact congrArg some (funext fun x => (pow_two x).symm)
  | isPositive | isNegative | isEven | isOdd | add | subtract | multiply | min | max => contradiction

theorem operand?_binary (h : l.lambdaClass = .intIntToInt) :
    (Slot.lambda .intIntToInt).operand? (.lambda l) = some l.exactBinary := by
  change l.binary? = some l.exactBinary
  cases l with
  | add | subtract | multiply | min | max => rfl
  | _ => contradiction

end Lambda

/-! ## Operations -/

namespace Operation

variable {c : Config} {l : Lambda}

/-- The first argument makes the first operand. -/
theorem operandsFrom_cons {op : Operation} {position : Nat} {slot : Slot} {slots : List Slot} {arg : Argument}
    {args : List Argument} (h : (arg :: args).length = (slot :: slots).length) {x : slot.Operand}
    (hx : slot.operand? arg = some x) :
    op.operandsFrom position (slot :: slots) (arg :: args) h =
      (fun xs => (x,xs)) <$> op.operandsFrom (position+1) slots args (Nat.succ.inj h) := by
  rw [operandsFrom,hx]
  rfl

theorem apply_of_operandsFrom {op : Operation} {args : List Argument} {xs : Operands op.slots}
    (hlen : args.length = op.slots.length) (h : op.operandsFrom 0 op.slots args hlen = .ok xs) :
    op.apply c args = .ofOption ((op.result c xs).filter Value.isValid) := by
  have hoperands : op.operands args = .ok xs := (dif_pos hlen).trans h
  rw [apply,hoperands]
  rfl

/-- Mapping an arithmetic lambda over a list comes to the row of its values. -/
theorem apply_map (hl : l.lambdaClass = .intToInt) (xs : List Int64) :
    apply c .map [.lambda l,.value (.list xs)] = Row.outcome (Row.map c l (xs.map Int64.toInt)) := by
  have hrow : xs.mapM (fun x => c.narrow? (l.exactUnary x.toInt)) =
      (Row.map c l (xs.map Int64.toInt)).mapM exactInt64? := by
    rw [Row.map,List.mapM_map,List.mapM_map]
    simp only [Config.narrow?,Config.reduce_eq_residue]
    rfl
  rw [apply_of_operandsFrom rfl (operandsFrom_cons rfl (Lambda.operand?_unary hl)),← Row.outcome_eq,← hrow]
  rfl

theorem apply_zipWith (hl : l.lambdaClass = .intIntToInt) (xs ys : List Int64) :
    apply c .zipWith [.lambda l,.value (.list xs),.value (.list ys)] =
      Row.outcome (Row.zipWith c l (xs.map Int64.toInt) (ys.map Int64.toInt)) := by
  have hrow : (xs.zip ys).mapM (fun p => c.narrow? (l.exactBinary p.1.toInt p.2.toInt)) =
      (Row.zipWith c l (xs.map Int64.toInt) (ys.map Int64.toInt)).mapM exactInt64? := by
    have hpairs : Row.zipWith c l (xs.map Int64.toInt) (ys.map Int64.toInt) =
        (xs.zip ys).map fun p => c.residue (l.exactBinary p.1.toInt p.2.toInt) := by
      rw [Row.zipWith,List.zipWith_map,List.map_zip_eq_zipWith]
      rfl
    rw [hpairs,List.mapM_map]
    simp only [Config.narrow?,Config.reduce_eq_residue]
    rfl
  rw [apply_of_operandsFrom rfl (operandsFrom_cons rfl (Lambda.operand?_binary hl)),← Row.outcome_eq,← hrow]
  rfl

/-- A row of running results from an integer that does not fit a word cannot be narrowed. -/
theorem mapM_scanl_of_not_fits {f : Int → Int → Int} {n : Int} (h : exactInt64? n = none) (row : List Int) :
    (row.scanl f n).mapM exactInt64? = none := by
  cases row with
  | nil =>
    rw [List.scanl_nil,List.mapM_cons,h]
    rfl
  | cons m row =>
    rw [List.scanl_cons,List.mapM_cons,h]
    rfl

/-- Running results that are narrowed one by one, up to the first that does not fit a word, are those of unbounded integers
that are narrowed at the end. -/
theorem scanFrom_eq (f : Int → Int → Int) (acc : Int64) (xs : List Int64) :
    (acc :: ·) <$> scan.scanFrom (fun acc x => exactInt64? (f acc.toInt x.toInt)) acc xs =
      ((xs.map Int64.toInt).scanl f acc.toInt).mapM exactInt64? := by
  induction xs generalizing acc with
  | nil =>
    rw [List.map_nil,List.scanl_nil,List.mapM_cons,exactInt64?_toInt]
    rfl
  | cons x xs ih =>
    rw [scan.scanFrom,List.map_cons,List.scanl_cons,List.mapM_cons,exactInt64?_toInt]
    cases hnext : exactInt64? (f acc.toInt x.toInt) with
    | none =>
      rw [mapM_scanl_of_not_fits hnext]
      rfl
    | some next =>
      -- The results so far fit words, so the exact row goes on from the word as the narrowed one does.
      rw [← exactInt64?_eq_some_iff.mp hnext,← ih next,Option.bind_eq_bind,Option.bind_some]
      cases scan.scanFrom (fun acc x => exactInt64? (f acc.toInt x.toInt)) next xs <;> rfl

theorem apply_scanl1 (hl : l.lambdaClass = .intIntToInt) (xs : List Int64) :
    apply c .scanl1 [.lambda l,.value (.list xs)] = Row.outcome (Row.scan c l (xs.map Int64.toInt)) := by
  have hrow : scan (fun acc x => c.narrow? (l.exactBinary acc.toInt x.toInt)) xs =
      (Row.scan c l (xs.map Int64.toInt)).mapM exactInt64? := by
    simp only [Config.narrow?,Config.reduce_eq_residue]
    cases xs with
    | nil => rfl
    | cons x xs => exact scanFrom_eq (fun acc y => c.residue (l.exactBinary acc y)) x xs
  rw [apply_of_operandsFrom rfl (operandsFrom_cons rfl (Lambda.operand?_binary hl)),← Row.outcome_eq,← hrow]
  rfl

end Operation

/-! ## Words of 128 bits -/

/-- A product of two words fits a word of twice the width. -/
theorem natAbs_mul_toInt_le (x y : Int64) : (x.toInt * y.toInt).natAbs ≤ 2^126 := by
  have hx : x.toInt.natAbs ≤ 2^63 := by
    have := x.le_toInt
    have := x.toInt_lt
    omega
  have hy : y.toInt.natAbs ≤ 2^63 := by
    have := y.le_toInt
    have := y.toInt_lt
    omega
  calc
    (x.toInt * y.toInt).natAbs = x.toInt.natAbs * y.toInt.natAbs := Int.natAbs_mul _ _
    _ ≤ 2^63 * 2^63 := Nat.mul_le_mul hx hy
    _ = 2^126 := (Nat.pow_add 2 63 63).symm

theorem FitsInt128.reduce {n : Int} (h : FitsInt128 n) (c : Config) : FitsInt128 (c.reduce n) := by
  by_cases hc : c.modulo = 0
  · rwa [Config.reduce,if_pos hc]
  · have hrange := Config.reduce_range hc n
    have hmod := c.modulo.toNat_lt
    unfold FitsInt128
    omega

theorem Lambda.fitsInt128_unary (l : Lambda) (x : Int64) : FitsInt128 (l.exactUnary x.toInt) := by
  have hmin := x.le_toInt
  have hmax := x.toInt_lt
  have hsquare := natAbs_mul_toInt_le x x
  unfold FitsInt128
  cases l with
  | divTwo | divThree | divFour =>
    rw [exactUnary,Int.fdiv_eq_ediv_of_nonneg _ (by decide)]
    omega
  | square =>
    rw [exactUnary,pow_two]
    omega
  | _ =>
    simp only [exactUnary]
    omega

theorem Lambda.fitsInt128_binary (l : Lambda) (x y : Int64) : FitsInt128 (l.exactBinary x.toInt y.toInt) := by
  have hxmin := x.le_toInt
  have hxmax := x.toInt_lt
  have hymin := y.le_toInt
  have hymax := y.toInt_lt
  have hproduct := natAbs_mul_toInt_le x y
  unfold FitsInt128
  cases l with
  | multiply =>
    rw [exactBinary]
    omega
  | _ =>
    simp only [exactBinary]
    omega

namespace Operation

/-- Arithmetic lambdas are exact inside the operations that apply them. On a lambda of the class that it asks for and on any
lists, each of these operations comes to a row of unbounded integers, with each value of the lambda replaced by its residue
if there is a modulus; the row is the result if all its integers are within the bound, and otherwise there is none. What the
lambda computes on the way fits a word of 128 bits, before and after it is reduced. -/
theorem arithmetic_is_exact (c : Config) (l : Lambda) :
    (l.lambdaClass = .intToInt → l.unary? = some l.exactUnary ∧
      (∀ xs : List Int64, apply c .map [.lambda l,.value (.list xs)] =
        Row.outcome (Row.map c l (xs.map Int64.toInt))) ∧
      ∀ x : Int64, FitsInt128 (l.exactUnary x.toInt) ∧ FitsInt128 (c.reduce (l.exactUnary x.toInt))) ∧
    (l.lambdaClass = .intIntToInt → l.binary? = some l.exactBinary ∧
      (∀ xs ys : List Int64, apply c .zipWith [.lambda l,.value (.list xs),.value (.list ys)] =
        Row.outcome (Row.zipWith c l (xs.map Int64.toInt) (ys.map Int64.toInt))) ∧
      (∀ xs : List Int64, apply c .scanl1 [.lambda l,.value (.list xs)] =
        Row.outcome (Row.scan c l (xs.map Int64.toInt))) ∧
      ∀ x y : Int64, FitsInt128 (l.exactBinary x.toInt y.toInt) ∧
        FitsInt128 (c.reduce (l.exactBinary x.toInt y.toInt))) := by
  constructor
  · intro hl
    refine ⟨Lambda.operand?_unary hl,apply_map hl,?_⟩
    intro x
    have hfits := l.fitsInt128_unary x
    exact ⟨hfits,hfits.reduce c⟩
  · intro hl
    refine ⟨Lambda.operand?_binary hl,apply_zipWith hl,apply_scanl1 hl,?_⟩
    intro x y
    have hfits := l.fitsInt128_binary x y
    exact ⟨hfits,hfits.reduce c⟩

/-- At the ends of the 64-bit range: the successor of the greatest word has the residue 8 modulo 10, the square of the least
word fits 128 bits, and running products that leave the range have no result, though they come back to zero. -/
theorem arithmetic_is_exact_at_ends :
    Lambda.plusOne.lambdaClass = .intToInt ∧ Lambda.square.lambdaClass = .intToInt ∧
      Lambda.multiply.lambdaClass = .intIntToInt ∧
      apply ⟨10⟩ .map [.lambda .plusOne,.value (.list [Int64.maxValue])] = .done (.list [8]) ∧
      FitsInt128 (Lambda.square.exactUnary Int64.minValue.toInt) ∧
      apply {} .scanl1 [.lambda .multiply,.value (.list [Int64.maxValue,2,0])] = .undefined := by
  obtain ⟨-,hmap,-⟩ := (arithmetic_is_exact ⟨10⟩ .plusOne).1 rfl
  obtain ⟨-,-,hsquare⟩ := (arithmetic_is_exact {} .square).1 rfl
  obtain ⟨-,-,hscan,-⟩ := (arithmetic_is_exact {} .multiply).2 rfl
  exact ⟨rfl,rfl,rfl,(hmap [Int64.maxValue]).trans (by decide),(hsquare Int64.minValue).1,
    (hscan [Int64.maxValue,2,0]).trans (by decide)⟩

end Operation
end ListScript
