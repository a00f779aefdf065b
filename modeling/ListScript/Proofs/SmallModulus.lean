import ListScript.Proofs.ModularScan

/-!
# Small moduli

The residues of a modulus are the integers from zero up to below it. Up to 257 all of them are within the bound, so that no
value of a lambda ever takes a result away: mapping and zipping always have one, and running results have one as soon as the
integer that begins them is within the bound. Every greater modulus has a residue out of bounds.
-/
namespace ListScript

variable {c : Config} {l : Lambda}

namespace Config

/-- The integers that a modulus leaves. -/
def IsResidue (c : Config) (n : Int) : Prop := 0 ≤ n ∧ n < c.modulo.toNat

theorem isResidue_residue (hc : c.modulo ≠ 0) (n : Int) : c.IsResidue (c.residue n) := by
  rw [← reduce_eq_residue]
  exact reduce_range hc n

theorem IsResidue.natAbs_le_bound {n : Int} (h : c.IsResidue n) (hle : c.modulo.toNat ≤ 257) : n.natAbs ≤ bound := by
  unfold IsResidue at h
  unfold bound
  omega

/-- An integer below the modulus is its own residue. -/
theorem IsResidue.residue_eq {n : Int} (h : c.IsResidue n) : c.residue n = n := by
  unfold residue
  split
  case isTrue => rfl
  case isFalse => exact Int.fmod_eq_of_lt h.1 h.2

theorem modulo_ne_zero_of_pos (h : 1 ≤ c.modulo.toNat) : c.modulo ≠ 0 := by
  intro hzero
  rw [hzero] at h
  contradiction

end Config

/-! ## Rows of residues -/

namespace Row

theorem isResidue_of_mem_map (hc : c.modulo ≠ 0) (xs : List Int) : ∀ n ∈ map c l xs, c.IsResidue n := by
  intro n hn
  obtain ⟨x,-,rfl⟩ := List.mem_map.mp hn
  exact Config.isResidue_residue hc _

theorem isResidue_of_mem_zipWith (hc : c.modulo ≠ 0) (xs ys : List Int) :
    ∀ n ∈ zipWith c l xs ys, c.IsResidue n := by
  intro n hn
  rw [zipWith,← List.map_uncurry_zip_eq_zipWith] at hn
  obtain ⟨p,-,rfl⟩ := List.mem_map.mp hn
  exact Config.isResidue_residue hc _

/-- Running results that begin with a residue are residues. -/
theorem isResidue_of_mem_scanl (hc : c.modulo ≠ 0) {xs : List Int} {a : Int} (ha : c.IsResidue a) :
    ∀ n ∈ xs.scanl (fun acc y => c.residue (l.exactBinary acc y)) a, c.IsResidue n := by
  induction xs generalizing a with
  | nil => simpa using ha
  | cons x xs ih =>
    rw [List.scanl_cons,List.forall_mem_cons]
    exact ⟨ha,ih (Config.isResidue_residue hc _)⟩

/-- Whatever begins a row of running results, all after it are residues. -/
theorem isResidue_of_mem_tail_scan (hc : c.modulo ≠ 0) (xs : List Int) : ∀ n ∈ (scan c l xs).tail, c.IsResidue n := by
  rcases xs with - | ⟨x,- | ⟨y,xs⟩⟩
  case nil => simp [scan]
  case cons.nil => simp [scan]
  case cons.cons =>
    rw [scan,List.scanl_cons,List.tail_cons]
    exact isResidue_of_mem_scanl hc (Config.isResidue_residue hc _)

/-- A row of residues of a small modulus is a result. -/
theorem exists_outcome_eq_done {row : List Int} (hle : c.modulo.toNat ≤ 257) (h : ∀ n ∈ row, c.IsResidue n) :
    ∃ out, outcome row = .done (.list out) ∧ out.length = row.length ∧ ∀ w ∈ out, c.IsResidue w.toInt := by
  obtain ⟨v,hv⟩ := exists_outcome_eq_done_iff.mpr fun n hn => (h n hn).natAbs_le_bound hle
  obtain ⟨-,out,rfl,hout⟩ := outcome_eq_done_iff.mp hv
  refine ⟨out,hv,?_,?_⟩
  · rw [← hout,List.length_map]
  · rwa [← hout,List.forall_mem_map] at h

/-- Under a small modulus only the integer that begins the running results can be out of bounds. -/
theorem forall_mem_scan_iff_head (hc : c.modulo ≠ 0) (hle : c.modulo.toNat ≤ 257) {xs : List Int} :
    (∀ n ∈ scan c l xs, n.natAbs ≤ bound) ↔ ∀ x ∈ xs.head?, x.natAbs ≤ bound := by
  have htail : ∀ n ∈ (scan c l xs).tail, n.natAbs ≤ bound := fun n hn =>
    (isResidue_of_mem_tail_scan hc xs n hn).natAbs_le_bound hle
  rw [← head?_scan (c := c) (l := l)]
  cases hrow : scan c l xs with
  | nil => simp
  | cons n row =>
    rw [hrow,List.tail_cons] at htail
    simpa using fun _ => htail

end Row

namespace Operation

/-- Under a modulus from 1 to 257 no result is lost. Mapping a lambda over any list has a result of its length, and zipping
any two lists has one of the length of the shorter, each with residues alone. Running results are missing exactly if the list
begins with an integer that is out of bounds; otherwise they are as many as the integers of the list, begin as it begins, and
go on with residues. -/
theorem small_modulus_keeps_results (hpos : 1 ≤ c.modulo.toNat) (hle : c.modulo.toNat ≤ 257) (l : Lambda) :
    (l.lambdaClass = .intToInt → ∀ xs : List Int64, ∃ out, apply c .map [.lambda l,.value (.list xs)] = .done (.list out) ∧
      out.length = xs.length ∧ ∀ n ∈ out, c.IsResidue n.toInt) ∧
    (l.lambdaClass = .intIntToInt →
      (∀ xs ys : List Int64, ∃ out,
        apply c .zipWith [.lambda l,.value (.list xs),.value (.list ys)] = .done (.list out) ∧
          out.length = min xs.length ys.length ∧ ∀ n ∈ out, c.IsResidue n.toInt) ∧
      ∀ xs : List Int64,
        ((∃ v, apply c .scanl1 [.lambda l,.value (.list xs)] = .done v) ↔
          xs = [] ∨ ∃ x, xs.head? = some x ∧ inBounds x = true) ∧
        (∀ v, apply c .scanl1 [.lambda l,.value (.list xs)] = .done v →
          ∃ out, v = .list out ∧ out.length = xs.length ∧ out.head? = xs.head? ∧ ∀ n ∈ out.tail, c.IsResidue n.toInt) ∧
        ((¬ ∃ v, apply c .scanl1 [.lambda l,.value (.list xs)] = .done v) →
          apply c .scanl1 [.lambda l,.value (.list xs)] = .undefined)) := by
  have hc := Config.modulo_ne_zero_of_pos hpos
  refine ⟨?_,fun hl => ⟨?_,?_⟩⟩
  · intro hl xs
    rw [apply_map hl]
    simpa [Row.map] using Row.exists_outcome_eq_done hle (Row.isResidue_of_mem_map hc (l := l) (xs.map Int64.toInt))
  · intro xs ys
    rw [apply_zipWith hl]
    simpa [Row.zipWith] using Row.exists_outcome_eq_done hle
      (Row.isResidue_of_mem_zipWith hc (l := l) (xs.map Int64.toInt) (ys.map Int64.toInt))
  · intro xs
    rw [apply_scanl1 hl]
    refine ⟨?_,?_,Row.outcome_eq_undefined⟩
    · rw [Row.exists_outcome_eq_done_iff,Row.forall_mem_scan_iff_head hc hle]
      cases xs <;> simp [inBounds]
    · intro v hv
      obtain ⟨-,out,rfl,hout⟩ := Row.outcome_eq_done_iff.mp hv
      obtain ⟨hlen,hhead⟩ := length_head?_of_scan hout
      have htail := Row.isResidue_of_mem_tail_scan hc (l := l) (xs.map Int64.toInt)
      rw [← hout,← List.map_tail,List.forall_mem_map] at htail
      exact ⟨out,rfl,hlen,hhead,htail⟩

/-- Under the modulus 257 the opposite of 1 is the greatest integer within the bound, and that of the least word is 129. A
running product that begins with -256 goes on with any word, and one that begins with 257 has no result. -/
theorem small_modulus_keeps_results_at_limit :
    let c : Config := ⟨257⟩
    1 ≤ c.modulo.toNat ∧ c.modulo.toNat ≤ 257 ∧ Lambda.negate.lambdaClass = .intToInt ∧
      Lambda.multiply.lambdaClass = .intIntToInt ∧
      apply c .map [.lambda .negate,.value (.list [1,Int64.minValue])] = .done (.list [256,129]) ∧
      (∃ out, apply c .map [.lambda .negate,.value (.list [1,Int64.minValue])] = .done (.list out) ∧ out.length = 2 ∧
        ∀ n ∈ out, c.IsResidue n.toInt) ∧
      (∃ v, apply c .scanl1 [.lambda .multiply,.value (.list [-256,Int64.minValue])] = .done v) ∧
      apply c .scanl1 [.lambda .multiply,.value (.list [257,0])] = .undefined := by
  intro c
  have hpos : 1 ≤ c.modulo.toNat := by decide
  have hle : c.modulo.toNat ≤ 257 := by decide
  obtain ⟨hmap,-⟩ := small_modulus_keeps_results hpos hle .negate
  obtain ⟨-,hbinary⟩ := small_modulus_keeps_results hpos hle .multiply
  obtain ⟨-,hscan⟩ := hbinary rfl
  have hlost : ¬ ∃ v, apply c .scanl1 [.lambda .multiply,.value (.list [257,0])] = .done v := by
    rw [(hscan [257,0]).1]
    decide
  exact ⟨hpos,hle,rfl,rfl,by decide,hmap rfl [1,Int64.minValue],
    (hscan [-256,Int64.minValue]).1.mpr (.inr ⟨-256,rfl,by decide⟩),(hscan [257,0]).2.2 hlost⟩

/-- Under every greater modulus the successor of the greatest integer within the bound has no result. -/
theorem map_plusOne_undefined (h : 257 < c.modulo.toNat) :
    apply c .map [.lambda .plusOne,.value (.list [256])] = .undefined := by
  have hres : c.residue 257 = 257 := Config.IsResidue.residue_eq ⟨by decide,by exact_mod_cast h⟩
  have hrow : Row.map c .plusOne ([256].map Int64.toInt) = [c.residue 257] := rfl
  rw [apply_map rfl,hrow,hres]
  rfl

end Operation
end ListScript
