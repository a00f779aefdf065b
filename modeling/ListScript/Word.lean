/-!
# Exact words

Numbers are computed exactly and narrowed to 64 bits once, at the end. A number that does not fit has no
narrowed form; nothing ever wraps.
-/
namespace ListScript

/-- The signed 64-bit word equal to `n`, if there is one. -/
def exactInt64? (n : Int) : Option Int64 :=
  if Int64.minValue.toInt ≤ n ∧ n ≤ Int64.maxValue.toInt then some (Int64.ofInt n) else none

def exactUInt64? (n : Nat) : Option UInt64 := if n < UInt64.size then some (UInt64.ofNat n) else none

def exactUInt32? (n : Int) : Option UInt32 :=
  if 0 ≤ n ∧ n < UInt32.size then some (UInt32.ofNat n.toNat) else none

theorem exactInt64?_eq_some_iff {n : Int} {w : Int64} : exactInt64? n = some w ↔ w.toInt = n := by
  unfold exactInt64?
  constructor
  · intro h
    split at h
    · next hn => cases h; exact Int64.toInt_ofInt_of_le hn.1 (Int.lt_add_one_of_le hn.2)
    · cases h
  · rintro rfl
    rw [if_pos ⟨Int64.minValue_le_toInt w, Int64.toInt_le w⟩, Int64.ofInt_toInt]

@[simp] theorem exactInt64?_toInt (w : Int64) : exactInt64? w.toInt = some w :=
  exactInt64?_eq_some_iff.2 rfl

theorem exactUInt64?_eq_some_iff {n : Nat} {w : UInt64} : exactUInt64? n = some w ↔ w.toNat = n := by
  unfold exactUInt64?
  constructor
  · intro h
    split at h
    · next hn => cases h; exact UInt64.toNat_ofNat_of_lt hn
    · cases h
  · rintro rfl
    simp [UInt64.toNat_lt w]

@[simp] theorem exactUInt32?_toNat (w : UInt32) : exactUInt32? (w.toNat : Int) = some w := by
  have hlt : (w.toNat : Int) < (UInt32.size : Int) := Int.ofNat_lt.mpr w.toNat_lt
  rw [exactUInt32?, if_pos ⟨Int.natCast_nonneg _, hlt⟩, Int.toNat_natCast, UInt32.ofNat_toNat]

end ListScript
