import ListScript.Word

/-!
# Run configuration

The one setting of a run is the modulus of arithmetic lambdas. Zero switches it off; any other modulus replaces
a number by its residue, which is never negative.
-/
namespace ListScript

structure Config where
  modulo : UInt32 := 0
  deriving DecidableEq, Repr

namespace Config

def isModular (c : Config) : Bool := c.modulo ≠ 0

/-- The residue of a number, or the number itself when the modulus is off. -/
def reduce (c : Config) (n : Int) : Int :=
  if c.modulo = 0 then n else n % (c.modulo.toNat : Int)

/-- What an arithmetic lambda answers when it has computed `n`: the residue, if that is a 64-bit integer. -/
def narrow? (c : Config) (n : Int) : Option Int64 := exactInt64? (c.reduce n)

@[simp] theorem reduce_off (n : Int) : reduce {} n = n := rfl

/-- Under a modulus every number falls between zero and the modulus. -/
theorem reduce_range {c : Config} (h : c.modulo ≠ 0) (n : Int) :
    0 ≤ c.reduce n ∧ c.reduce n < (c.modulo.toNat : Int) := by
  have hpos : (0 : Int) < (c.modulo.toNat : Int) := by
    have : c.modulo.toNat ≠ 0 := fun h0 => h (UInt32.toNat_inj.1 (by simpa using h0))
    omega
  simp only [reduce, h, if_false]
  exact ⟨Int.emod_nonneg _ (by omega), Int.emod_lt_of_pos _ hpos⟩

end Config

end ListScript
