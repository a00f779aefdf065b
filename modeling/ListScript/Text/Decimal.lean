/-!
# Decimal numbers

Whole numbers are written in ASCII digits, without a plus sign and without leading zeros. Reading is
more liberal: leading zeros are allowed unless the canonical spelling is asked for.
-/
namespace ListScript.Decimal

def digits (n : Nat) : List Char := Nat.toDigits 10 n

def ofNat (n : Nat) : String := String.ofList (digits n)

def ofInt (n : Int) : String := if n < 0 then "-" ++ ofNat n.natAbs else ofNat n.natAbs

/-- The number that a nonempty row of digits stands for. -/
def toNat? (cs : List Char) : Option Nat :=
  if !cs.isEmpty && cs.all Char.isDigit then some (Nat.ofDigitChars 10 cs 0) else none

/-- Reads digits without leading zeros; zero is the single digit `0`. -/
def canonical? : List Char → Option Nat
  | '0' :: _ :: _ => none
  | cs => toNat? cs

/-- Reads digits with an optional minus sign in front. -/
def toInt? : List Char → Option Int
  | '-' :: cs => (toNat? cs).map fun (n : Nat) => -(n : Int)
  | cs => (toNat? cs).map fun (n : Nat) => (n : Int)

/-- Reads digits with an optional sign of either kind in front. -/
def signed? : List Char → Option Int
  | '+' :: cs => (toNat? cs).map fun (n : Nat) => (n : Int)
  | cs => toInt? cs

@[simp] theorem toList_ofNat (n : Nat) : (ofNat n).toList = digits n := by simp [ofNat]

theorem digits_ne_nil (n : Nat) : digits n ≠ [] := Nat.toDigits_ne_nil

theorem isDigit_of_mem_digits {n : Nat} {c : Char} (h : c ∈ digits n) : c.isDigit = true :=
  Nat.isDigit_of_mem_toDigits (by decide) (by decide) h

/-- A number is written with a digit in front. -/
theorem exists_digits_eq_cons (n : Nat) : ∃ d ds, digits n = d :: ds ∧ d.isDigit = true := by
  obtain ⟨d, ds, hds⟩ := List.exists_cons_of_ne_nil (digits_ne_nil n)
  have hd : d ∈ digits n := hds ▸ List.mem_cons_self
  exact ⟨d, ds, hds, isDigit_of_mem_digits hd⟩

/-- The digits of a number read back as that number. -/
@[simp] theorem toNat?_digits (n : Nat) : toNat? (digits n) = some n := by
  have h : (digits n).all Char.isDigit = true :=
    List.all_eq_true.2 fun _ hc => isDigit_of_mem_digits hc
  simp only [toNat?, h, Bool.and_true]
  simp [digits]

end ListScript.Decimal
