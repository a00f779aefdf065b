/-!
# Hexadecimal digits

Digits are read in either case. Code points of escape sequences are written with four digits.
-/
namespace ListScript.Text.Hex

/-- The number that a hexadecimal digit stands for. -/
def digit? (c : Char) : Option Nat :=
  if '0' ≤ c ∧ c ≤ '9' then some (c.toNat - '0'.toNat)
  else if 'a' ≤ c ∧ c ≤ 'f' then some (c.toNat - 'a'.toNat + 10)
  else if 'A' ≤ c ∧ c ≤ 'F' then some (c.toNat - 'A'.toNat + 10)
  else none

def lower (d : Nat) : Char := Nat.digitChar d

def upper (d : Nat) : Char := (Nat.digitChar d).toUpper

/-- The last four hexadecimal digits of a number. -/
def four (digit : Nat → Char) (n : Nat) : List Char :=
  [digit (n / 4096 % 16), digit (n / 256 % 16), digit (n / 16 % 16), digit (n % 16)]

theorem digit?_upper {d : Nat} (h : d < 16) : digit? (upper d) = some d := by
  have : ∀ d : Fin 16, digit? (upper d.val) = some d.val := by decide
  exact this ⟨d, h⟩

end ListScript.Text.Hex
