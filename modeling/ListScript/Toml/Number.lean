import ListScript.Text.Decimal
import ListScript.Text.Hex
import ListScript.Word

/-!
# Numbers in TOML

Integers are decimal with an optional sign, or hexadecimal, octal or binary without one; they must be 64-bit integers.
Floating-point numbers must not be too large for a 64-bit float, unless they are negative. Between two digits
an underscore may stand.
-/
namespace ListScript.Toml.Number

/-- The digits without the underscores, of which each must stand between two digits. -/
def ungroup? (isDigit : Char → Bool) (cs : List Char) : Option (List Char) :=
  let groups := cs.splitOn '_'
  if groups.all fun g => !g.isEmpty && g.all isDigit then some groups.flatten else none

/-- A row of digits in a base, with underscores. -/
def inBase? (base : Nat) (cs : List Char) : Option Nat := do
  let isDigit (c : Char) : Bool := (Text.Hex.digit? c).any (· < base)
  let ds ← ungroup? isDigit cs
  return ds.foldl (fun n c => base * n + (Text.Hex.digit? c).getD 0) 0

/-- Takes a sign off the front of a number: whether it is a minus sign, and the rest. -/
def sign : List Char → Bool × List Char
  | '-' :: cs => (true, cs)
  | '+' :: cs => (false, cs)
  | cs => (false, cs)

/-- The decimal digits of a whole number, with underscores but without leading zeros. -/
def whole? (cs : List Char) : Option (List Char) := do
  let ds ← ungroup? Char.isDigit cs
  if (Decimal.canonical? ds).isSome then some ds else none

def integer? : List Char → Option Int64
  | '0' :: 'x' :: cs => inBase? 16 cs >>= fun n => exactInt64? n
  | '0' :: 'o' :: cs => inBase? 8 cs >>= fun n => exactInt64? n
  | '0' :: 'b' :: cs => inBase? 2 cs >>= fun n => exactInt64? n
  | cs => do
    let (negative, cs) := sign cs
    let n ← Decimal.toNat? (← whole? cs)
    exactInt64? (if negative then -(n : Int) else n)

/-- Whether `significand * 10 ^ exponent`, rounded to a 64-bit float, is infinite: the bound lies halfway between the
greatest float and the power of two that would be the next one. A number with `k` digits lies between the
powers `k - 1` and `k` of ten, which settles the matter unless the bound is near. -/
def overflows (significand : Nat) (exponent : Int) : Bool :=
  let bound := Nat.pow 2 1024 - Nat.pow 2 970
  let size := (Decimal.digits significand).length + exponent
  if significand = 0 || size ≤ 308 then false
  else if 310 ≤ size then true
  else if 0 ≤ exponent then bound ≤ significand * Nat.pow 10 exponent.toNat
  else bound * Nat.pow 10 (-exponent).toNat ≤ significand

/-- A decimal number taken apart: the digits before the point, those after it, and the exponent. -/
structure Parts where
  whole : List Char
  fraction : List Char
  exponent : Int

/-- Takes an unsigned decimal number apart. It must have a fraction, an exponent or both. -/
def parts? (cs : List Char) : Option Parts := do
  let isDigit (c : Char) : Bool := c.isDigit || c == '_'
  let whole ← whole? (cs.takeWhile isDigit)
  let exponent? (cs : List Char) : Option Int := do
    let (negative, cs) := sign cs
    let n ← Decimal.toNat? (← ungroup? Char.isDigit cs)
    return if negative then -(n : Int) else n
  match cs.dropWhile isDigit with
  | '.' :: cs =>
    let fraction ← ungroup? Char.isDigit (cs.takeWhile isDigit)
    match cs.dropWhile isDigit with
    | [] => return ⟨whole, fraction, 0⟩
    | c :: cs => if c = 'e' ∨ c = 'E' then return ⟨whole, fraction, ← exponent? cs⟩ else none
  | c :: cs => if c = 'e' ∨ c = 'E' then return ⟨whole, [], ← exponent? cs⟩ else none
  | [] => none

def isFloat (cs : List Char) : Bool :=
  let (negative, cs) := sign cs
  if cs = ['i', 'n', 'f'] ∨ cs = ['n', 'a', 'n'] then true
  else
    match parts? cs with
    | none => false
    | some p =>
      match Decimal.toNat? (p.whole ++ p.fraction) with
      | none => false
      | some significand => negative || !overflows significand (p.exponent - p.fraction.length)

end ListScript.Toml.Number
