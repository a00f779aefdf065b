import ListScript.Toml.Quoted
import ListScript.Toml.Writing

/-!
# Quoted text reads back

Whatever text is written between double quotes within a line, reading it gives the text and what stands after the
closing quote.
-/
namespace ListScript.Toml.Quoted

open Text

/-- The code of a character below 128, in four digits, stands for that character. -/
theorem basicLine_code {n : Nat} (h : n < 128) (rest : List Char) :
    basicLine (some (.code 4 0)) (Hex.four Hex.upper n ++ rest) =
      (basicLine none rest).map fun (text, rest) => (Char.ofNat n :: text, rest) := by
  have h₁ : n / 4096 % 16 = 0 := by omega
  have h₂ : n / 256 % 16 = 0 := by omega
  have h₃ : n / 16 % 16 < 16 := by omega
  have h₄ : n % 16 < 16 := by omega
  have h₅ : 16 * (n / 16 % 16) + n % 16 = n := by omega
  have h₆ : n.isValidChar := Or.inl (by omega)
  simp [Hex.four, basicLine, Escape.next, h₁, h₂, Hex.digit?_upper, h₃, h₄, char?, h₅, h₆]

/-- A character other than a quote is read back from what is written for it. -/
theorem basicLine_escapeChar {c : Char} (hc : c ≠ '"') (rest : List Char) :
    basicLine none (escapeChar false c ++ rest) =
      (basicLine none rest).map fun (text, rest) => (c :: text, rest) := by
  unfold escapeChar
  split
  · subst c; simp [basicLine, Escape.next]
  split
  · subst c; simp [basicLine, Escape.next]
  split
  · subst c; simp [basicLine, Escape.next]
  split
  · subst c; simp [basicLine, Escape.next]
  split
  · next h =>
    obtain rfl : c = '\x08' := Char.toNat_inj.1 h
    simp [basicLine, Escape.next]
  split
  · next h =>
    obtain rfl : c = '\x0c' := Char.toNat_inj.1 h
    simp [basicLine, Escape.next]
  split
  · have hcode := basicLine_code (n := c.toNat) (by omega) rest
    simp [basicLine, Escape.next, hcode]
  · next hslash _ _ _ _ _ _ =>
    have hplain : isPlain c = true := by
      simp only [isPlain, Bool.or_eq_true, Bool.and_eq_true, decide_eq_true_eq]
      omega
    simp [basicLine, hslash, hc, hplain]

/-- A text within a line in double quotes is read back up to its closing quote. -/
theorem basicLine_escape (cs rest : List Char) (run : Nat) :
    basicLine none (escape false run cs ++ '"' :: rest) = some (cs, rest) := by
  induction cs generalizing run with
  | nil => simp [escape, basicLine]
  | cons c cs ih =>
    by_cases hc : c = '"'
    · subst c; simp [escape, basicLine, Escape.next, ih]
    · simp [escape, hc, List.append_assoc, basicLine_escapeChar hc, ih]

end ListScript.Toml.Quoted
