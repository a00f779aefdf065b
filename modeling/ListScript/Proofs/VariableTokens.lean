import ListScript.Proofs.Grammar

/-!
# Tokens of variables

The index of a variable is spelled in one way: behind the letter stand digits that denote a 64-bit number, with no zero in front
of other digits. Any other text is refused, and then its letter, its digits or the number is at fault.
-/
namespace ListScript

namespace Decimal

/-- Digits denote a number, and none of them is superfluous. -/
structure Denote (ds : List Char) (n : Nat) : Prop where
  nonempty : ds ≠ []
  isDigit : ∀ c ∈ ds, c.isDigit = true
  leading : ∀ rest, ds = '0' :: rest → rest = []
  value : Nat.ofDigitChars 10 ds 0 = n

theorem denote_digits (n : Nat) : Denote (digits n) n := by
  have hread := toNat?_eq_some_iff.mp (toNat?_digits n)
  refine ⟨hread.1,hread.2.1,?_,hread.2.2⟩
  intro rest h
  rcases Nat.eq_zero_or_pos n with hn | hn
  · rw [hn] at h
    exact (List.cons.inj h).2.symm
  · exact absurd h (digits_ne_cons_zero hn rest)

/-- The digits that a number is written with are the only ones that denote it without a superfluous one. -/
theorem eq_digits_iff {ds : List Char} {n : Nat} : ds = digits n ↔ Denote ds n := by
  constructor
  · intro h
    rw [h]
    exact denote_digits n
  · intro h
    obtain ⟨c,cs,hds⟩ := List.exists_cons_of_ne_nil h.nonempty
    rw [hds]
    apply eq_digits_of_toNat?
    · intro hc
      exact h.leading cs (by rw [hds,hc])
    · rw [← hds]
      exact toNat?_eq_some_iff.mpr ⟨h.nonempty,h.isDigit,h.value⟩

end Decimal

namespace Variable
open Decimal

/-- What keeps characters from being the token of a variable. -/
inductive Misspelt : List Char → Prop
  /-- The letter is not in front. -/
  | letter {cs : List Char} (h : cs.head? ≠ some 'x') : Misspelt cs
  /-- The letter stands alone. -/
  | bare : Misspelt ['x']
  /-- A sign, a blank, a letter or a digit of another script stands behind the letter. -/
  | character {ds : List Char} {c : Char} (hc : c ∈ ds) (h : c.isDigit = false) : Misspelt ('x' :: ds)
  /-- A zero stands in front of something else. -/
  | zero {c : Char} {cs : List Char} : Misspelt ('x' :: '0' :: c :: cs)
  /-- The number does not fit a word. -/
  | large {ds : List Char} (h : UInt64.size ≤ Nat.ofDigitChars 10 ds 0) : Misspelt ('x' :: ds)

variable {t : String} {i : UInt64}

theorem eq_token_iff : t = token i.toNat ↔ ∃ ds, t.toList = 'x' :: ds ∧ Denote ds i.toNat := by
  rw [← String.toList_inj,toList_token]
  constructor
  · intro h
    exact ⟨digits i.toNat,h,denote_digits i.toNat⟩
  · intro ⟨ds,ht,hds⟩
    rw [ht,eq_digits_iff.mpr hds]

/-- Nothing is wrong with the token of a variable. -/
theorem not_misspelt {ds : List Char} (h : Denote ds i.toNat) : ¬ Misspelt ('x' :: ds) := by
  intro hwrong
  cases hwrong with
  | letter hletter => exact hletter rfl
  | bare => exact h.nonempty rfl
  | character hc hdigit =>
    rw [h.isDigit _ hc] at hdigit
    contradiction
  | zero => exact absurd (h.leading _ rfl) (by simp)
  | large hlarge =>
    rw [h.value] at hlarge
    exact absurd i.toNat_lt (Nat.not_lt.mpr hlarge)

/-- Characters with which nothing is wrong are the token of a variable. -/
theorem exists_eq_token (h : ¬ Misspelt t.toList) : ∃ i : UInt64, t = token i.toNat := by
  have hletter : t.toList.head? = some 'x' := Decidable.byContradiction fun hne => h (.letter hne)
  obtain ⟨ds,ht⟩ := List.head?_eq_some_iff.mp hletter
  rw [ht] at h
  have hsmall : Nat.ofDigitChars 10 ds 0 < UInt64.size := Nat.lt_of_not_le fun hlarge => h (.large hlarge)
  refine ⟨UInt64.ofNat (Nat.ofDigitChars 10 ds 0),eq_token_iff.mpr ⟨ds,ht,?_⟩⟩
  constructor
  case nonempty =>
    intro hds
    subst hds
    exact h .bare
  case isDigit =>
    intro c hc
    by_contra hdigit
    exact h (.character hc (by simpa using hdigit))
  case leading =>
    intro rest hds
    subst hds
    cases rest with
    | nil => rfl
    | cons c cs => exact absurd .zero h
  case value => exact (UInt64.toNat_ofNat_of_lt hsmall).symm

theorem misspelt_iff : Misspelt t.toList ↔ ∀ i : UInt64, t ≠ token i.toNat := by
  constructor
  · intro h i ht
    obtain ⟨ds,hds,hdenote⟩ := eq_token_iff.mp ht
    rw [hds] at h
    exact not_misspelt hdenote h
  · intro h
    by_contra hright
    obtain ⟨i,ht⟩ := exists_eq_token hright
    exact h i ht

/-- A variable has one token, and no other text is read as a variable. A text is read as the variable of an index exactly if it
is the letter and digits that denote the index, none of them superfluous, and these are the digits that the variable is
written with. Any other text is refused with an error that shows it. These are the texts that do not begin with the letter, or
have nothing behind it, or something that is not a digit, or a superfluous zero, or a number that is too large for a word. -/
theorem spelled_in_one_way (t : String) :
    (∀ i : UInt64, ofToken t = .ok i ↔ t = token i.toNat) ∧
    (∀ i : UInt64, ofToken t = .ok i ↔ ∃ ds, t.toList = 'x' :: ds ∧ Denote ds i.toNat) ∧
    (∀ e, ofToken t = .error e ↔ e = .invalidVariable t ∧ ∀ i : UInt64, t ≠ token i.toNat) ∧
    ((∀ i : UInt64, t ≠ token i.toNat) ↔ Misspelt t.toList) := by
  refine ⟨fun i => ofToken_eq_ok_iff,?_,fun e => ofToken_eq_error_iff,misspelt_iff.symm⟩
  intro i
  rw [ofToken_eq_ok_iff,eq_token_iff]

/-- The largest index has a token, the next number has none, and neither has a digit of another script. -/
example : ofToken "x18446744073709551615" = .ok 18446744073709551615 ∧
    ofToken "x18446744073709551616" = .error (.invalidVariable "x18446744073709551616") ∧
    ofToken "x\u0661" = .error (.invalidVariable "x\u0661") := by decide

end Variable
end ListScript
