import ListScript.Variable

/-!
# Spelling of numbers and variables

A number has one spelling in digits without a leading zero. A variable therefore has one token, and a text is read
as a variable only if it is that token.
-/
namespace ListScript
namespace Decimal

theorem digits_injective : Function.Injective digits := by
  intro m n h
  have hm := toNat?_digits m
  rw [h,toNat?_digits] at hm
  exact (Option.some.inj hm).symm

/-- A digit is the character that its value is written with. -/
theorem digitChar_value {c : Char} (h : c.isDigit = true) :
    c.toNat - '0'.toNat < 10 ∧ (c.toNat - '0'.toNat).digitChar = c := by
  have hc : 48 ≤ c.toNat ∧ c.toNat ≤ 57 := by
    simpa [Char.isDigit,UInt32.le_iff_toNat_le] using h
  have hd : c.toNat - '0'.toNat < 10 := by
    change c.toNat - 48 < 10
    omega
  refine ⟨hd,?_⟩
  apply Char.toNat_inj.mp
  rw [Nat.toNat_digitChar_of_lt_ten hd]
  change 48 + (c.toNat - 48) = c.toNat
  omega

/-- Reading more digits after a positive number appends them to its spelling. -/
theorem digits_ofDigitChars {cs : List Char} (hcs : ∀ c ∈ cs, c.isDigit = true) {n : Nat} (hn : 0 < n) :
    digits (Nat.ofDigitChars 10 cs n) = digits n ++ cs := by
  induction cs generalizing n with
  | nil => simp
  | cons c cs ih =>
    obtain ⟨hd,he⟩ := digitChar_value (hcs c (by simp))
    have hstep : digits (10*n + (c.toNat - '0'.toNat)) = digits n ++ [c] := by
      have h := Nat.toDigits_append_toDigits (b := 10) (by decide) hn hd
      rw [Nat.toDigits_of_lt_base hd,he] at h
      exact h.symm
    rw [Nat.ofDigitChars_cons,ih (fun d hd => hcs d (by simp [hd])) (by omega),hstep]
    simp

/-- Digits that do not begin with a superfluous zero are the spelling of the number they are read as. -/
theorem eq_digits_of_toNat? {c : Char} {cs : List Char} {n : Nat} (h0 : c = '0' → cs = [])
    (h : toNat? (c :: cs) = some n) : c :: cs = digits n := by
  simp only [toNat?,List.isEmpty_cons,Bool.not_false,Bool.true_and,Option.ite_none_right_eq_some,
    Option.some.injEq,List.all_eq_true,List.mem_cons,forall_eq_or_imp] at h
  obtain ⟨⟨hc,hcs⟩,rfl⟩ := h
  obtain ⟨hd,he⟩ := digitChar_value hc
  have hone : digits (c.toNat - '0'.toNat) = [c] := by
    rw [digits,Nat.toDigits_of_lt_base hd,he]
  rw [Nat.ofDigitChars_cons,Nat.mul_zero,Nat.zero_add]
  rcases Nat.eq_zero_or_pos (c.toNat - '0'.toNat) with hz | hp
  · have hcs : cs = [] := h0 (by rw [← he,hz]; rfl)
    subst hcs
    rw [Nat.ofDigitChars_nil,hone]
  · rw [digits_ofDigitChars hcs hp,hone]
    rfl

/-- The spelling of a positive number does not begin with a zero. -/
theorem digits_ne_cons_zero {n : Nat} (hn : 0 < n) (cs : List Char) : digits n ≠ '0' :: cs := by
  induction n using Nat.strongRecOn generalizing cs with
  | ind n ih =>
    intro h
    by_cases hlt : n < 10
    · rw [digits,Nat.toDigits_of_lt_base hlt] at h
      have hz : ∀ d < 10, d.digitChar = '0' → d = 0 := by decide
      have := hz n hlt (List.cons.inj h).1
      omega
    · -- The first digit is that of the number without its last digit, which is positive too.
      rw [digits,Nat.toDigits_of_base_le (by decide) (by omega)] at h
      obtain ⟨d,ds,hds⟩ := List.exists_cons_of_ne_nil (digits_ne_nil (n/10))
      rw [← digits,hds] at h
      obtain rfl : d = '0' := (List.cons.inj h).1
      exact ih (n/10) (by omega) (by omega) ds hds

/-- A number has exactly one canonical spelling. -/
theorem canonical?_eq_some_iff {cs : List Char} {n : Nat} : canonical? cs = some n ↔ cs = digits n := by
  constructor
  · intro h
    unfold canonical? at h
    split at h
    · contradiction
    · rename_i hcs
      cases cs with
      | nil => simp [toNat?] at h
      | cons c rest =>
        apply eq_digits_of_toNat? _ h
        rintro rfl
        cases rest with
        | nil => rfl
        | cons d rest => exact absurd rfl (hcs d rest)
  · rintro rfl
    unfold canonical?
    split
    · rename_i c rest h
      rcases Nat.eq_zero_or_pos n with rfl | hn
      · cases h
      · exact absurd h (digits_ne_cons_zero hn _)
    · exact toNat?_digits n

end Decimal

namespace Variable

@[simp] theorem toList_token (index : Nat) : (token index).toList = 'x' :: Decimal.digits index := by
  simp [token]

theorem token_injective : Function.Injective token := by
  intro i j h
  have hlist := congrArg String.toList h
  rw [toList_token,toList_token] at hlist
  exact Decimal.digits_injective (List.cons.inj hlist).2

/-- A text names a variable exactly if it is the token of that variable. -/
theorem index?_eq_some_iff {t : String} {i : UInt64} : index? t = some i ↔ t = token i.toNat := by
  have hx : t = token i.toNat ↔ t.toList = 'x' :: Decimal.digits i.toNat := by
    rw [← toList_token,String.toList_inj]
  rw [hx]
  unfold index?
  split
  · rename_i ds hds
    rw [hds]
    simp only [Option.bind_eq_bind,Option.bind_eq_some_iff,Decimal.canonical?_eq_some_iff,
      exactUInt64?_eq_some_iff,List.cons.injEq,true_and]
    constructor
    · rintro ⟨n,rfl,rfl⟩
      rfl
    · intro h
      exact ⟨i.toNat,h,rfl⟩
  · rename_i hds
    constructor
    · intro h
      contradiction
    · intro h
      exact absurd h (hds _)

theorem ofToken_eq_ok_iff {t : String} {i : UInt64} : ofToken t = .ok i ↔ t = token i.toNat := by
  rw [← index?_eq_some_iff]
  unfold ofToken
  cases index? t <;> simp

/-- A text that is not the token of a variable is refused, and the error shows it. -/
theorem ofToken_eq_error_iff {t : String} {e : ParseError} :
    ofToken t = .error e ↔ e = .invalidVariable t ∧ ∀ i : UInt64, t ≠ token i.toNat := by
  simp only [ne_eq,← index?_eq_some_iff,← Option.eq_none_iff_forall_ne_some]
  unfold ofToken
  cases index? t with
  | none => simp [eq_comm]
  | some i => simp

@[simp] theorem ofToken_token (i : UInt64) : ofToken (token i.toNat) = .ok i := ofToken_eq_ok_iff.mpr rfl

end Variable
end ListScript
