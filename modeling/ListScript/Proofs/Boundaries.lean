import ListScript.Proofs.Splitting

/-!
# Boundaries of tokens

A blank and a punctuation character cut a text wherever they stand: the tokens in front of them and those behind them are
found as if the other part were not there, and a punctuation character is a token in between. A text without such characters
is a single token. The lists that are read back from their texts are therefore those of words and punctuation characters,
and every list of tokens that a text splits into is one of them.
-/
namespace ListScript

/-- The code points with the Unicode property `White_Space`. -/
def Text.whiteSpace : List Nat :=
  [0x09,0x0A,0x0B,0x0C,0x0D,0x20,0x85,0xA0,0x1680,0x2000,0x2001,0x2002,0x2003,0x2004,0x2005,0x2006,0x2007,0x2008,0x2009,
    0x200A,0x2028,0x2029,0x202F,0x205F,0x3000]

theorem Text.isBlank_iff {c : Char} : isBlank c = true ↔ c.toNat ∈ whiteSpace := by
  have hcontrols : ∀ n, 0x09 ≤ n ∧ n ≤ 0x0D ↔ n = 0x09 ∨ n = 0x0A ∨ n = 0x0B ∨ n = 0x0C ∨ n = 0x0D := by omega
  have hspaces : ∀ n, 0x2000 ≤ n ∧ n ≤ 0x200A ↔ n = 0x2000 ∨ n = 0x2001 ∨ n = 0x2002 ∨ n = 0x2003 ∨ n = 0x2004 ∨
      n = 0x2005 ∨ n = 0x2006 ∨ n = 0x2007 ∨ n = 0x2008 ∨ n = 0x2009 ∨ n = 0x200A := by omega
  simp [isBlank,whiteSpace,hcontrols,hspaces,or_assoc]

namespace Token

/-- The characters that are tokens by themselves. -/
def punctuation : List Char := ['[',']',',','|','=']

/-- A character at which a text is cut. -/
def IsBoundary (c : Char) : Prop := c.toNat ∈ Text.whiteSpace ∨ c ∈ punctuation

variable {c : Char} {t : String} {ts : List String}

theorem isPunctuation_iff : isPunctuation c = true ↔ c ∈ punctuation := by
  simp [isPunctuation,punctuation,or_assoc]

theorem isWordChar_iff : IsWordChar c ↔ ¬ IsBoundary c := by
  rw [IsWordChar,IsBoundary,not_or,← Text.isBlank_iff,← isPunctuation_iff,Bool.not_eq_true,Bool.not_eq_true]

theorem isWord_iff : IsWord t ↔ t ≠ "" ∧ ∀ c ∈ t.toList, ¬ IsBoundary c := by
  simp only [IsWord,isWordChar_iff]

theorem isToken_iff : IsToken t ↔
    t ≠ "" ∧ ((∃ p ∈ punctuation, t = String.singleton p) ∨ ∀ c ∈ t.toList, ¬ IsBoundary c) := by
  simp only [IsToken,isWord_iff,isPunctuation_iff,String.singleton_eq_ofList]
  constructor
  · intro h
    rcases h with ⟨hne,hplain⟩ | ⟨p,hp,rfl⟩
    · exact ⟨hne,.inr hplain⟩
    · exact ⟨by simp,.inl ⟨p,hp,rfl⟩⟩
  · intro ⟨hne,h⟩
    rcases h with h | hplain
    · exact .inr h
    · exact .inl ⟨hne,hplain⟩

/-! ## Cutting at a character -/

theorem toList_cut (a b : String) (c : Char) : (a ++ String.singleton c ++ b).toList = a.toList ++ c :: b.toList := by
  simp

theorem split_append_blank (a b : String) {w : Char} (hw : w.toNat ∈ Text.whiteSpace) :
    split (a ++ String.singleton w ++ b) = split a ++ split b := by
  rw [split,toList_cut]
  exact scan_append_blank (Text.isBlank_iff.mpr hw) [] a.toList b.toList

theorem split_append_punctuation (a b : String) {p : Char} (hp : p ∈ punctuation) :
    split (a ++ String.singleton p ++ b) = split a ++ String.singleton p :: split b := by
  rw [split,toList_cut,String.singleton_eq_ofList]
  exact scan_append_punctuation (isPunctuation_iff.mpr hp) [] a.toList b.toList

/-! ## Tokens of a text -/

/-- A token that was held back is a word. -/
theorem isWord_of_mem_flush {word : List Char} (hword : ∀ c ∈ word, IsWordChar c) (ht : t ∈ flush word) : IsWord t := by
  unfold flush at ht
  split at ht
  case isTrue => contradiction
  case isFalse hne =>
    obtain rfl := List.mem_singleton.mp ht
    constructor
    · simpa using hne
    · simpa using hword

theorem isToken_of_mem_scan {word cs : List Char} (hword : ∀ c ∈ word, IsWordChar c) (ht : t ∈ scan word cs) :
    IsToken t := by
  -- Nothing but word characters is ever held back, so that only words are flushed.
  induction cs generalizing word with
  | nil => exact (isWord_of_mem_flush hword ht).isToken
  | cons c cs ih =>
    rw [scan] at ht
    split at ht
    case isTrue =>
      rcases List.mem_append.mp ht with ht | ht
      · exact (isWord_of_mem_flush hword ht).isToken
      · exact ih (by simp) ht
    case isFalse hblank =>
      split at ht
      case isTrue hp =>
        rw [List.mem_append,List.mem_cons] at ht
        rcases ht with ht | rfl | ht
        · exact (isWord_of_mem_flush hword ht).isToken
        · exact .inr ⟨c,hp,rfl⟩
        · exact ih (by simp) ht
      case isFalse hp =>
        have hc : IsWordChar c := ⟨by simpa using hblank,by simpa using hp⟩
        exact ih (List.forall_mem_cons.mpr ⟨hc,hword⟩) ht

/-- Whatever a text is, it splits into tokens. -/
theorem isToken_of_mem_split {text : String} (ht : t ∈ split text) : IsToken t :=
  isToken_of_mem_scan (by simp) ht

theorem split_unwords_iff : split (unwords ts) = ts ↔ ∀ t ∈ ts, IsToken t := by
  constructor
  · intro h t ht
    rw [← h] at ht
    exact isToken_of_mem_split ht
  · exact split_unwords

/-- A text is cut exactly at its blanks and at its punctuation characters. Around a blank its two parts are split by
themselves, and around a punctuation character as well, which is a token between theirs; a nonempty text with neither is its
own single token. Hence a list is read back from its text exactly if each member is not empty, and is a punctuation character
or has no such character in it. In particular the tokens of a text, joined by spaces, split into the same tokens. -/
theorem split_at_boundaries :
    (∀ (a b : String) (w : Char), w.toNat ∈ Text.whiteSpace →
      split (a ++ String.singleton w ++ b) = split a ++ split b) ∧
    (∀ (a b : String) (p : Char), p ∈ punctuation →
      split (a ++ String.singleton p ++ b) = split a ++ String.singleton p :: split b) ∧
    (∀ t : String, t ≠ "" → (∀ c ∈ t.toList, ¬ IsBoundary c) → split t = [t]) ∧
    (∀ ts : List String, split (unwords ts) = ts ↔ ∀ t ∈ ts, t ≠ "" ∧
      ((∃ p ∈ punctuation, t = String.singleton p) ∨ ∀ c ∈ t.toList, ¬ IsBoundary c)) ∧
    ∀ text : String, split (unwords (split text)) = split text := by
  refine ⟨fun a b w => split_append_blank a b,fun a b p => split_append_punctuation a b,?_,?_,?_⟩
  · intro t hne hplain
    exact scan_token (isWord_iff.mpr ⟨hne,hplain⟩).isToken
  · intro ts
    rw [split_unwords_iff]
    exact forall₂_congr fun t _ => isToken_iff
  · intro text
    exact split_unwords_iff.mpr fun t => isToken_of_mem_split

/-- An ideographic space cuts like any other blank, and an assignment sign also cuts in front of another one. A lambda that is
written with brackets and a sign is a single token, and what is written with a space in it is none. -/
theorem split_at_boundaries_between_signs :
    Char.toNat '\u3000' ∈ Text.whiteSpace ∧
      split ("x1 =" ++ String.singleton '\u3000' ++ "Sum x0") = split "x1 =" ++ split "Sum x0" ∧
      '=' ∈ punctuation ∧
      split ("x1" ++ String.singleton '=' ++ "=[ ") = split "x1" ++ String.singleton '=' :: split "=[ " ∧
      "*(-1)" ≠ "" ∧ (∀ c ∈ "*(-1)".toList, ¬ IsBoundary c) ∧ split "*(-1)" = ["*(-1)"] ∧
      split (unwords ["x1","= 2"]) ≠ ["x1","= 2"] := by
  obtain ⟨hblank,hpunctuation,hplain,hread,-⟩ := split_at_boundaries
  have hspace : Char.toNat '\u3000' ∈ Text.whiteSpace := by decide
  have hword : IsWord "*(-1)" := by decide
  obtain ⟨hne,hlambda⟩ := isWord_iff.mp hword
  refine ⟨hspace,hblank _ _ _ hspace,by decide,hpunctuation _ _ _ (by decide),hne,hlambda,hplain _ hne hlambda,?_⟩
  intro h
  obtain ⟨-,⟨p,-,hp⟩ | hfree⟩ := (hread _).mp h "= 2" (by simp)
  · have hlen : "= 2".length = 1 := (congrArg String.length hp).trans String.length_singleton
    exact absurd hlen (by decide)
  · exact hfree ' ' (by decide) (.inl (by decide))

end Token
end ListScript
