import ListScript.Token
import ListScript.Token.Group

/-!
# Splitting and joining

A blank or a punctuation character ends the token before it, so a text splits at each of them independently. Tokens
that are words or single punctuation characters survive joining by spaces and splitting. Groups survive joining
and splitting at a separator that none of them contains.
-/
namespace ListScript.Token

/-- A character that stands in a token together with others. -/
def IsWordChar (c : Char) : Prop := Text.isBlank c = false ∧ isPunctuation c = false

instance (c : Char) : Decidable (IsWordChar c) := inferInstanceAs (Decidable (_ ∧ _))

/-- A nonempty text without blanks and punctuation. -/
def IsWord (t : String) : Prop := t ≠ "" ∧ ∀ c ∈ t.toList, IsWordChar c

instance (t : String) : Decidable (IsWord t) :=
  decidable_of_iff (t ≠ "" ∧ t.toList.all (fun c => decide (IsWordChar c)) = true) (by simp [IsWord])

/-- A text that can be a token: a word or a single punctuation character. -/
def IsToken (t : String) : Prop := IsWord t ∨ ∃ c, isPunctuation c = true ∧ t = String.ofList [c]

theorem isBlank_of_isPunctuation {c : Char} (h : isPunctuation c = true) : Text.isBlank c = false := by
  simp only [isPunctuation,Bool.or_eq_true,beq_iff_eq] at h
  rcases h with (((rfl | rfl) | rfl) | rfl) | rfl <;> decide

theorem isWordChar_of_isDigit {c : Char} (h : c.isDigit = true) : IsWordChar c := by
  have hc : 48 ≤ c.toNat ∧ c.toNat ≤ 57 := by
    simpa [Char.isDigit,UInt32.le_iff_toNat_le] using h
  refine ⟨?_,?_⟩
  · simp [Text.isBlank]
    omega
  · simp only [isPunctuation,Bool.or_eq_false_iff,beq_eq_false_iff_ne]
    refine ⟨⟨⟨⟨?_,?_⟩,?_⟩,?_⟩,?_⟩ <;> rintro rfl <;> exact absurd h (by decide)

theorem IsWord.isToken {t : String} (h : IsWord t) : IsToken t := Or.inl h

theorem isToken_assign : IsToken assign := Or.inr ⟨'=',by decide,by decide⟩

theorem isToken_bar : IsToken bar := Or.inr ⟨'|',by decide,by decide⟩

theorem isToken_listOpen : IsToken listOpen := Or.inr ⟨'[',by decide,by decide⟩

theorem isToken_listClose : IsToken listClose := Or.inr ⟨']',by decide,by decide⟩

theorem isToken_comma : IsToken comma := Or.inr ⟨',',by decide,by decide⟩

/-- Word characters are held back. -/
theorem scan_word {cs : List Char} (h : ∀ c ∈ cs, IsWordChar c) (word rest : List Char) :
    scan word (cs ++ rest) = scan (cs.reverse ++ word) rest := by
  induction cs generalizing word with
  | nil => rfl
  | cons c cs ih =>
    obtain ⟨hb,hp⟩ := h c (by simp)
    rw [List.cons_append,scan,if_neg (by simp [hb]),if_neg (by simp [hp]),
      ih (fun d hd => h d (by simp [hd]))]
    simp

/-- A blank ends what is before it. -/
theorem scan_append_blank {b : Char} (hb : Text.isBlank b = true) (word cs rest : List Char) :
    scan word (cs ++ b :: rest) = scan word cs ++ scan [] rest := by
  induction cs generalizing word with
  | nil => simp only [List.nil_append,scan,hb,if_true]
  | cons c cs ih =>
    simp only [List.cons_append,scan]
    split
    · rw [ih,List.append_assoc]
    · split
      · rw [ih,List.append_assoc,List.cons_append]
      · rw [ih]

/-- A punctuation character ends what is before it and is a token itself. -/
theorem scan_append_punctuation {p : Char} (hp : isPunctuation p = true) (word cs rest : List Char) :
    scan word (cs ++ p :: rest) = scan word cs ++ String.ofList [p] :: scan [] rest := by
  induction cs generalizing word with
  | nil =>
    have hb := isBlank_of_isPunctuation hp
    simp only [List.nil_append,scan,hb,hp,Bool.false_eq_true,if_false,if_true]
  | cons c cs ih =>
    simp only [List.cons_append,scan]
    split
    · rw [ih,List.append_assoc]
    · split
      · rw [ih,List.append_assoc,List.cons_append]
      · rw [ih]

/-- A text that can be a token is its own only token. -/
theorem scan_token {t : String} (h : IsToken t) : scan [] t.toList = [t] := by
  rcases h with ⟨hne,hw⟩ | ⟨c,hc,rfl⟩
  · have hs := scan_word hw [] []
    rw [List.append_nil,List.append_nil,scan,flush] at hs
    rw [hs,if_neg (by simpa using hne),List.reverse_reverse,String.ofList_toList]
  · simpa [scan,flush] using scan_append_punctuation hc [] [] []

/-- Joining tokens by spaces and splitting the text gives the tokens back. -/
theorem split_unwords {ts : List String} (h : ∀ t ∈ ts, IsToken t) : split (unwords ts) = ts := by
  unfold split unwords
  induction ts with
  | nil => rfl
  | cons t ts ih =>
    have ht := scan_token (h t (by simp))
    cases ts with
    | nil => simpa using ht
    | cons u ts =>
      have hts := ih (fun v hv => h v (List.mem_cons_of_mem t hv))
      have hsp : (" " : String).toList = [' '] := by decide
      rw [String.intercalate_cons_cons,String.toList_append,String.toList_append,hsp,List.append_assoc,
        List.singleton_append,scan_append_blank (by decide),ht,hts]
      rfl

/-- A newline at the end of a text adds no token. -/
@[simp] theorem split_append_newline (text : String) : split (text ++ "\n") = split text := by
  have hnewline : ("\n" : String).toList = ['\n'] := by decide
  have h := scan_append_blank (b := '\n') (by decide) [] text.toList []
  rw [split,String.toList_append,hnewline,h]
  exact List.append_nil _

variable {α : Type}

theorem splitGroups_of_ne_nil [DecidableEq α] (separator : α) {items : List α} (h : items ≠ []) :
    splitGroups separator items = items.splitOn separator := by
  cases items with
  | nil => contradiction
  | cons a rest => rfl

theorem joinGroups_cons_cons (separator : α) (g g' : List α) (rest : List (List α)) :
    joinGroups separator (g :: g' :: rest) = g ++ separator :: joinGroups separator (g' :: rest) := by
  simp [joinGroups,List.intercalate_cons_cons]

theorem joinGroups_eq_nil {separator : α} {groups : List (List α)} (h : joinGroups separator groups = [])
    (hne : groups ≠ []) : groups = [[]] := by
  cases groups with
  | nil => contradiction
  | cons g rest =>
    cases rest with
    | nil => simpa [joinGroups] using h
    | cons g' rest => simp [joinGroups,List.intercalate_cons_cons] at h

theorem mem_joinGroups {separator a : α} {groups : List (List α)} (h : a ∈ joinGroups separator groups) :
    a = separator ∨ ∃ g ∈ groups, a ∈ g := by
  induction groups with
  | nil => simp [joinGroups] at h
  | cons g rest ih =>
    cases rest with
    | nil => exact Or.inr ⟨g,by simp,by simpa [joinGroups] using h⟩
    | cons g' rest =>
      rw [joinGroups,List.intercalate_cons_cons,List.mem_append,List.mem_append,List.mem_singleton] at h
      rcases h with (h | h) | h
      · exact Or.inr ⟨g,by simp,h⟩
      · exact Or.inl h
      · rcases ih h with h | ⟨g'',hg,ha⟩
        · exact Or.inl h
        · exact Or.inr ⟨g'',List.mem_cons_of_mem g hg,ha⟩

/-- Groups without the separator come back, unless they are one empty group. -/
theorem splitGroups_joinGroups [DecidableEq α] {separator : α} {groups : List (List α)} (hne : groups ≠ [[]])
    (h : ∀ g ∈ groups, separator ∉ g) : splitGroups separator (joinGroups separator groups) = groups := by
  by_cases hg : groups = []
  · rw [hg]
    rfl
  · have hj : joinGroups separator groups ≠ [] := fun he => hne (joinGroups_eq_nil he hg)
    rw [splitGroups_of_ne_nil separator hj]
    exact List.splitOn_intercalate separator h hg

theorem splitGroups_joinGroups_of_ne_nil [DecidableEq α] {separator : α} {groups : List (List α)}
    (hne : ∀ g ∈ groups, g ≠ []) (h : ∀ g ∈ groups, separator ∉ g) :
    splitGroups separator (joinGroups separator groups) = groups := by
  apply splitGroups_joinGroups _ h
  rintro rfl
  exact hne [] (by simp) rfl

end ListScript.Token
