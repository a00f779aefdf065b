import ListScript.Toml.Quoted.RoundTrip

/-!
# Written text is read back

A text is written in one of four quoted forms. Whichever is chosen, the text is read back from it, and what stands after
it is left, provided that this does not begin with a quote mark: after a block that would be taken for a mark of the
text.
-/
namespace ListScript.Toml.Quoted

open Text

/-! ## The end of a block -/

section Marks

variable {mark : Char} {body rest : List Char}

theorem takeWhile_mark (hrest : rest.head? ≠ some mark) : rest.takeWhile (· == mark) = [] := by
  cases rest with
  | nil => rfl
  | cons c rest =>
    have hc : c ≠ mark := by simpa using hrest
    rw [List.takeWhile_cons_of_neg (by simpa using hc)]

/-- What is left of a block that begins with at most two marks is at its end only if it holds nothing else. -/
theorem blockEnd?_body (hbody : (body.takeWhile (· == mark)).length ≤ 2) (hrest : rest.head? ≠ some mark) :
    blockEnd? mark (body ++ mark :: mark :: mark :: rest) =
      if body.all (· == mark) then some (body,rest) else none := by
  by_cases hall : body.all (· == mark) = true
  · obtain ⟨q,rfl⟩ : ∃ q, body = List.replicate q mark := by
      refine ⟨body.length,List.eq_replicate_iff.mpr ⟨rfl,?_⟩⟩
      intro c hc
      simpa using List.all_eq_true.mp hall c hc
    obtain rfl | rfl | rfl : q = 0 ∨ q = 1 ∨ q = 2 := by
      rw [List.takeWhile_replicate,if_pos (beq_self_eq_true mark),List.length_replicate] at hbody
      omega
    all_goals simp [blockEnd?,takeWhile_mark hrest]
  · have hne : (body.takeWhile (· == mark)).length ≠ body.length := by
      intro hlen
      have heq : body.takeWhile (· == mark) = body := (List.takeWhile_prefix _).eq_of_length hlen
      exact hall (heq ▸ List.all_takeWhile)
    rw [if_neg hall,blockEnd?,List.takeWhile_append,if_neg hne]
    simp only
    rw [if_pos (by omega)]

theorem blockEnd?_of_ne {c : Char} (hc : c ≠ mark) (cs : List Char) : blockEnd? mark (c :: cs) = none := by
  simp [blockEnd?,hc]

end Marks

/-! ## Characters that stand for themselves -/

theorem isPlain_of_not_isHidden {c : Char} (h : isHidden c = false) : isPlain c = true ∨ c = '\n' := by
  by_cases hn : c = '\n'
  · exact Or.inr hn
  · left
    by_cases ht : c = '\t'
    · simp [isPlain,ht]
    · simp only [isHidden,ht,hn,ne_eq,not_false_eq_true,decide_true,Bool.and_true,Bool.or_eq_false_iff,
        decide_eq_false_iff_not,beq_eq_false_iff_ne] at h
      simp only [isPlain,Bool.or_eq_true,Bool.and_eq_true,decide_eq_true_eq]
      right
      omega

/-! ## Single quotes -/

theorem literalLine_closed {cs rest : List Char} (hhidden : cs.any isHidden = false) (hmark : '\'' ∉ cs)
    (hbreak : '\n' ∉ cs) : literalLine (cs ++ '\'' :: rest) = some (cs,rest) := by
  induction cs with
  | nil => rfl
  | cons c cs ih =>
    rw [List.any_cons,Bool.or_eq_false_iff] at hhidden
    rw [List.mem_cons,not_or] at hmark hbreak
    have hplain : isPlain c = true := (isPlain_of_not_isHidden hhidden.1).resolve_right (Ne.symm hbreak.1)
    rw [List.cons_append,literalLine,if_neg (Ne.symm hmark.1),if_pos hplain,ih hhidden.2 hmark.2 hbreak.2]
    rfl

theorem takeWhile_of_hasTriple {mark : Char} {cs : List Char} (h : hasTriple mark cs = false) :
    (cs.takeWhile (· == mark)).length ≤ 2 := by
  match cs with
  | [] => simp
  | [a] => exact Nat.le_trans (List.takeWhile_prefix _).length_le (by simp)
  | [a,b] => exact Nat.le_trans (List.takeWhile_prefix _).length_le (by simp)
  | a :: b :: c :: cs =>
    rw [hasTriple,Bool.or_eq_false_iff] at h
    simp only [List.takeWhile_cons]
    by_cases ha : a == mark <;> by_cases hb : b == mark <;> by_cases hc : c == mark <;> simp_all

theorem hasTriple_tail {mark c : Char} {cs : List Char} (h : hasTriple mark (c :: cs) = false) :
    hasTriple mark cs = false := by
  match cs with
  | [] | [_] => rfl
  | _ :: _ :: _ =>
    rw [hasTriple,Bool.or_eq_false_iff] at h
    exact h.2

/-- A block in single quotes is read back up to the marks that close it, if it has no three marks in a row. -/
theorem literalBlock_closed {cs rest : List Char} (hhidden : cs.any isHidden = false)
    (htriple : hasTriple '\'' cs = false) (hrest : rest.head? ≠ some '\'') :
    literalBlock (cs ++ '\'' :: '\'' :: '\'' :: rest) = some (cs,rest) := by
  have hend := blockEnd?_body (takeWhile_of_hasTriple htriple) hrest
  induction cs with
  | nil =>
    rw [List.nil_append] at hend ⊢
    rw [literalBlock,hend]
    rfl
  | cons c cs ih =>
    rw [List.any_cons,Bool.or_eq_false_iff] at hhidden
    have htail := hasTriple_tail htriple
    rw [List.cons_append] at hend ⊢
    rw [literalBlock,hend]
    by_cases hall : (c :: cs).all (· == '\'') = true
    · rw [if_pos hall]
    · rw [if_neg hall]
      simp only
      rw [if_pos (isPlain_of_not_isHidden hhidden.1),
        ih hhidden.2 htail (blockEnd?_body (takeWhile_of_hasTriple htail) hrest)]
      rfl

/-! ## Double quotes -/

/-- A character other than a quote mark stands for itself, or a backslash and a letter stand for it, or a backslash and
its code. -/
inductive IsEscape (inBlock : Bool) (c : Char) : List Char → Prop
  | itself (hslash : c ≠ '\\') (hplain : isPlain c = true ∨ inBlock = true ∧ c = '\n') : IsEscape inBlock c [c]
  | letter {e : Char} (hnext : Escape.start.next e = some (.inr c)) : IsEscape inBlock c ['\\',e]
  | code (hc : c.toNat < 128) : IsEscape inBlock c ('\\' :: 'u' :: Hex.four Hex.upper c.toNat)

theorem isEscape_escapeChar (inBlock : Bool) (c : Char) : IsEscape inBlock c (escapeChar inBlock c) := by
  unfold escapeChar
  split
  · subst c; exact .letter rfl
  split
  · subst c; exact .letter rfl
  split
  · subst c
    cases inBlock
    · exact .letter rfl
    · exact .itself (by decide) (Or.inr ⟨rfl,rfl⟩)
  split
  · subst c; exact .letter rfl
  split
  · next h =>
    obtain rfl : c = '\x08' := Char.toNat_inj.mp h
    exact .letter rfl
  split
  · next h =>
    obtain rfl : c = '\x0c' := Char.toNat_inj.mp h
    exact .letter rfl
  split
  · exact .code (by omega)
  · next hslash _ _ _ _ _ _ =>
    refine .itself hslash (Or.inl ?_)
    simp only [isPlain,Bool.or_eq_true,Bool.and_eq_true,decide_eq_true_eq]
    omega

theorem IsEscape.exists_eq_cons {inBlock : Bool} {c : Char} {cs : List Char} (h : IsEscape inBlock c cs) :
    ∃ d ds, cs = d :: ds ∧ (d = c ∨ d = '\\') := by
  cases h with
  | itself => exact ⟨c,[],rfl,Or.inl rfl⟩
  | letter | code => exact ⟨_,_,rfl,Or.inr rfl⟩

/-- What is written for a character begins with it or with a backslash. Within a line a quote mark is never written as it
is. -/
theorem exists_escape_eq_cons (inBlock : Bool) (run : Nat) (c : Char) (cs : List Char) :
    ∃ d ds, escape inBlock run (c :: cs) = d :: ds ∧ (d = c ∧ (c = '"' → inBlock = true) ∨ d = '\\') := by
  rw [escape]
  by_cases hc : c = '"'
  · rw [if_pos hc]
    cases inBlock with
    | false => exact ⟨_,_,rfl,Or.inr rfl⟩
    | true =>
      split
      · exact ⟨_,_,rfl,Or.inl ⟨hc.symm,fun _ => rfl⟩⟩
      · exact ⟨_,_,rfl,Or.inr rfl⟩
  · obtain ⟨d,ds,hds,hd⟩ := (isEscape_escapeChar inBlock c).exists_eq_cons
    rw [if_neg hc,hds]
    exact ⟨d,_,rfl,hd.imp_left fun h => ⟨h,fun h => absurd h hc⟩⟩

/-- At most two marks in a row are written as they are. -/
theorem takeWhile_escape (cs : List Char) {run : Nat} (hrun : run ≤ 2) :
    ((escape true run cs).takeWhile (· == '"')).length ≤ 2 - run := by
  induction cs generalizing run with
  | nil => simp [escape]
  | cons c cs ih =>
    rw [escape]
    by_cases hc : c = '"'
    · rw [if_pos hc]
      by_cases hlt : run < 2
      · have htail := @ih (run + 1) (by omega)
        simp only [hlt,decide_true,Bool.and_self,if_true]
        rw [List.takeWhile_cons_of_pos (by decide),List.length_cons]
        omega
      · simp [hlt]
    · obtain ⟨d,ds,hds,hd⟩ := (isEscape_escapeChar true c).exists_eq_cons
      have hne : d ≠ '"' := by
        rintro rfl
        simp [Ne.symm hc] at hd
      rw [if_neg hc,hds,List.cons_append,List.takeWhile_cons_of_neg (by simpa using hne)]
      simp

theorem escape_of_marks {cs : List Char} {run : Nat} (h : (escape true run cs).all (· == '"') = true) :
    escape true run cs = cs := by
  induction cs generalizing run with
  | nil => rfl
  | cons c cs ih =>
    rw [escape] at h ⊢
    by_cases hc : c = '"'
    · rw [if_pos hc] at h ⊢
      by_cases hlt : run < 2
      · simp only [hlt,decide_true,Bool.and_self,if_true,List.all_cons,Bool.and_eq_true] at h ⊢
        rw [ih h.2,hc]
      · simp [hlt] at h
    · obtain ⟨d,ds,hds,hd⟩ := (isEscape_escapeChar true c).exists_eq_cons
      have hne : d ≠ '"' := by
        rintro rfl
        simp [Ne.symm hc] at hd
      rw [if_neg hc,hds] at h
      simp [hne] at h

/-- The code of a character below 128, in four digits, stands for that character in a block, too. -/
theorem basicBlock_code {n : Nat} (h : n < 128) (rest : List Char) :
    basicBlock (.escape (.code 4 0)) (Hex.four Hex.upper n ++ rest) =
      (basicBlock .text rest).map fun (text,rest) => (Char.ofNat n :: text,rest) := by
  have h₁ : n / 4096 % 16 = 0 := by omega
  have h₂ : n / 256 % 16 = 0 := by omega
  have h₃ : n / 16 % 16 < 16 := by omega
  have h₄ : n % 16 < 16 := by omega
  have h₅ : 16 * (n / 16 % 16) + n % 16 = n := by omega
  have h₆ : n.isValidChar := Or.inl (by omega)
  simp [Hex.four,basicBlock,Escape.next,h₁,h₂,Hex.digit?_upper,h₃,h₄,char?,h₅,h₆]

theorem basicBlock_letter {c e : Char} (h : Escape.start.next e = some (.inr c)) (rest : List Char) :
    basicBlock .text ('\\' :: e :: rest) = (basicBlock .text rest).map fun (text,rest) => (c :: text,rest) := by
  have hne : ∀ d, Escape.start.next d = none → e ≠ d := by
    rintro d hd rfl
    rw [hd] at h
    contradiction
  have hblank : isBlank e = false := by simp [isBlank,hne ' ' rfl,hne '\t' rfl]
  simp [basicBlock,hblank,hne '\n' rfl,h]

theorem IsEscape.basicBlock {c : Char} {cs : List Char} (h : IsEscape true c cs) (hc : c ≠ '"') (rest : List Char) :
    basicBlock .text (cs ++ rest) = (basicBlock .text rest).map fun (text,rest) => (c :: text,rest) := by
  cases h with
  | itself hslash hplain =>
    have hplain' : isPlain c = true ∨ c = '\n' := hplain.imp_right And.right
    simp [Quoted.basicBlock,blockEnd?_of_ne hc,hslash,hplain']
  | letter hnext => exact basicBlock_letter hnext rest
  | code hcode =>
    have hread := basicBlock_code hcode rest
    simp [Quoted.basicBlock,Escape.next,isBlank,hread]

theorem blockEnd?_escape (cs : List Char) {run : Nat} (hrun : run ≤ 2) {rest : List Char}
    (hrest : rest.head? ≠ some '"') :
    blockEnd? '"' (escape true run cs ++ '"' :: '"' :: '"' :: rest) =
      if (escape true run cs).all (· == '"') then some (escape true run cs,rest) else none :=
  blockEnd?_body (Nat.le_trans (takeWhile_escape cs hrun) (Nat.sub_le 2 run)) hrest

/-- A block in double quotes is read back up to the marks that close it. -/
theorem basicBlock_closed (cs : List Char) {run : Nat} (hrun : run ≤ 2) {rest : List Char}
    (hrest : rest.head? ≠ some '"') :
    basicBlock .text (escape true run cs ++ '"' :: '"' :: '"' :: rest) = some (cs,rest) := by
  have hend := blockEnd?_escape cs hrun hrest
  induction cs generalizing run with
  | nil =>
    rw [escape,List.nil_append] at hend ⊢
    simp [basicBlock,hend]
  | cons c cs ih =>
    have hfresh := @ih 0 (by omega) (blockEnd?_escape cs (by omega) hrest)
    by_cases hc : c = '"'
    · subst c
      by_cases hlt : run < 2
      · -- The mark is written as it is, and ends the block only if nothing but marks follow.
        have hescape : escape true run ('"' :: cs) = '"' :: escape true (run + 1) cs := by
          simp [escape,hlt]
        rw [hescape,List.cons_append] at hend ⊢
        by_cases hall : ('"' :: escape true (run + 1) cs).all (· == '"') = true
        · have heq := escape_of_marks (hescape ▸ hall)
          rw [hescape] at heq
          rw [if_pos hall,heq] at hend
          simp [basicBlock,hend]
        · have hread := @ih (run + 1) (by omega) (blockEnd?_escape cs (by omega) hrest)
          rw [if_neg hall] at hend
          simp [basicBlock,hend,hread,isPlain]
      · have hescape : escape true run ('"' :: cs) = '\\' :: '"' :: escape true 0 cs := by
          simp [escape,hlt]
        rw [hescape,List.cons_append,List.cons_append,basicBlock_letter rfl,hfresh]
        rfl
    · rw [escape,if_neg hc,List.append_assoc,(isEscape_escapeChar true c).basicBlock hc,hfresh]
      rfl

/-! ## The four forms -/

/-- A form can hold a text. In double quotes any text can stand, since every character can be escaped. -/
inductive Fits (cs : List Char) : Form → Prop
  | basicLine : Fits cs .basicLine
  | literalLine (hhidden : cs.any isHidden = false) (hmark : '\'' ∉ cs) (hbreak : '\n' ∉ cs) : Fits cs .literalLine
  | basicBlock : Fits cs .basicBlock
  | literalBlock (hhidden : cs.any isHidden = false) (htriple : hasTriple '\'' cs = false) : Fits cs .literalBlock

theorem fits_form (cs : List Char) : Fits cs (form cs) := by
  unfold form
  dsimp only
  split
  · exact .basicLine
  split
  · next h =>
    simp only [Bool.and_eq_true,Bool.not_eq_true',List.contains_eq_mem,decide_eq_false_iff_not] at h
    exact .literalLine h.1.1 h.1.2 h.2
  split
  · exact .basicBlock
  split
  · next h =>
    simp only [Bool.and_eq_true,Bool.not_eq_true'] at h
    exact .literalBlock h.1 h.2
  split
  · exact .basicBlock
  · exact .basicLine

/-- The line break after the opening marks is passed over, and nothing of the text. -/
theorem skipBreak_leadingBreak {cs body : List Char} (h : '\n' ∉ cs → body.head? ≠ some '\n') :
    skipBreak (leadingBreak cs ++ body) = body := by
  unfold leadingBreak
  by_cases hbreak : cs.contains '\n' = true
  · rw [if_pos hbreak]
    rfl
  · rw [if_neg hbreak,List.nil_append]
    cases body with
    | nil => rfl
    | cons c body =>
      have hc : c ≠ '\n' := by simpa using h (by simpa using hbreak)
      unfold skipBreak
      split
      · next heq => exact absurd (List.cons.inj heq).1 hc
      · rfl

theorem text_double {cs : List Char} (h : ∀ ds, cs ≠ '"' :: '"' :: ds) :
    text ('"' :: cs) = (basicLine none cs).map fun (text,rest) => (String.ofList text,rest) := by
  unfold text
  split
  · next heq => exact absurd (List.cons.inj heq).2 (h _)
  · next heq =>
    obtain ⟨-,rfl⟩ := List.cons.inj heq
    rfl
  all_goals simp_all

theorem text_single {cs : List Char} (h : ∀ ds, cs ≠ '\'' :: '\'' :: ds) :
    text ('\'' :: cs) = (literalLine cs).map fun (text,rest) => (String.ofList text,rest) := by
  unfold text
  split
  · simp_all
  · simp_all
  · next heq => exact absurd (List.cons.inj heq).2 (h _)
  · next heq =>
    obtain ⟨-,rfl⟩ := List.cons.inj heq
    rfl
  · simp_all

/-- A text is read back from each form that can hold it, if no quote mark follows. -/
theorem Fits.text {cs : List Char} {f : Form} (h : Fits cs f) {rest : List Char}
    (hrest : ∀ c ∈ rest.head?, c ≠ '"' ∧ c ≠ '\'') : text (encode cs f ++ rest) = some (String.ofList cs,rest) := by
  have hdouble : rest.head? ≠ some '"' := fun h => (hrest _ h).1 rfl
  have hsingle : rest.head? ≠ some '\'' := fun h => (hrest _ h).2 rfl
  cases h with
  | basicLine =>
    have hread := basicLine_escape cs rest 0
    have hline : ∀ ds, escape false 0 cs ++ '"' :: rest ≠ '"' :: '"' :: ds := by
      intro ds heq
      cases cs with
      | nil => simp_all [escape]
      | cons c cs =>
        obtain ⟨d,ds',hds,hd⟩ := exists_escape_eq_cons false 0 c cs
        rw [hds] at heq
        obtain ⟨rfl,-⟩ := List.cons.inj heq
        rcases hd with ⟨rfl,hc⟩ | hd <;> simp_all
    simp [encode,text_double hline,hread]
  | literalLine hhidden hmark hbreak =>
    have hread : Quoted.literalLine (cs ++ '\'' :: rest) = some (cs,rest) := literalLine_closed hhidden hmark hbreak
    have hline : ∀ ds, cs ++ '\'' :: rest ≠ '\'' :: '\'' :: ds := by
      intro ds heq
      cases cs <;> simp_all
    simp [encode,text_single hline,hread]
  | basicBlock =>
    have hread := basicBlock_closed cs (Nat.zero_le 2) hdouble
    have hskip : skipBreak (leadingBreak cs ++ (escape true 0 cs ++ '"' :: '"' :: '"' :: rest)) =
        escape true 0 cs ++ '"' :: '"' :: '"' :: rest := by
      apply skipBreak_leadingBreak
      intro hbreak
      cases cs with
      | nil => simp [escape]
      | cons c cs =>
        obtain ⟨d,ds,hds,hd⟩ := exists_escape_eq_cons true 0 c cs
        rw [hds]
        rcases hd with ⟨rfl,-⟩ | rfl
        · simpa using Ne.symm (List.ne_of_not_mem_cons hbreak)
        · simp
    simp [encode,Quoted.text,hskip,hread]
  | literalBlock hhidden htriple =>
    have hread := literalBlock_closed hhidden htriple hsingle
    have hskip : skipBreak (leadingBreak cs ++ (cs ++ '\'' :: '\'' :: '\'' :: rest)) =
        cs ++ '\'' :: '\'' :: '\'' :: rest := by
      apply skipBreak_leadingBreak
      intro hbreak
      cases cs with
      | nil => simp
      | cons c cs => simpa using Ne.symm (List.ne_of_not_mem_cons hbreak)
    simp [encode,Quoted.text,hskip,hread]

/-! ## Carriage returns -/

theorem IsEscape.return_not_mem {inBlock : Bool} {c : Char} {cs : List Char} (h : IsEscape inBlock c cs) :
    '\r' ∉ cs := by
  cases h with
  | itself _ hplain =>
    intro hmem
    obtain rfl := List.mem_singleton.mp hmem
    rcases hplain with hplain | ⟨-,hbreak⟩ <;> contradiction
  | @letter e hnext =>
    intro hmem
    obtain rfl : '\r' = e := by simpa using hmem
    contradiction
  | code =>
    have hdigit : ∀ d : Fin 16, Hex.upper d ≠ '\r' := by decide
    have hfour : '\r' ∉ Hex.four Hex.upper c.toNat := by
      intro hmem
      obtain ⟨d,hd,hlt⟩ : ∃ d, Hex.upper d = '\r' ∧ d < 16 := by
        simp only [Hex.four,List.mem_cons,List.not_mem_nil,or_false] at hmem
        rcases hmem with h | h | h | h <;> exact ⟨_,h.symm,Nat.mod_lt _ (by decide)⟩
      exact hdigit ⟨d,hlt⟩ hd
    simpa using hfour

theorem return_not_mem_escape (inBlock : Bool) (run : Nat) (cs : List Char) : '\r' ∉ escape inBlock run cs := by
  induction cs generalizing run with
  | nil => simp [escape]
  | cons c cs ih =>
    rw [escape]
    by_cases hc : c = '"'
    · rw [if_pos hc]
      split <;> simp [ih]
    · rw [if_neg hc,List.mem_append,not_or]
      exact ⟨(isEscape_escapeChar inBlock c).return_not_mem,ih 0⟩

/-- A carriage return is always escaped. -/
theorem Fits.return_not_mem {cs : List Char} {f : Form} (h : Fits cs f) : '\r' ∉ encode cs f := by
  have hshown : cs.any isHidden = false → '\r' ∉ cs := by
    intro hhidden hmem
    rw [List.any_eq_false] at hhidden
    exact hhidden _ hmem rfl
  have hbreak : '\r' ∉ leadingBreak cs := by
    unfold leadingBreak
    split <;> simp
  cases h with
  | basicLine => simp [encode,return_not_mem_escape]
  | literalLine hhidden => simp [encode,hshown hhidden]
  | basicBlock => simp [encode,return_not_mem_escape,hbreak]
  | literalBlock hhidden => simp [encode,hshown hhidden,hbreak]

/-! ## Written text -/

theorem toList_write (s : String) : (write s).toList = encode s.toList (form s.toList) := String.toList_ofList

/-- A written text is read back if no quote mark follows. -/
theorem text_write (s : String) {rest : List Char} (hrest : ∀ c ∈ rest.head?, c ≠ '"' ∧ c ≠ '\'') :
    text ((write s).toList ++ rest) = some (s,rest) := by
  rw [toList_write,(fits_form s.toList).text hrest,String.ofList_toList]

theorem return_not_mem_write (s : String) : '\r' ∉ (write s).toList := by
  rw [toList_write]
  exact (fits_form s.toList).return_not_mem

/-- A written text begins with a quote mark. -/
theorem exists_write_eq_cons (s : String) : ∃ mark cs, (write s).toList = mark :: cs ∧ (mark = '"' ∨ mark = '\'') := by
  rw [toList_write]
  cases form s.toList with
  | basicLine | basicBlock => exact ⟨_,_,rfl,Or.inl rfl⟩
  | literalLine | literalBlock => exact ⟨_,_,rfl,Or.inr rfl⟩

end ListScript.Toml.Quoted
