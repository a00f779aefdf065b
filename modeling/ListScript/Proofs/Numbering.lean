import Mathlib.Data.List.Nodup
import ListScript.Proofs.Grammar
import ListScript.Vocabulary

/-!
# Numbering of tokens

The table of a vocabulary has no token twice: only one of its integers is there already when the integers come in. As
long as the table can be numbered by 32-bit words, a token and its number therefore determine each other, and so do
lists of them.
-/
namespace ListScript
open Reading

/-! ## Distinct tokens -/

theorem Decimal.ofInt_injective : Function.Injective ofInt := by
  intro m n h
  have hm := toInt?_ofInt m
  rw [h,toInt?_ofInt] at hm
  exact (Option.some.inj hm).symm

/-- A variable is not an integer. -/
theorem Variable.toInt?_token (index : Nat) : Decimal.toInt? (token index).toList = none := by
  simp [Decimal.toInt?,Decimal.toNat?]

namespace Vocabulary

/-- Only the tokens that are not there yet come in, each of them once. -/
theorem foldl_addMissing {new : List String} (hnew : new.Nodup) (tokens : List String) :
    new.foldl addMissing tokens = tokens ++ new.filter fun t => t ∉ tokens := by
  -- For any tokens, since each new one is looked for among those before it too.
  induction new generalizing tokens with
  | nil => simp
  | cons t new ih =>
    obtain ⟨ht,hnew⟩ := List.nodup_cons.mp hnew
    rw [List.foldl_cons,ih hnew,addMissing]
    split
    · rename_i hmem
      rw [List.filter_cons_of_neg (by simpa using hmem)]
    · rename_i hmem
      have hfilter : (new.filter fun u => u ∉ tokens ++ [t]) = new.filter fun u => u ∉ tokens := by
        apply List.filter_congr
        intro u hu
        have hne : u ≠ t := by
          rintro rfl
          exact ht hu
        simp [hne]
      rw [hfilter,List.filter_cons_of_pos (by simpa using hmem),List.append_assoc,List.singleton_append]

theorem nodup_integers : integers.Nodup := by
  apply List.Nodup.map _ List.nodup_range
  intro i j h
  dsimp only at h
  omega

theorem nodup_leadingTokens (n : Nat) : (leadingTokens n).Nodup := by
  have hx : ∀ t ∈ fixedTokens, t.toList.head? ≠ some 'x' := by decide
  refine List.Nodup.append (by decide) (List.nodup_range.map Variable.token_injective) ?_
  intro t hfixed hvariable
  obtain ⟨i,-,rfl⟩ := List.mem_map.mp hvariable
  exact hx _ hfixed (by simp)

/-- One integer is among the other tokens: it is also a lambda. -/
theorem ofInt_mem_leadingTokens {n : Nat} {i : Int} : Decimal.ofInt i ∈ leadingTokens n ↔ i = -1 := by
  constructor
  · intro h
    have hfixed : ∀ t ∈ fixedTokens, ∀ j ∈ Decimal.toInt? t.toList, j = -1 := by decide
    rcases List.mem_append.mp h with h | h
    · exact hfixed _ h i (Decimal.toInt?_ofInt i)
    · obtain ⟨index,-,h⟩ := List.mem_map.mp h
      have hnone := Variable.toInt?_token index
      rw [h,Decimal.toInt?_ofInt] at hnone
      contradiction
  · rintro rfl
    exact List.mem_append_left _ (by decide)

theorem tokens_ofMaxVariables (n : Nat) : (ofMaxVariables n).tokens =
    leadingTokens n ++ (integers.map Decimal.ofInt).filter fun t => t ∉ leadingTokens n := by
  rw [ofMaxVariables,foldl_addMissing (nodup_integers.map Decimal.ofInt_injective)]

/-- No token has two numbers. -/
theorem nodup_tokens (n : Nat) : (ofMaxVariables n).tokens.Nodup := by
  rw [tokens_ofMaxVariables]
  refine List.Nodup.append (nodup_leadingTokens n) ((nodup_integers.map Decimal.ofInt_injective).filter _) ?_
  intro t hleading hinteger
  have hnot := (List.mem_filter.mp hinteger).2
  simp [hleading] at hnot

/-- The size of a vocabulary, apart from its variables. -/
theorem size_ofMaxVariables (n : Nat) : (ofMaxVariables n).size = n+555 := by
  have hintegers : ((integers.map Decimal.ofInt).filter fun t => t ∉ leadingTokens n).length = 512 := by
    rw [List.filter_map,List.length_map]
    simp only [Function.comp_def,ofInt_mem_leadingTokens]
    decide +kernel
  rw [size,tokens_ofMaxVariables,List.length_append,hintegers,leadingTokens,List.length_append,List.length_map,
    List.length_range]
  have hfixed : fixedTokens.length = 43 := by decide
  omega

/-! ## Numbers -/

variable {v : Vocabulary}

theorem mem_entries {t : String} {i : Nat} :
    (t,i) ∈ v.entries ↔ ∃ j, v.tokens[j]? = some t ∧ j % UInt32.size = i := by
  simp only [entries,List.mem_reverse,List.mem_mapIdx,Prod.mk.injEq,List.getElem?_eq_some_iff]
  constructor
  · rintro ⟨j,hj,ht,hi⟩
    exact ⟨j,⟨hj,ht⟩,hi⟩
  · rintro ⟨j,⟨hj,ht⟩,hi⟩
    exact ⟨j,hj,ht,hi⟩

theorem id?_eq_none_iff {t : String} : v.id? t = none ↔ t ∉ v.tokens := by
  rw [id?,List.lookup_eq_none_iff]
  constructor
  · intro h ht
    obtain ⟨j,hj⟩ := List.mem_iff_getElem?.mp ht
    simpa using h _ (mem_entries.mpr ⟨j,hj,rfl⟩)
  · rintro ht ⟨u,i⟩ hu
    obtain ⟨j,hj,-⟩ := mem_entries.mp hu
    have hne : t ≠ u := by
      rintro rfl
      exact ht (List.mem_of_getElem? hj)
    simpa using hne

theorem token?_eq_none_iff {i : Nat} : v.token? i = none ↔ v.size ≤ i := List.getElem?_eq_none_iff

/-- In a table without repetition that 32-bit words can number, a number and its token determine each other. -/
theorem id?_eq_some_iff (hnodup : v.tokens.Nodup) (hsize : v.size ≤ UInt32.size) {t : String} {i : Nat} :
    v.id? t = some i ↔ v.token? i = some t := by
  -- No position is reduced, so an entry shows where its token stands; without repetition it stands nowhere else.
  have hentry : ∀ {j}, (t,j) ∈ v.entries → v.token? j = some t := by
    intro j hj
    obtain ⟨k,hk,rfl⟩ := mem_entries.mp hj
    have hlt : k < v.size := (List.getElem?_eq_some_iff.mp hk).1
    rw [token?,Nat.mod_eq_of_lt (by omega),hk]
  constructor
  · intro h
    obtain ⟨later,earlier,hentries,-⟩ := List.lookup_eq_some_iff.mp h
    exact hentry (by simp [hentries])
  · intro h
    have hlt : i < v.size := (List.getElem?_eq_some_iff.mp h).1
    cases hid : v.id? t with
    | none => exact absurd (List.mem_of_getElem? h) (id?_eq_none_iff.mp hid)
    | some j =>
      obtain ⟨later,earlier,hentries,-⟩ := List.lookup_eq_some_iff.mp hid
      have hj : v.token? j = some t := hentry (by simp [hentries])
      rw [(List.getElem?_inj hlt hnodup).mp (h.trans hj.symm)]

theorem idOfToken_eq_ok_iff {t : String} {i : Nat} : v.idOfToken t = .ok i ↔ v.id? t = some i := by
  unfold idOfToken
  cases v.id? t <;> simp

theorem idOfToken_eq_error_iff {t : String} {e : ParseError} :
    v.idOfToken t = .error e ↔ t ∉ v.tokens ∧ e = .unknownToken t := by
  rw [← id?_eq_none_iff]
  unfold idOfToken
  cases v.id? t <;> simp [eq_comm]

theorem tokenOfId_eq_ok_iff {i : Nat} {t : String} : v.tokenOfId i = .ok t ↔ v.token? i = some t := by
  unfold tokenOfId
  cases v.token? i <;> simp

theorem tokenOfId_eq_error_iff {i : Nat} {e : ParseError} :
    v.tokenOfId i = .error e ↔ v.size ≤ i ∧ e = .unknownTokenId i := by
  rw [← token?_eq_none_iff]
  unfold tokenOfId
  cases v.token? i <;> simp [eq_comm]

theorem exists_idOfToken_iff {t : String} : (∃ i, v.idOfToken t = .ok i) ↔ t ∈ v.tokens := by
  simp only [idOfToken_eq_ok_iff,← Option.isSome_iff_exists]
  rw [Option.isSome_iff_ne_none,ne_eq,id?_eq_none_iff,Decidable.not_not]

theorem exists_tokenOfId_iff {i : Nat} : (∃ t, v.tokenOfId i = .ok t) ↔ i < v.size := by
  simp only [tokenOfId_eq_ok_iff,← Option.isSome_iff_exists]
  rw [Option.isSome_iff_ne_none,ne_eq,token?_eq_none_iff,Nat.not_le]

/-! ## Lists of numbers -/

/-- Encoding fails at the first token that is not in the table. -/
theorem encode_eq_error_iff {ts : List String} {e : ParseError} : v.encode ts = .error e ↔
    ∃ before t after, ts = before ++ t :: after ∧ (∀ u ∈ before, u ∈ v.tokens) ∧ t ∉ v.tokens ∧
      e = .unknownToken t := by
  simp only [encode,mapM_eq_error_iff,exists_and_left,exists_and_right,exists_mapM_eq_ok_iff,exists_idOfToken_iff,
    idOfToken_eq_error_iff]

/-- Decoding fails at the first number beyond the table. -/
theorem decode_eq_error_iff {ids : List Nat} {e : ParseError} : v.decode ids = .error e ↔
    ∃ before i after, ids = before ++ i :: after ∧ (∀ j ∈ before, j < v.size) ∧ v.size ≤ i ∧
      e = .unknownTokenId i := by
  simp only [decode,mapM_eq_error_iff,exists_and_left,exists_and_right,exists_mapM_eq_ok_iff,exists_tokenOfId_iff,
    tokenOfId_eq_error_iff]

/-- The tokens of a vocabulary and its numbers correspond one to one, token by token and list by list; where encoding or
decoding fails, the error shows the first item that has no counterpart. -/
structure IsNumbering (v : Vocabulary) : Prop where
  nodup : v.tokens.Nodup
  inverse : ∀ t i, v.id? t = some i ↔ v.token? i = some t
  encode_iff_decode : ∀ ts ids, v.encode ts = .ok ids ↔ v.decode ids = .ok ts
  encode_error : ∀ ts e, v.encode ts = .error e ↔ ∃ before t after, ts = before ++ t :: after ∧
    (∀ u ∈ before, u ∈ v.tokens) ∧ t ∉ v.tokens ∧ e = .unknownToken t
  decode_error : ∀ ids e, v.decode ids = .error e ↔ ∃ before i after, ids = before ++ i :: after ∧
    (∀ j ∈ before, j < v.size) ∧ v.size ≤ i ∧ e = .unknownTokenId i

/-- The vocabulary for at most `n` variables has 555 tokens more than variables. If 32-bit words can number them all,
its tokens and numbers correspond one to one. -/
theorem ofMaxVariables_isNumbering {n : Nat} (hn : n+555 ≤ UInt32.size) :
    (ofMaxVariables n).size = n+555 ∧ (ofMaxVariables n).IsNumbering := by
  have hsize := size_ofMaxVariables n
  have hinverse : ∀ t i, (ofMaxVariables n).id? t = some i ↔ (ofMaxVariables n).token? i = some t :=
    fun t i => id?_eq_some_iff (nodup_tokens n) (hsize ▸ hn)
  refine ⟨hsize,nodup_tokens n,hinverse,?_,fun ts e => encode_eq_error_iff,fun ids e => decode_eq_error_iff⟩
  intro ts ids
  apply mapM_eq_ok_comm
  intro t i
  rw [idOfToken_eq_ok_iff,tokenOfId_eq_ok_iff,hinverse]

theorem ofMaxVariables_isNumbering_default :
    defaultMaxVariables+555 ≤ UInt32.size ∧ (ofMaxVariables defaultMaxVariables).size = 575 ∧
      (ofMaxVariables defaultMaxVariables).IsNumbering := by
  have hn : defaultMaxVariables+555 ≤ UInt32.size := by decide
  exact ⟨hn,ofMaxVariables_isNumbering hn⟩

end Vocabulary
end ListScript
