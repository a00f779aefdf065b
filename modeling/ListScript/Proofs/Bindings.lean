import ListScript.Proofs.Canonical
import ListScript.Proofs.Grammar
import ListScript.State

/-!
# Texts of states

Reading a state accepts exactly bindings of its variables in order, each to a spelling of a value within bounds. Hence a
state is read back from what it is written with if its values are within bounds; otherwise reading stops at the first
value that is not.
-/
namespace ListScript
open Reading

namespace State

/-- A group binds the variable of a position to a value: the variable, the assignment sign and a spelling of the
value. -/
inductive IsBinding (position : Nat) : List String → Value → Prop
  | mk {spelling : List String} {v : Value} (h : Value.IsSpelling spelling v) :
      IsBinding position (Variable.token position :: Token.assign :: spelling) v

/-- Groups bind the variables from a position on, in order, to the values of a list. -/
inductive AreBindings : Nat → List (List String) → List Value → Prop
  | nil {position : Nat} : AreBindings position [] []
  | cons {position : Nat} {group : List String} {groups : List (List String)} {v : Value} {vs : List Value}
      (h : IsBinding position group v) (hs : AreBindings (position+1) groups vs) :
      AreBindings position (group :: groups) (v :: vs)

/-! ## One binding -/

theorem isBinding_binding (position : Nat) (v : Value) : IsBinding position (binding position v) v :=
  .mk v.isSpelling_tokens

/-- A binding of the expected variable is read as its value, unless that is out of bounds. -/
theorem valueOfBinding_of_isBinding {position : Nat} {group : List String} {v : Value}
    (hp : position < UInt64.size) (h : IsBinding position group v) :
    valueOfBinding position group = if v.isValid then .ok v else .error (.outOfBounds v) := by
  obtain ⟨hv⟩ := h
  have hindex : (UInt64.ofNat position).toNat = position := UInt64.toNat_ofNat_of_lt hp
  have hlhs : Variable.ofToken (Variable.token position) = .ok (UInt64.ofNat position) := by
    rw [Variable.ofToken_eq_ok_iff,hindex]
  rw [valueOfBinding,hlhs,Value.ofTokens_eq_ok_iff.mpr hv]
  cases hvalid : v.isValid <;>
    simp [bind,Except.bind,pure,Except.pure,throw,throwThe,MonadExceptOf.throw,hindex,hvalid]

theorem valueOfBinding_eq_ok_iff {position : Nat} {group : List String} {v : Value} :
    valueOfBinding position group = .ok v ↔
      position < UInt64.size ∧ IsBinding position group v ∧ v.isValid = true := by
  constructor
  · intro h
    unfold valueOfBinding at h
    split at h
    · obtain ⟨index,hindex,hafter⟩ := bind_eq_ok_iff.mp h
      dsimp only at hafter
      split at hafter
      · contradiction
      · rename_i hposition
        split at hafter
        · contradiction
        · rename_i hsign
          obtain ⟨w,hw,hchecked⟩ := bind_eq_ok_iff.mp hafter
          split at hchecked
          · contradiction
          · rename_i hvalid
            cases hchecked
            obtain rfl := Decidable.not_not.mp hposition
            obtain rfl := Decidable.not_not.mp hsign
            obtain rfl := Variable.ofToken_eq_ok_iff.mp hindex
            exact ⟨index.toNat_lt,.mk (Value.ofTokens_eq_ok_iff.mp hw),by simpa using hvalid⟩
    · contradiction
  · rintro ⟨hp,h,hvalid⟩
    rw [valueOfBinding_of_isBinding hp h,if_pos hvalid]

/-- A binding is made of words, the assignment sign, brackets and commas. -/
theorem IsBinding.mem {position : Nat} {group : List String} {v : Value} (h : IsBinding position group v)
    {t : String} (ht : t ∈ group) : Token.IsToken t ∧ t ≠ Token.bar := by
  have hword : ∀ {t}, Token.IsWord t → Token.IsToken t ∧ t ≠ Token.bar := by
    rintro t ht
    refine ⟨ht.isToken,?_⟩
    rintro rfl
    exact absurd ht (by decide)
  obtain ⟨hv⟩ := h
  rw [List.mem_cons,List.mem_cons] at ht
  rcases ht with rfl | rfl | ht
  · exact hword (Variable.isWord_token position)
  · exact ⟨Token.isToken_assign,by decide⟩
  · rcases hv.mem ht with hw | rfl | rfl | rfl
    · exact hword hw
    · exact ⟨Token.isToken_listOpen,by decide⟩
    · exact ⟨Token.isToken_listClose,by decide⟩
    · exact ⟨Token.isToken_comma,by decide⟩

/-! ## Bindings in order -/

theorem AreBindings.mem {position : Nat} {groups : List (List String)} {vs : List Value}
    (h : AreBindings position groups vs) {group : List String} (hg : group ∈ groups) :
    ∃ i v, IsBinding i group v := by
  induction h with
  | nil => contradiction
  | cons h _ ih =>
    rcases List.mem_cons.mp hg with rfl | hg
    · exact ⟨_,_,h⟩
    · exact ih hg

/-- The values are bound in order by what they are written with. -/
theorem areBindings_mapIdx (position : Nat) (vs : List Value) :
    AreBindings position (vs.mapIdx fun i v => binding (position+i) v) vs := by
  induction vs generalizing position with
  | nil => exact .nil
  | cons v vs ih =>
    rw [List.mapIdx_cons]
    refine .cons (isBinding_binding position v) ?_
    simpa [Nat.add_assoc,Nat.add_comm 1] using ih (position+1)

theorem areBindings_bindings (s : State) : AreBindings 0 s.bindings s.values := by
  simpa [bindings] using areBindings_mapIdx 0 s.values

/-- Bindings are the groups between the bars. -/
theorem AreBindings.splitGroups {position : Nat} {groups : List (List String)} {vs : List Value}
    (h : AreBindings position groups vs) :
    Token.splitGroups Token.bar (Token.joinGroups Token.bar groups) = groups := by
  apply Token.splitGroups_joinGroups_of_ne_nil
  · rintro group hg rfl
    obtain ⟨i,v,hb⟩ := h.mem hg
    cases hb
  · intro group hg hbar
    obtain ⟨i,v,hb⟩ := h.mem hg
    exact (hb.mem hbar).2 rfl

theorem addBinding_eq_ok_iff {s next : State} {group : List String} :
    addBinding s group = .ok next ↔ ∃ v, valueOfBinding s.length group = .ok v ∧ next = s.push v := by
  rw [addBinding,map_eq_ok_iff]
  constructor
  · rintro ⟨v,hv,rfl⟩
    exact ⟨v,hv,rfl⟩
  · rintro ⟨v,hv,rfl⟩
    exact ⟨v,hv,rfl⟩

/-- Reading bindings one after the other adds their values to a state. -/
theorem foldlM_addBinding_eq_ok_iff {s next : State} {groups : List (List String)} (hs : s.length ≤ UInt64.size) :
    groups.foldlM addBinding s = .ok next ↔ next.length ≤ UInt64.size ∧ ∃ vs, AreBindings s.length groups vs ∧
      (∀ v ∈ vs, v.isValid = true) ∧ next.values = s.values ++ vs := by
  -- For any state, since each binding is read in the state that those before it have made.
  induction groups generalizing s with
  | nil =>
    constructor
    · intro h
      cases h
      exact ⟨hs,[],.nil,by simp,by simp⟩
    · rintro ⟨-,vs,h,-,hnext⟩
      cases h
      cases next
      cases s
      exact congrArg (fun vs => Except.ok (State.mk vs)) (by simpa using hnext.symm)
  | cons group groups ih =>
    rw [List.foldlM_cons,bind_eq_ok_iff]
    constructor
    · rintro ⟨mid,hmid,h⟩
      obtain ⟨v,hv,rfl⟩ := addBinding_eq_ok_iff.mp hmid
      obtain ⟨hlt,hb,hvalid⟩ := valueOfBinding_eq_ok_iff.mp hv
      rw [ih (by rw [length_push]; exact hlt),length_push] at h
      obtain ⟨hnext,vs,hvs,hvalids,hvalues⟩ := h
      exact ⟨hnext,v :: vs,.cons hb hvs,by simpa using ⟨hvalid,hvalids⟩,by simpa [push] using hvalues⟩
    · rintro ⟨hnext,vs,h,hvalid,hvalues⟩
      cases h with
      | @cons _ _ _ v vs hb hvs =>
        have hlen : next.length = s.length + 1 + vs.length := by
          rw [length,hvalues,List.length_append,List.length_cons,length]
          omega
        have hlt : s.length < UInt64.size := by omega
        refine ⟨s.push v,addBinding_eq_ok_iff.mpr ⟨v,valueOfBinding_eq_ok_iff.mpr
          ⟨hlt,hb,hvalid v (by simp)⟩,rfl⟩,?_⟩
        rw [ih (by rw [length_push]; exact hlt),length_push]
        exact ⟨hnext,vs,hvs,fun w hw => hvalid w (by simp [hw]),by simpa [push] using hvalues⟩

/-! ## States -/

theorem isValid_iff {s : State} : s.isValid = true ↔ ∀ v ∈ s.values, v.isValid = true := List.all_eq_true

/-- Reading a state accepts exactly bindings of its variables in order, all to valid values. -/
theorem ofTokens_eq_ok_iff {ts : List String} {s : State} : ofTokens ts = .ok s ↔
    s.length ≤ UInt64.size ∧ s.isValid = true ∧
      ∃ groups, ts = Token.joinGroups Token.bar groups ∧ AreBindings 0 groups s.values := by
  rw [ofTokens,foldlM_addBinding_eq_ok_iff (Nat.zero_le _),isValid_iff]
  constructor
  · rintro ⟨hlen,vs,hvs,hvalid,hs⟩
    obtain rfl : s.values = vs := by simpa [empty] using hs
    exact ⟨hlen,hvalid,_,(Token.joinGroups_splitGroups _ _).symm,hvs⟩
  · rintro ⟨hlen,hvalid,groups,rfl,h⟩
    rw [h.splitGroups]
    exact ⟨hlen,s.values,h,hvalid,by simp [empty]⟩

/-- A state is read back from its tokens if its values are within bounds. -/
theorem ofTokens_tokens {s : State} (hlen : s.length ≤ UInt64.size) (hs : s.isValid = true) :
    ofTokens s.tokens = .ok s :=
  ofTokens_eq_ok_iff.mpr ⟨hlen,hs,s.bindings,rfl,s.areBindings_bindings⟩

/-- The first value out of bounds decides the error. -/
theorem ofTokens_tokens_of_invalid {s : State} (hlen : s.length ≤ UInt64.size) {before after : List Value}
    {v : Value} (hs : s.values = before ++ v :: after) (hbefore : ∀ w ∈ before, w.isValid = true)
    (hv : v.isValid = false) : ofTokens s.tokens = .error (.outOfBounds v) := by
  have hlt : before.length < UInt64.size := by
    rw [length,hs,List.length_append,List.length_cons] at hlen
    omega
  have hgroups : s.bindings = before.mapIdx binding ++ binding before.length v ::
      after.mapIdx fun i w => binding (i+1+before.length) w := by
    simp [bindings,hs,List.mapIdx_append,List.mapIdx_cons]
  have hread : (before.mapIdx binding).foldlM addBinding empty = .ok ⟨before⟩ := by
    rw [foldlM_addBinding_eq_ok_iff (Nat.zero_le _)]
    exact ⟨Nat.le_of_lt hlt,before,areBindings_bindings ⟨before⟩,hbefore,rfl⟩
  have hstop : addBinding ⟨before⟩ (binding before.length v) = .error (.outOfBounds v) := by
    have h := valueOfBinding_of_isBinding hlt (isBinding_binding before.length v)
    rw [addBinding,length,h,hv]
    rfl
  rw [ofTokens,tokens,(areBindings_bindings s).splitGroups,hgroups,List.foldlM_append,hread]
  change List.foldlM addBinding ⟨before⟩ _ = _
  rw [List.foldlM_cons,hstop]
  rfl

/-- The text of a state reads as its tokens do. -/
theorem ofText_text (s : State) : ofText s.text = ofTokens s.tokens := by
  rw [ofText,text,Token.split_unwords]
  intro t ht
  rcases Token.mem_joinGroups ht with rfl | ⟨group,hg,htg⟩
  · exact Token.isToken_bar
  · obtain ⟨i,v,hb⟩ := s.areBindings_bindings.mem hg
    exact (hb.mem htg).1

/-- Which tokens a state is read from, and what becomes of the tokens and the text that a state is written with. A state
with 64-bit indices is read back if its values are within bounds; otherwise the error shows the first value that is not.
Tokens are read as a state exactly if they are bindings of its variables in order, separated by bars, to values within
bounds; no tokens at all are the empty state. -/
theorem reading_exact :
    (∀ s : State, s.length ≤ UInt64.size →
      (s.isValid = true → ofTokens s.tokens = .ok s ∧ ofText s.text = .ok s) ∧
      (s.isValid = false → ∃ before v after, s.values = before ++ v :: after ∧
        (∀ w ∈ before, w.isValid = true) ∧ v.isValid = false ∧
        ofTokens s.tokens = .error (.outOfBounds v) ∧ ofText s.text = .error (.outOfBounds v) ∧
        (ParseError.outOfBounds v).message = "value out of bounds: " ++ v.text)) ∧
    ∀ (ts : List String) (s : State), ofTokens ts = .ok s ↔
      (ts = [] ∧ s = empty) ∨ (s.length ≤ UInt64.size ∧ s.isValid = true ∧
        ∃ groups, ts = Token.joinGroups Token.bar groups ∧ AreBindings 0 groups s.values) := by
  refine ⟨?_,?_⟩
  · intro s hlen
    rw [ofText_text]
    refine ⟨?_,?_⟩
    · intro hs
      exact ⟨ofTokens_tokens hlen hs,ofTokens_tokens hlen hs⟩
    · intro hs
      have hnot : ¬ ∀ v ∈ s.values, v.isValid = true := by
        rw [← isValid_iff,hs]
        simp
      obtain ⟨before,v,after,hvalues,hbefore,hv⟩ := exists_first_not hnot
      rw [Bool.not_eq_true] at hv
      have herror := ofTokens_tokens_of_invalid hlen hvalues hbefore hv
      exact ⟨before,v,after,hvalues,hbefore,hv,herror,herror,rfl⟩
  · intro ts s
    rw [ofTokens_eq_ok_iff]
    constructor
    · exact Or.inr
    · rintro (⟨rfl,rfl⟩ | h)
      · exact ⟨Nat.zero_le _,rfl,[],rfl,.nil⟩
      · exact h

/-- A state with values within bounds, one with two values beyond them, and a state read from other tokens than those it
is written with. -/
theorem reading_exact_two_values :
    (let s := State.mk [.int (-256),.list [6,7]];
      s.length ≤ UInt64.size ∧ s.isValid = true ∧ ofTokens s.tokens = .ok s ∧ ofText s.text = .ok s) ∧
    (let s := State.mk [.int 2,.list [6,4000],.int 300];
      s.length ≤ UInt64.size ∧ s.isValid = false ∧ ∃ before v after, s.values = before ++ v :: after ∧
        (∀ w ∈ before, w.isValid = true) ∧ v.isValid = false ∧
        ofTokens s.tokens = .error (.outOfBounds v) ∧ ofText s.text = .error (.outOfBounds v) ∧
        (ParseError.outOfBounds v).message = "value out of bounds: " ++ v.text) ∧
    ofTokens ["x0","=","-007"] = .ok ⟨[.int (-7)]⟩ := by
  refine ⟨⟨by decide,by decide,(reading_exact.1 _ (by decide)).1 (by decide)⟩,
    ⟨by decide,by decide,(reading_exact.1 _ (by decide)).2 (by decide)⟩,?_⟩
  have hliteral : Value.IsLiteral "-007" (-7) := Value.integer?_eq_some_iff.mp (by decide)
  exact (reading_exact.2 _ _).mpr (Or.inr ⟨by decide,by decide,[["x0","=","-007"]],rfl,
    .cons (.mk (.int hliteral)) .nil⟩)

end State
end ListScript
