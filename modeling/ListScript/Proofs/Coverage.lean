import ListScript.Proofs.Bindings
import ListScript.Proofs.Numbering

/-!
# What a vocabulary covers

A vocabulary has the tokens of exactly those programs and states that keep to its variables and to integers within the
bound. None of these tokens is a reserved mark, and what is encoded can be decoded and read back.
-/
namespace ListScript
open Reading

/-! ## The tokens of programs and states -/

/-- What holds of every token that is not a variable, an integer or a reserved mark. -/
structure HoldsOfSymbols (P : String → Prop) : Prop where
  grammar : ∀ t ∈ Vocabulary.grammar, P t
  operation : ∀ op : Operation, P op.token
  lambda : ∀ l : Lambda, P l.token

variable {P : String → Prop}

theorem Token.forall_mem_joinGroups {separator : String} (hseparator : P separator) {groups : List (List String)} :
    (∀ t ∈ joinGroups separator groups, P t) ↔ ∀ g ∈ groups, ∀ t ∈ g, P t := by
  induction groups with
  | nil => simp [joinGroups]
  | cons g rest ih =>
    cases rest with
    | nil => simp [joinGroups]
    | cons g' rest =>
      rw [joinGroups_cons_cons,List.forall_mem_append,List.forall_mem_cons,ih,List.forall_mem_cons (a := g)]
      exact and_congr_right fun _ => and_iff_right hseparator

/-- Of the tokens of a value, only its integers matter. -/
theorem Value.forall_mem_tokens (h : HoldsOfSymbols P) (v : Value) :
    (∀ t ∈ v.tokens, P t) ↔ ∀ k ∈ v.integers, P (integerToken k) := by
  have hcomma : P Token.comma := h.grammar _ (by decide)
  cases v with
  | int k => simp [tokens,integers]
  | list items =>
    have hopen : P Token.listOpen := h.grammar _ (by decide)
    have hclose : P Token.listClose := h.grammar _ (by decide)
    rw [tokens,List.forall_mem_append,List.forall_mem_cons,Token.forall_mem_joinGroups hcomma,integers]
    simp [hopen,hclose]

theorem State.forall_mem_binding (h : HoldsOfSymbols P) (i : Nat) (v : Value) :
    (∀ t ∈ binding i v, P t) ↔ P (Variable.token i) ∧ ∀ k ∈ v.integers, P (Value.integerToken k) := by
  have hassign : P Token.assign := h.grammar _ (by decide)
  rw [binding,List.forall_mem_cons,List.forall_mem_cons,Value.forall_mem_tokens h]
  exact and_congr_right fun _ => and_iff_right hassign

/-- Of the tokens of a state, only its variables and its integers matter. -/
theorem State.forall_mem_tokens (h : HoldsOfSymbols P) (s : State) : (∀ t ∈ s.tokens, P t) ↔
    (∀ i < s.length, P (Variable.token i)) ∧ ∀ v ∈ s.values, ∀ k ∈ v.integers, P (Value.integerToken k) := by
  have hbar : P Token.bar := h.grammar _ (by decide)
  rw [tokens,Token.forall_mem_joinGroups hbar]
  have hgroups : (∀ g ∈ s.bindings, ∀ t ∈ g, P t) ↔ ∀ i (hi : i < s.values.length),
      P (Variable.token i) ∧ ∀ k ∈ s.values[i].integers, P (Value.integerToken k) := by
    simp only [bindings,List.mem_mapIdx,forall_exists_index,← forall_mem_binding h]
    constructor
    · intro hall i hi
      exact hall _ i hi rfl
    · rintro hall g i hi rfl
      exact hall i hi
  rw [hgroups]
  constructor
  · intro hall
    refine ⟨fun i hi => (hall i hi).1,?_⟩
    intro v hv
    obtain ⟨i,hi,rfl⟩ := List.mem_iff_getElem.mp hv
    exact (hall i hi).2
  · rintro ⟨hvariables,hvalues⟩ i hi
    exact ⟨hvariables i hi,hvalues _ (List.getElem_mem hi)⟩

/-- Of the tokens of a statement, only its variables matter. -/
theorem Statement.forall_mem_tokens (h : HoldsOfSymbols P) (s : Statement) : (∀ t ∈ s.tokens, P t) ↔
    P (Variable.token s.lhs.toNat) ∧ ∀ arg ∈ s.args, P (Variable.token arg.toNat) := by
  have hassign : P Token.assign := h.grammar _ (by decide)
  have hlambda : ∀ t ∈ s.lambda.toList.map Lambda.token, P t := by
    rw [List.forall_mem_map]
    exact fun l _ => h.lambda l
  rw [tokens_eq,operands,List.forall_mem_cons,List.forall_mem_cons,List.forall_mem_cons,List.forall_mem_append,
    List.forall_mem_map (f := fun arg : UInt64 => Variable.token arg.toNat)]
  simp only [hassign,h.operation,true_and,and_iff_right hlambda]

theorem Program.forall_mem_inputLine (h : HoldsOfSymbols P) (i : Nat) :
    (∀ t ∈ inputLine i, P t) ↔ P (Variable.token i) := by
  have hassign : P Token.assign := h.grammar _ (by decide)
  have hinput : P Token.input := h.grammar _ (by decide)
  simp [inputLine,hassign,hinput]

/-- Of the tokens of a program, only its variables matter. -/
theorem Program.forall_mem_tokens (h : HoldsOfSymbols P) (p : Program) : (∀ t ∈ p.tokens, P t) ↔
    (∀ i < p.numInputs, P (Variable.token i)) ∧
      ∀ s ∈ p.statements, P (Variable.token s.lhs.toNat) ∧ ∀ arg ∈ s.args, P (Variable.token arg.toNat) := by
  have hbar : P Token.bar := h.grammar _ (by decide)
  rw [tokens,Token.forall_mem_joinGroups hbar,lines,List.forall_mem_append,List.forall_mem_map,List.forall_mem_map]
  simp only [forall_mem_inputLine h,Statement.forall_mem_tokens h,List.mem_range]

namespace Vocabulary

variable {n : Nat}

/-! ## Tokens in the table -/

theorem mem_integers {i : Int} : i ∈ integers ↔ i.natAbs ≤ bound := by
  simp only [integers,List.mem_map,List.mem_range]
  constructor
  · rintro ⟨j,hj,rfl⟩
    omega
  · intro hi
    exact ⟨(i+bound).toNat,by omega,by omega⟩

/-- A vocabulary has its leading tokens and the integers within the bound. -/
theorem mem_tokens {t : String} :
    t ∈ (ofMaxVariables n).tokens ↔ t ∈ leadingTokens n ∨ ∃ i ∈ integers, Decimal.ofInt i = t := by
  rw [tokens_ofMaxVariables,List.mem_append,List.mem_filter,List.mem_map]
  by_cases ht : t ∈ leadingTokens n <;> simp [ht]

theorem mem_tokens_of_fixed {t : String} (h : t ∈ fixedTokens) : t ∈ (ofMaxVariables n).tokens :=
  mem_tokens.mpr (Or.inl (List.mem_append_left _ h))

theorem holdsOfSymbols_mem_tokens (n : Nat) : HoldsOfSymbols fun t => t ∈ (ofMaxVariables n).tokens where
  grammar t h := mem_tokens_of_fixed (by simp [fixedTokens,h])
  operation op := by
    have h : op.token ∈ Operation.all.map Operation.token := List.mem_map_of_mem op.mem_all
    exact mem_tokens_of_fixed (List.mem_append_left _ (List.mem_append_right _ h))
  lambda l := by
    have h : l.token ∈ Lambda.all.map Lambda.token := List.mem_map_of_mem l.mem_all
    exact mem_tokens_of_fixed (List.mem_append_right _ h)

/-- Variables are told apart from other tokens by their first character. -/
theorem variable_not_mem {ts : List String} (h : ∀ t ∈ ts, t.toList.head? ≠ some 'x') (i : Nat) :
    Variable.token i ∉ ts := by
  intro hmem
  exact h _ hmem (by simp)

/-- The variables of a vocabulary are those below its limit. -/
theorem variable_mem_tokens {i : Nat} : Variable.token i ∈ (ofMaxVariables n).tokens ↔ i < n := by
  have hfixed : Variable.token i ∉ fixedTokens := variable_not_mem (by decide) i
  have hinteger : ¬ ∃ j ∈ integers, Decimal.ofInt j = Variable.token i := by
    rintro ⟨j,-,hj⟩
    have hnone := Variable.toInt?_token i
    rw [← hj,Decimal.toInt?_ofInt] at hnone
    contradiction
  rw [mem_tokens,or_iff_left hinteger,leadingTokens,List.mem_append,or_iff_right hfixed,
    List.mem_map_of_injective Variable.token_injective,List.mem_range]

theorem variables_mem_tokens {m : Nat} : (∀ i < m, Variable.token i ∈ (ofMaxVariables n).tokens) ↔ m ≤ n := by
  simp only [variable_mem_tokens]
  constructor
  · intro h
    by_contra hlt
    have hn := h n (by omega)
    omega
  · intro h i hi
    omega

/-- The integers of a vocabulary are those within the bound. -/
theorem integer_mem_tokens {k : Int64} :
    Value.integerToken k ∈ (ofMaxVariables n).tokens ↔ inBounds k = true := by
  rw [mem_tokens,Value.integerToken,ofInt_mem_leadingTokens,inBounds,decide_eq_true_iff]
  constructor
  · rintro (h | ⟨i,hi,h⟩)
    · rw [h]
      decide
    · rw [← Decimal.ofInt_injective h]
      exact mem_integers.mp hi
  · intro h
    exact Or.inr ⟨k.toInt,mem_integers.mpr h,rfl⟩

/-! ## Reserved marks -/

theorem holdsOfSymbols_not_mem_reserved : HoldsOfSymbols fun t => t ∉ reserved where
  grammar := by decide
  operation op := by cases op <;> decide
  lambda l := by cases l <;> decide

theorem variable_not_mem_reserved (i : Nat) : Variable.token i ∉ reserved := variable_not_mem (by decide) i

theorem integer_not_mem_reserved (k : Int64) : Value.integerToken k ∉ reserved := by
  have hnone : ∀ t ∈ reserved, Decimal.toInt? t.toList = none := by decide
  intro h
  have hk := hnone _ h
  rw [Value.integerToken,Decimal.toInt?_ofInt] at hk
  contradiction

theorem program_not_mem_reserved (p : Program) : ∀ t ∈ p.tokens, t ∉ reserved :=
  (Program.forall_mem_tokens holdsOfSymbols_not_mem_reserved p).mpr
    ⟨fun i _ => variable_not_mem_reserved i,
      fun _ _ => ⟨variable_not_mem_reserved _,fun _ _ => variable_not_mem_reserved _⟩⟩

theorem state_not_mem_reserved (s : State) : ∀ t ∈ s.tokens, t ∉ reserved :=
  (State.forall_mem_tokens holdsOfSymbols_not_mem_reserved s).mpr
    ⟨fun i _ => variable_not_mem_reserved i,fun _ _ _ _ => integer_not_mem_reserved _⟩

/-- The first three numbers are those of the reserved marks. -/
theorem mem_reserved_of_token? {id : Nat} {t : String} (h : (ofMaxVariables n).token? id = some t) (hid : id < 3) :
    t ∈ reserved := by
  have hlen : reserved.length = 3 := by decide
  rw [token?,tokens_ofMaxVariables,leadingTokens,fixedTokens,List.append_assoc,List.append_assoc,List.append_assoc,
    List.append_assoc,List.getElem?_append_left (by omega)] at h
  exact List.mem_of_getElem? h

/-! ## Encoding -/

theorem exists_encode_iff {v : Vocabulary} {ts : List String} :
    (∃ ids, v.encode ts = .ok ids) ↔ ∀ t ∈ ts, t ∈ v.tokens := by
  simp only [encode,exists_mapM_eq_ok_iff,exists_idOfToken_iff]

/-- A program can be encoded exactly if its variables are below the limit. -/
theorem exists_encode_program_iff {p : Program} : (∃ ids, (ofMaxVariables n).encode p.tokens = .ok ids) ↔
    p.numInputs ≤ n ∧ ∀ s ∈ p.statements, s.lhs.toNat < n ∧ ∀ arg ∈ s.args, arg.toNat < n := by
  rw [exists_encode_iff,Program.forall_mem_tokens (holdsOfSymbols_mem_tokens n),variables_mem_tokens]
  simp only [variable_mem_tokens]

/-- A state can be encoded exactly if its variables are below the limit and its values within the bound. -/
theorem exists_encode_state_iff {s : State} :
    (∃ ids, (ofMaxVariables n).encode s.tokens = .ok ids) ↔ s.length ≤ n ∧ s.isValid = true := by
  rw [exists_encode_iff,State.forall_mem_tokens (holdsOfSymbols_mem_tokens n),variables_mem_tokens,
    State.isValid_iff]
  simp only [integer_mem_tokens,Value.isValid,List.all_eq_true]

/-- Numbers stand for tokens: there is one for each, none of them is that of a reserved mark, and the tokens are what
they decode to. -/
structure Encodes (v : Vocabulary) (ts : List String) (ids : List Nat) : Prop where
  length_eq : ids.length = ts.length
  unreserved : ∀ id ∈ ids, id ≠ 0 ∧ id ≠ 1 ∧ id ≠ 2
  decode : v.decode ids = .ok ts

/-- Tokens that contain no reserved mark are encoded by numbers that stand for them. -/
theorem encodes_of_encode (hn : n+555 ≤ UInt32.size) {ts : List String} {ids : List Nat}
    (hts : ∀ t ∈ ts, t ∉ reserved) (h : (ofMaxVariables n).encode ts = .ok ids) :
    (ofMaxVariables n).Encodes ts ids := by
  have hsize : (ofMaxVariables n).size ≤ UInt32.size := by rwa [size_ofMaxVariables]
  have hdecode : (ofMaxVariables n).decode ids = .ok ts := by
    refine (mapM_eq_ok_comm ?_).mp h
    intro t id
    rw [idOfToken_eq_ok_iff,tokenOfId_eq_ok_iff,id?_eq_some_iff (nodup_tokens n) hsize]
  have hmap : ids.map (ofMaxVariables n).tokenOfId = ts.map .ok := mapM_eq_ok_iff.mp hdecode
  refine ⟨?_,?_,hdecode⟩
  · simpa using congrArg List.length hmap
  · intro id hid
    have hmem : (ofMaxVariables n).tokenOfId id ∈ ts.map .ok := hmap ▸ List.mem_map_of_mem hid
    obtain ⟨t,ht,htoken⟩ := List.mem_map.mp hmem
    have hnot : ¬ id < 3 := fun hlt => hts t ht (mem_reserved_of_token? (tokenOfId_eq_ok_iff.mp htoken.symm) hlt)
    omega

/-- A vocabulary that 32-bit words can number covers exactly what is written within its limits: programs with at most
that many inputs and no variable beyond the limit, and states with at most that many values, all of them within the bound.
Such a program, unless it is empty, and such a state are read back from the tokens that their numbers decode to. -/
theorem encoding_exact {n : Nat} (hn : n+555 ≤ UInt32.size) :
    (∀ p : Program,
      ((∃ ids, (ofMaxVariables n).encode p.tokens = .ok ids) ↔
        p.numInputs ≤ n ∧ ∀ s ∈ p.statements, s.lhs.toNat < n ∧ ∀ arg ∈ s.args, arg.toNat < n) ∧
      ∀ ids, (ofMaxVariables n).encode p.tokens = .ok ids → (ofMaxVariables n).Encodes p.tokens ids ∧
        (1 ≤ p.length → ((ofMaxVariables n).decode ids >>= Program.ofTokens) = .ok p)) ∧
    ∀ s : State,
      ((∃ ids, (ofMaxVariables n).encode s.tokens = .ok ids) ↔ s.length ≤ n ∧ s.isValid = true) ∧
      ∀ ids, (ofMaxVariables n).encode s.tokens = .ok ids → (ofMaxVariables n).Encodes s.tokens ids ∧
        ((ofMaxVariables n).decode ids >>= State.ofTokens) = .ok s := by
  have hwords : UInt32.size ≤ UInt64.size := by decide
  constructor
  · intro p
    refine ⟨exists_encode_program_iff,?_⟩
    intro ids hids
    have hencodes := encodes_of_encode hn (program_not_mem_reserved p) hids
    refine ⟨hencodes,?_⟩
    intro hlen
    have hinputs := (exists_encode_program_iff.mp ⟨ids,hids⟩).1
    rw [hencodes.decode]
    exact Program.ofTokens_eq_ok_iff.mpr ⟨by omega,hlen,rfl⟩
  · intro s
    refine ⟨exists_encode_state_iff,?_⟩
    intro ids hids
    have hencodes := encodes_of_encode hn (state_not_mem_reserved s) hids
    obtain ⟨hlen,hvalid⟩ := exists_encode_state_iff.mp ⟨ids,hids⟩
    refine ⟨hencodes,?_⟩
    rw [hencodes.decode]
    exact State.ofTokens_tokens (by omega) hvalid

/-- A program of three lines is covered from three variables on, a state up to the bound but not beyond it. -/
theorem encoding_exact_three_lines :
    let p : Program := ⟨1,[⟨1,.map,some .minusOne,[0],rfl,rfl⟩,⟨2,.zipWith,some .min,[1,0],rfl,rfl⟩]⟩
    3+555 ≤ UInt32.size ∧
    (∃ ids, (ofMaxVariables 3).encode p.tokens = .ok ids ∧ (ofMaxVariables 3).Encodes p.tokens ids ∧
      ((ofMaxVariables 3).decode ids >>= Program.ofTokens) = .ok p) ∧
    (¬ ∃ ids, (ofMaxVariables 2).encode p.tokens = .ok ids) ∧
    (∃ ids, (ofMaxVariables 3).encode (State.mk [.int (-1),.list [256,-256]]).tokens = .ok ids) ∧
    ¬ ∃ ids, (ofMaxVariables 3).encode (State.mk [.int (-1),.list [257]]).tokens = .ok ids := by
  intro p
  have hp := (encoding_exact (n := 3) (by decide)).1 p
  have hs := (encoding_exact (n := 3) (by decide)).2
  obtain ⟨ids,hids⟩ := hp.1.mpr (by simp [p])
  obtain ⟨hencodes,hread⟩ := hp.2 ids hids
  refine ⟨by decide,⟨ids,hids,hencodes,hread (by decide)⟩,?_,(hs _).1.mpr (by decide),?_⟩
  · intro h
    exact absurd (((encoding_exact (n := 2) (by decide)).1 p).1.mp h) (by simp [p])
  · intro h
    exact absurd ((hs _).1.mp h) (by decide)

end Vocabulary
end ListScript
