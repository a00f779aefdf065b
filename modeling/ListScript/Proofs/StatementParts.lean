import ListScript.Proofs.Canonical

/-!
# Parts of a statement

A statement is made of its parts, or it is read from the tokens that write them down. Making it judges the lambda and then
counts the variables. Reading it counts the operands first, the lambda among them, so that a lambda too many can make up for a
variable too few; what stands in the place of the lambda is judged afterwards. Both come to the same: the parts go together if
the lambda is of the class that the operation asks for and there is a variable for each value slot.
-/
namespace ListScript
open Reading

/-- No lambda is written as a variable is. -/
theorem Lambda.token_ne_variable (l : Lambda) (index : Nat) : l.token ≠ Variable.token index := by
  intro h
  have hhead : l.token.toList.head? = some 'x' := by rw [h,Variable.toList_token,List.head?_cons]
  revert hhead
  cases l <;> decide

namespace Statement

/-- What a statement is made of, whether or not it goes together. -/
structure Parts where
  lhs : UInt64
  operation : Operation
  lambda : Option Lambda
  args : List UInt64
  deriving DecidableEq, Repr

def parts (s : Statement) : Parts := ⟨s.lhs,s.operation,s.lambda,s.args⟩

namespace Parts

/-- The parts written down: the variable that is set, the operation, its lambda if one is given, and the variables. -/
def tokens (p : Parts) : List String :=
  Variable.token p.lhs.toNat :: Token.assign :: p.operation.token ::
    (p.lambda.toList.map Lambda.token ++ p.args.map fun arg => Variable.token arg.toNat)

/-- The lambda is of the class that the operation asks for, and there is a variable for each value slot. -/
structure GoTogether (p : Parts) : Prop where
  lambda_fits : p.lambda.map Lambda.lambdaClass = p.operation.lambdaClass?
  args_fit : p.args.length = p.operation.variableArity

/-- Reads parts. What is checked on the way is all that is checked. -/
def ofTokens (tokens : List String) : Except ParseError Parts := do
  let (lhs, rest) ← assignment tokens
  match rest with
  | [] => throw (.unexpectedEnd .operation)
  | opToken :: operands =>
    match Operation.ofToken? opToken with
    | none => throw (.unknownOperation opToken)
    | some op =>
      if operands.length ≠ op.arity then
        throw (.tokenCount op (headLength + op.arity) tokens.length)
      let (lambda, names) ← lambdaOperand op operands
      let args ← names.mapM Variable.ofToken
      return ⟨lhs, op, lambda, args⟩

end Parts

variable {p q : Parts} {s : Statement}

theorem tokens_parts (s : Statement) : s.parts.tokens = s.tokens := s.tokens_eq.symm

theorem goTogether_parts (s : Statement) : s.parts.GoTogether := ⟨s.lambda_fits,s.args_fit⟩

/-! ## Making a statement -/

theorem ofParts_eq_ok_iff_parts : ofParts p.lhs p.operation p.lambda p.args = .ok s ↔ p = s.parts := by
  rw [ofParts_eq_ok_iff]
  cases p
  simp only [parts,Parts.mk.injEq]

/-- Parts that go together make a statement. -/
theorem ofParts_of_goTogether (h : p.GoTogether) :
    ofParts p.lhs p.operation p.lambda p.args = .ok ⟨p.lhs,p.operation,p.lambda,p.args,h.lambda_fits,h.args_fit⟩ :=
  ofParts_self ⟨p.lhs,p.operation,p.lambda,p.args,h.lambda_fits,h.args_fit⟩

theorem parts_ofParts (h : p.GoTogether) : parts <$> ofParts p.lhs p.operation p.lambda p.args = .ok p := by
  rw [ofParts_of_goTogether h]
  rfl

theorem exists_ofParts_iff : (∃ s, ofParts p.lhs p.operation p.lambda p.args = .ok s) ↔ p.GoTogether := by
  constructor
  · intro ⟨s,hs⟩
    rw [ofParts_eq_ok_iff_parts.mp hs]
    exact s.goTogether_parts
  · intro h
    exact ⟨_,ofParts_of_goTogether h⟩

/-! ## Parts and their tokens -/

theorem token_toNat_injective {i j : UInt64} (h : Variable.token i.toNat = Variable.token j.toNat) : i = j :=
  UInt64.toNat_inj.mp (Variable.token_injective h)

/-- What stands behind the operation tells whether a lambda is given and which variables are. -/
theorem operands_injective {l m : Option Lambda} {as bs : List UInt64}
    (h : (l.toList.map Lambda.token ++ as.map fun arg => Variable.token arg.toNat) =
      m.toList.map Lambda.token ++ bs.map fun arg => Variable.token arg.toNat) : l = m ∧ as = bs := by
  have hargs : ∀ {as bs : List UInt64}, (as.map fun arg => Variable.token arg.toNat) =
      (bs.map fun arg => Variable.token arg.toNat) → as = bs := (List.map_inj_right fun _ _ => token_toNat_injective).mp
  cases l with
  | none =>
    cases m with
    | none => exact ⟨rfl,hargs h⟩
    | some m =>
      cases as with
      | nil => simp at h
      | cons a as => exact absurd (List.cons.inj h).1.symm (m.token_ne_variable _)
  | some l =>
    cases m with
    | none =>
      cases bs with
      | nil => simp at h
      | cons b bs => exact absurd (List.cons.inj h).1 (l.token_ne_variable _)
    | some m =>
      obtain ⟨hl,h⟩ := List.cons.inj h
      have hm : Lambda.ofToken? l.token = some m := Lambda.ofToken?_eq_some_iff.mpr hl
      rw [Lambda.ofToken?_token] at hm
      exact ⟨hm,hargs h⟩

/-- Different parts are written differently, also those that do not go together. -/
theorem Parts.tokens_injective (h : p.tokens = q.tokens) : p = q := by
  obtain ⟨hlhs,h⟩ := List.cons.inj h
  obtain ⟨-,h⟩ := List.cons.inj h
  obtain ⟨hop,h⟩ := List.cons.inj h
  obtain ⟨hlambda,hargs⟩ := operands_injective h
  have hop' : Operation.ofToken? p.operation.token = some q.operation := Operation.ofToken?_eq_some_iff.mpr hop
  rw [Operation.ofToken?_token] at hop'
  cases p
  cases q
  simp only [Parts.mk.injEq]
  exact ⟨token_toNat_injective hlhs,Option.some.inj hop',hlambda,hargs⟩

/-- Parts are written as a statement is exactly if they are its own. -/
theorem tokens_eq_tokens_iff : p.tokens = s.tokens ↔ p = s.parts := by
  rw [← tokens_parts]
  constructor
  · exact Parts.tokens_injective
  · exact congrArg Parts.tokens

theorem Parts.isToken_of_mem_tokens {t : String} (h : t ∈ p.tokens) : Token.IsToken t := by
  simp only [Parts.tokens,List.mem_cons,List.mem_append,List.mem_map] at h
  rcases h with rfl | rfl | rfl | ⟨l,-,rfl⟩ | ⟨arg,-,rfl⟩
  · exact (Variable.isWord_token _).isToken
  · exact Token.isToken_assign
  · exact (Operation.isWord_token _).isToken
  · exact (Lambda.isWord_token _).isToken
  · exact (Variable.isWord_token _).isToken

/-- The text of parts reads as their tokens do. -/
theorem ofText_unwords_tokens (p : Parts) : ofText (Token.unwords p.tokens) = ofTokens p.tokens := by
  rw [ofText,Token.split_unwords fun _ => Parts.isToken_of_mem_tokens]

/-! ## Reading parts -/

/-- Operands that are as many as the slots, with a fitting lambda among them, leave a variable for each value slot. -/
theorem goTogether_of_operands {lhs : UInt64} {op : Operation} {operands names : List String} {lambda : Option Lambda}
    {args : List UInt64} (hlen : operands.length = op.arity) (hlambda : lambdaOperand op operands = .ok (lambda,names))
    (hargs : names.mapM Variable.ofToken = .ok args) : Parts.GoTogether ⟨lhs,op,lambda,args⟩ := by
  obtain ⟨hfits,rfl⟩ := lambdaOperand_eq_ok_iff.mp hlambda
  obtain rfl := mapM_ofToken_eq_ok_iff.mp hargs
  refine ⟨hfits,?_⟩
  have hcount : lambda.toList.length = op.lambdaClass?.toList.length := by
    rw [← hfits]
    cases lambda <;> rfl
  rw [Operation.arity_eq,List.length_append,List.length_map,List.length_map,hcount] at hlen
  exact Nat.add_left_cancel hlen

/-- Reading a statement comes to reading its parts. What is read goes together already, so that making the statement never
fails. -/
theorem parts_ofTokens (ts : List String) : parts <$> ofTokens ts = Parts.ofTokens ts := by
  rw [ofTokens,Parts.ofTokens]
  cases assignment ts with
  | error e => rfl
  | ok line =>
    obtain ⟨lhs,rest⟩ := line
    cases rest with
    | nil => rfl
    | cons opToken operands =>
      dsimp only [bind,Except.bind]
      cases Operation.ofToken? opToken with
      | none => rfl
      | some op =>
        dsimp only
        by_cases hlen : operands.length = op.arity
        · rw [if_neg (not_not_intro hlen),if_neg (not_not_intro hlen)]
          cases hlambda : lambdaOperand op operands with
          | error e => rfl
          | ok taken =>
            obtain ⟨lambda,names⟩ := taken
            dsimp only
            cases hargs : names.mapM Variable.ofToken with
            | error e => rfl
            | ok args => exact parts_ofParts (goTogether_of_operands hlen hlambda hargs)
        · rw [if_pos hlen,if_pos hlen]
          rfl

/-- Making a statement of its parts and reading it from the tokens of the parts come to the same. Both have a result exactly
if the parts go together; it is the same statement, it is written with these tokens, and it is read from their text as well.
Otherwise both fail. Any list of tokens that is read as a statement is that of parts which make it. Reading does not lean on
what is checked when a statement is made: reading the parts alone fails on the same tokens and with the same errors. -/
theorem constructing_and_reading_agree :
    (∀ (p : Parts) (s : Statement),
      (ofParts p.lhs p.operation p.lambda p.args = .ok s ↔ ofTokens p.tokens = .ok s) ∧
      (ofParts p.lhs p.operation p.lambda p.args = .ok s ↔ ofText (Token.unwords p.tokens) = .ok s) ∧
      (ofParts p.lhs p.operation p.lambda p.args = .ok s → s.tokens = p.tokens)) ∧
    (∀ p : Parts,
      ((∃ s, ofParts p.lhs p.operation p.lambda p.args = .ok s) ↔ p.GoTogether) ∧
      ((∃ e, ofParts p.lhs p.operation p.lambda p.args = .error e) ↔ ∃ e, ofTokens p.tokens = .error e)) ∧
    (∀ (ts : List String) (s : Statement), ofTokens ts = .ok s →
      ∃ p : Parts, ts = p.tokens ∧ ofParts p.lhs p.operation p.lambda p.args = .ok s) ∧
    ∀ ts : List String, parts <$> ofTokens ts = Parts.ofTokens ts := by
  have hread : ∀ (p : Parts) (s : Statement),
      ofParts p.lhs p.operation p.lambda p.args = .ok s ↔ ofTokens p.tokens = .ok s := by
    intro p s
    rw [ofParts_eq_ok_iff_parts,ofTokens_eq_ok_iff,tokens_eq_tokens_iff]
  refine ⟨?_,?_,?_,parts_ofTokens⟩
  · intro p s
    refine ⟨hread p s,?_,?_⟩
    · rw [ofText_unwords_tokens]
      exact hread p s
    · intro h
      exact (ofTokens_eq_ok_iff.mp ((hread p s).mp h)).symm
  · intro p
    refine ⟨exists_ofParts_iff,?_⟩
    rw [exists_eq_error_iff,exists_eq_error_iff]
    exact not_congr (exists_congr (hread p))
  · intro ts s h
    exact ⟨s.parts,(ofTokens_eq_ok_iff.mp h).trans s.tokens_parts.symm,ofParts_self s⟩

/-- A lambda that is missing or too many is not made up for by a variable more or less, although there are as many operands
as slots. -/
theorem constructing_and_reading_agree_counts_met :
    let s : Statement := ⟨2,.zipWith,some .min,[1,0],rfl,rfl⟩
    let missing : Parts := ⟨1,.filter,none,[0,0]⟩
    let surplus : Parts := ⟨2,.take,some .plusOne,[1]⟩
    ofParts 2 .zipWith (some .min) [1,0] = .ok s ∧ s.tokens = ["x2","=","ZipWith","min","x1","x0"] ∧
      ofTokens s.tokens = .ok s ∧ (∃ p : Parts, s.tokens = p.tokens ∧
        ofParts p.lhs p.operation p.lambda p.args = .ok s) ∧
      missing.tokens = ["x1","=","Filter","x0","x0"] ∧ (∃ e, ofTokens missing.tokens = .error e) ∧
      surplus.tokens = ["x2","=","Take","+1","x1"] ∧ ∃ e, ofTokens surplus.tokens = .error e := by
  intro s missing surplus
  obtain ⟨hagree,hreject,hform,-⟩ := constructing_and_reading_agree
  obtain ⟨hread,-,hwritten⟩ := hagree s.parts s
  have hmade : ofParts 2 .zipWith (some .min) [1,0] = .ok s := rfl
  have htokens : s.tokens = ["x2","=","ZipWith","min","x1","x0"] := (hwritten hmade).trans (by decide)
  have hs : ofTokens s.tokens = .ok s := by
    rw [hwritten hmade]
    exact hread.mp hmade
  exact ⟨hmade,htokens,hs,hform _ _ hs,by decide,(hreject missing).2.mp ⟨_,rfl⟩,by decide,(hreject surplus).2.mp ⟨_,rfl⟩⟩

end Statement
end ListScript
