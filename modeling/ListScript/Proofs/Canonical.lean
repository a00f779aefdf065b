import ListScript.Program
import ListScript.Proofs.Reading
import ListScript.Proofs.Spelling
import ListScript.Proofs.Splitting

/-!
# Canonical texts of programs

Reading a statement accepts exactly the tokens that the statement is written with, and reading a program exactly the
tokens of a program with at least one line. A program has therefore one list of tokens, and one text up to blanks.
-/
namespace ListScript
open Reading

/-! ## Words -/

theorem Variable.isWord_token (index : Nat) : Token.IsWord (Variable.token index) := by
  refine ⟨?_,?_⟩
  · intro h
    have hl := congrArg String.toList h
    simp at hl
  · intro c hc
    rw [Variable.toList_token,List.mem_cons] at hc
    rcases hc with rfl | hc
    · decide
    · exact Token.isWordChar_of_isDigit (Decimal.isDigit_of_mem_digits hc)

theorem Operation.isWord_token (op : Operation) : Token.IsWord op.token := by cases op <;> decide

theorem Lambda.isWord_token (l : Lambda) : Token.IsWord l.token := by cases l <;> decide

/-! ## Statements -/

/-- What stands in front of a line is one variable token and the assignment sign. -/
theorem assignment_eq_ok_iff {ts rest : List String} {i : UInt64} :
    assignment ts = .ok (i,rest) ↔ ts = Variable.token i.toNat :: Token.assign :: rest := by
  unfold assignment
  split
  · rename_i lhs sign rest'
    rw [bind_eq_ok_iff]
    constructor
    · rintro ⟨j,hj,h⟩
      split at h
      · contradiction
      · rename_i hsign
        cases h
        rw [Variable.ofToken_eq_ok_iff.mp hj,Decidable.not_not.mp hsign]
    · intro h
      obtain ⟨rfl,rfl,rfl⟩ : lhs = Variable.token i.toNat ∧ sign = Token.assign ∧ rest' = rest := by
        simpa using h
      exact ⟨i,Variable.ofToken_token i,by simp [pure,Except.pure]⟩
  · rename_i hts
    constructor
    · intro h
      contradiction
    · intro h
      exact absurd h (hts _ _ _)

namespace Statement

theorem ofParts_self (s : Statement) : ofParts s.lhs s.operation s.lambda s.args = .ok s := by
  unfold ofParts
  split
  · rename_i e h
    rw [lambdaError?_eq_none_iff.mpr s.lambda_fits] at h
    contradiction
  · rw [dif_pos s.args_fit]

/-- Making a statement of parts keeps them. -/
theorem ofParts_eq_ok_iff {lhs : UInt64} {op : Operation} {lambda : Option Lambda} {args : List UInt64}
    {s : Statement} : ofParts lhs op lambda args = .ok s ↔
      lhs = s.lhs ∧ op = s.operation ∧ lambda = s.lambda ∧ args = s.args := by
  constructor
  · intro h
    unfold ofParts at h
    split at h
    · contradiction
    · split at h
      · cases h
        exact ⟨rfl,rfl,rfl,rfl⟩
      · contradiction
  · rintro ⟨rfl,rfl,rfl,rfl⟩
    exact ofParts_self s

/-- The lambda among the operands of an operation is one of the class that it asks for. -/
theorem lambdaOperand_eq_ok_iff {op : Operation} {operands names : List String} {lambda : Option Lambda} :
    lambdaOperand op operands = .ok (lambda,names) ↔
      lambda.map Lambda.lambdaClass = op.lambdaClass? ∧
        operands = lambda.toList.map Lambda.token ++ names := by
  constructor
  · intro h
    unfold lambdaOperand at h
    split at h
    · rename_i hop
      cases h
      exact ⟨hop.symm,rfl⟩
    · contradiction
    · rename_i c token names' hop
      split at h
      · contradiction
      · rename_i l hl
        split at h
        · rename_i hc
          cases h
          exact ⟨by simp [hop,hc],by simp [Lambda.ofToken?_eq_some_iff.mp hl]⟩
        · contradiction
  · rintro ⟨hop,rfl⟩
    cases lambda with
    | none => simp [lambdaOperand,← hop]
    | some l => simp [lambdaOperand,← hop]

/-- The tokens after the operation: its lambda, if it has one, and its variables. -/
def operands (s : Statement) : List String :=
  s.lambda.toList.map Lambda.token ++ s.args.map fun arg => Variable.token arg.toNat

theorem tokens_eq (s : Statement) :
    s.tokens = Variable.token s.lhs.toNat :: Token.assign :: s.operation.token :: s.operands := by
  simp [tokens,operands]

/-- A statement has as many operands as its operation has slots. -/
theorem length_operands (s : Statement) : s.operands.length = s.operation.arity := by
  rw [Operation.arity_eq,← s.length_lambda,← s.args_fit]
  simp [operands]

theorem mapM_ofToken_eq_ok_iff {names : List String} {args : List UInt64} :
    names.mapM Variable.ofToken = .ok args ↔ names = args.map fun arg => Variable.token arg.toNat :=
  mapM_eq_ok_iff_eq_map fun _ _ => Variable.ofToken_eq_ok_iff

/-- Reading a statement accepts exactly the tokens that the statement is written with. -/
theorem ofTokens_eq_ok_iff {ts : List String} {s : Statement} : ofTokens ts = .ok s ↔ ts = s.tokens := by
  unfold ofTokens
  rw [bind_eq_ok_iff]
  constructor
  · rintro ⟨⟨lhs,rest⟩,hlhs,h⟩
    obtain rfl := assignment_eq_ok_iff.mp hlhs
    dsimp only at h
    split at h
    · contradiction
    · rename_i opToken operands
      split at h
      · contradiction
      · rename_i op hop
        obtain rfl := Operation.ofToken?_eq_some_iff.mp hop
        split at h
        · contradiction
        · obtain ⟨⟨lambda,names⟩,hoperands,hargs⟩ := bind_eq_ok_iff.mp h
          obtain ⟨args,hnames,hs⟩ := bind_eq_ok_iff.mp hargs
          obtain ⟨rfl,rfl,rfl,rfl⟩ := ofParts_eq_ok_iff.mp hs
          obtain ⟨-,rfl⟩ := lambdaOperand_eq_ok_iff.mp hoperands
          obtain rfl := mapM_ofToken_eq_ok_iff.mp hnames
          rw [tokens_eq,Statement.operands]
  · rintro rfl
    have hoperands : lambdaOperand s.operation s.operands =
        .ok (s.lambda,s.args.map fun arg => Variable.token arg.toNat) :=
      lambdaOperand_eq_ok_iff.mpr ⟨s.lambda_fits,rfl⟩
    refine ⟨_,assignment_eq_ok_iff.mpr s.tokens_eq,?_⟩
    simp only [Operation.ofToken?_token,length_operands,ne_eq,not_true_eq_false,if_false]
    exact bind_eq_ok_iff.mpr ⟨_,hoperands,
      bind_eq_ok_iff.mpr ⟨s.args,mapM_ofToken_eq_ok_iff.mpr rfl,ofParts_self s⟩⟩

/-- A statement is written with words and the assignment sign. -/
theorem mem_tokens {s : Statement} {t : String} (h : t ∈ s.tokens) : Token.IsWord t ∨ t = Token.assign := by
  rw [tokens_eq,operands] at h
  simp only [List.mem_cons,List.mem_append,List.mem_map] at h
  rcases h with rfl | rfl | rfl | ⟨l,-,rfl⟩ | ⟨arg,-,rfl⟩
  · exact Or.inl (Variable.isWord_token _)
  · exact Or.inr rfl
  · exact Or.inl (Operation.isWord_token _)
  · exact Or.inl (Lambda.isWord_token _)
  · exact Or.inl (Variable.isWord_token _)

end Statement

/-! ## Programs -/

namespace Program

theorem mem_inputLine {index : Nat} {t : String} (h : t ∈ inputLine index) :
    Token.IsWord t ∨ t = Token.assign := by
  simp only [inputLine,List.mem_cons,List.not_mem_nil,or_false] at h
  rcases h with rfl | rfl | rfl
  · exact Or.inl (Variable.isWord_token _)
  · exact Or.inr rfl
  · exact Or.inl (by decide)

/-- A line is written with words and the assignment sign. -/
theorem mem_line {p : Program} {line : List String} (hline : line ∈ p.lines) {t : String} (h : t ∈ line) :
    Token.IsWord t ∨ t = Token.assign := by
  simp only [lines,List.mem_append,List.mem_map] at hline
  rcases hline with ⟨index,-,rfl⟩ | ⟨s,-,rfl⟩
  · exact mem_inputLine h
  · exact Statement.mem_tokens h

theorem bar_not_mem_line {p : Program} {line : List String} (hline : line ∈ p.lines) : Token.bar ∉ line := by
  intro h
  rcases mem_line hline h with hw | he
  · exact absurd hw (by decide)
  · exact absurd he (by decide)

@[simp] theorem length_lines (p : Program) : p.lines.length = p.length := by simp [lines,length]

theorem isInputLine_cons_cons {lhs sign : String} {rest : List String} :
    isInputLine (lhs :: sign :: rest) = true ↔ rest = [Token.input] := by
  unfold isInputLine
  split
  · rename_i h
    cases h
    simp
  · rename_i h
    constructor
    · intro hf
      contradiction
    · rintro rfl
      exact absurd rfl (h _ _ _)

@[simp] theorem isInputLine_inputLine (index : Nat) : isInputLine (inputLine index) = true := by
  simp [isInputLine,inputLine]

/-- A statement has an operand, so its line is longer than one that declares an input. -/
@[simp] theorem isInputLine_tokens (s : Statement) : isInputLine s.tokens = false := by
  have hne : s.operands ≠ [] := by
    rw [ne_eq,← List.length_eq_zero_iff,s.length_operands]
    exact Nat.ne_of_gt s.operation.arity_pos
  obtain ⟨t,ts,hts⟩ := List.exists_cons_of_ne_nil hne
  rw [Statement.tokens_eq,hts]
  rfl

/-- The next line declares the next input, as long as there is no statement, or it is a statement. -/
theorem addLine_eq_ok_iff {p q : Program} {line : List String} : addLine p line = .ok q ↔
    (p.statements = [] ∧ p.numInputs < UInt64.size ∧ line = inputLine p.numInputs ∧
      q = { p with numInputs := p.numInputs+1 }) ∨
    ∃ s, line = s.tokens ∧ q = { p with statements := p.statements ++ [s] } := by
  constructor
  · intro h
    unfold addLine at h
    split at h
    · rename_i hinput
      left
      split at h
      · contradiction
      · rename_i hs
        have hnil : p.statements = [] := by simpa using hs
        obtain ⟨⟨lhs,rest⟩,hlhs,h'⟩ := bind_eq_ok_iff.mp h
        obtain rfl := assignment_eq_ok_iff.mp hlhs
        dsimp only at h'
        split at h'
        · contradiction
        · rename_i hlen
          cases h'
          have hlen : lhs.toNat = p.numInputs := by simpa [length,hnil] using hlen
          refine ⟨hnil,hlen ▸ lhs.toNat_lt,?_,rfl⟩
          rw [inputLine,← hlen,isInputLine_cons_cons.mp hinput]
    · right
      obtain ⟨s,hs,h'⟩ := bind_eq_ok_iff.mp h
      cases h'
      exact ⟨s,Statement.ofTokens_eq_ok_iff.mp hs,rfl⟩
  · rintro (⟨hnil,hlt,rfl,rfl⟩ | ⟨s,rfl,rfl⟩)
    · have hindex : (UInt64.ofNat p.numInputs).toNat = p.numInputs := UInt64.toNat_ofNat_of_lt hlt
      have hlhs : assignment (inputLine p.numInputs) = .ok (UInt64.ofNat p.numInputs,[Token.input]) := by
        rw [assignment_eq_ok_iff,hindex,inputLine]
      simp only [addLine,isInputLine_inputLine,hnil,if_true]
      exact bind_eq_ok_iff.mpr ⟨_,hlhs,by simp [length,hnil,hindex,pure,Except.pure]⟩
    · simp only [addLine,isInputLine_tokens]
      exact bind_eq_ok_iff.mpr ⟨s,Statement.ofTokens_eq_ok_iff.mpr rfl,rfl⟩

/-- Reading lines one after the other collects them. -/
theorem foldlM_addLine {p q : Program} {ls : List (List String)} (h : ls.foldlM addLine p = .ok q) :
    q.lines = p.lines ++ ls ∧ (p.numInputs ≤ UInt64.size → q.numInputs ≤ UInt64.size) := by
  induction ls generalizing p with
  | nil =>
    cases h
    simp
  | cons line ls ih =>
    rw [List.foldlM_cons,bind_eq_ok_iff] at h
    obtain ⟨mid,hmid,hrest⟩ := h
    obtain ⟨hlines,hbound⟩ := ih hrest
    rcases addLine_eq_ok_iff.mp hmid with ⟨hnil,hlt,rfl,rfl⟩ | ⟨s,rfl,rfl⟩
    · -- There is no statement yet, so the line comes right after the other input lines.
      refine ⟨?_,fun _ => hbound hlt⟩
      rw [hlines]
      simp [lines,hnil,List.range_succ]
    · refine ⟨?_,hbound⟩
      rw [hlines]
      simp [lines]

theorem foldlM_inputLines {n : Nat} (hn : n ≤ UInt64.size) :
    ((List.range n).map inputLine).foldlM addLine ⟨0,[]⟩ = .ok ⟨n,[]⟩ := by
  induction n with
  | zero => rfl
  | succ n ih =>
    rw [List.range_succ,List.map_append,List.foldlM_append,bind_eq_ok_iff]
    refine ⟨⟨n,[]⟩,ih (by omega),?_⟩
    rw [List.map_singleton,List.foldlM_cons,bind_eq_ok_iff]
    exact ⟨⟨n+1,[]⟩,addLine_eq_ok_iff.mpr (Or.inl ⟨rfl,hn,rfl,rfl⟩),rfl⟩

theorem foldlM_statementLines (p : Program) (ss : List Statement) :
    (ss.map Statement.tokens).foldlM addLine p = .ok { p with statements := p.statements ++ ss } := by
  induction ss generalizing p with
  | nil => simp [pure,Except.pure]
  | cons s ss ih =>
    rw [List.map_cons,List.foldlM_cons,bind_eq_ok_iff]
    refine ⟨_,addLine_eq_ok_iff.mpr (Or.inr ⟨s,rfl,rfl⟩),?_⟩
    rw [ih]
    simp

theorem foldlM_lines {p : Program} (hp : p.numInputs ≤ UInt64.size) : p.lines.foldlM addLine ⟨0,[]⟩ = .ok p := by
  rw [lines,List.foldlM_append,bind_eq_ok_iff]
  exact ⟨_,foldlM_inputLines hp,foldlM_statementLines _ _⟩

/-- A program is cut into the lines it is written with. -/
theorem splitGroups_tokens (p : Program) : Token.splitGroups Token.bar p.tokens = p.lines := by
  apply Token.splitGroups_joinGroups_of_ne_nil
  · rintro line hline rfl
    simp [lines,inputLine,Statement.tokens] at hline
  · intro line hline
    exact bar_not_mem_line hline

/-- Reading a program accepts exactly the tokens of a program that has a line and whose inputs have 64-bit indices. -/
theorem ofTokens_eq_ok_iff {ts : List String} {p : Program} :
    ofTokens ts = .ok p ↔ p.numInputs ≤ UInt64.size ∧ 1 ≤ p.length ∧ ts = p.tokens := by
  constructor
  · intro h
    unfold ofTokens at h
    split at h
    · contradiction
    · rename_i hne
      obtain ⟨hlines,hbound⟩ := foldlM_addLine h
      have hlines' : p.lines = Token.splitGroups Token.bar ts := by simpa [lines] using hlines
      refine ⟨hbound (by simp),?_,?_⟩
      · rw [← length_lines,hlines']
        exact List.length_pos_iff.mpr hne
      · rw [tokens,hlines',Token.joinGroups_splitGroups]
  · rintro ⟨hbound,hlen,rfl⟩
    unfold ofTokens
    rw [splitGroups_tokens]
    split
    · rename_i hnil
      rw [← length_lines,hnil] at hlen
      contradiction
    · exact foldlM_lines hbound

theorem isToken_of_mem_tokens {p : Program} {t : String} (h : t ∈ p.tokens) : Token.IsToken t := by
  rcases Token.mem_joinGroups h with rfl | ⟨line,hline,ht⟩
  · exact Token.isToken_bar
  · rcases mem_line hline ht with hw | rfl
    · exact hw.isToken
    · exact Token.isToken_assign

/-- The text of a program reads as its tokens do. -/
theorem ofText_text (p : Program) : ofText p.text = ofTokens p.tokens := by
  rw [ofText,text,Token.split_unwords fun _ => isToken_of_mem_tokens]

/-- Reading and writing programs are inverse to each other. A list of tokens is read as a program exactly if it is the
one that the program is written with, for every program that has a line and whose inputs have 64-bit indices; such a
program is read back from its tokens and from its text, and from no other tokens. -/
theorem tokens_canonical :
    (∀ (ts : List String) (p : Program), ofTokens ts = .ok p ↔
      p.numInputs ≤ UInt64.size ∧ 1 ≤ p.length ∧
        (∀ s ∈ p.statements, Statement.ofParts s.lhs s.operation s.lambda s.args = .ok s) ∧ ts = p.tokens) ∧
    (∀ p : Program, p.numInputs ≤ UInt64.size → 1 ≤ p.length →
      ofTokens p.tokens = .ok p ∧ ofText p.text = .ok p) ∧
    ∀ (ts ts' : List String) (p : Program), ofTokens ts = .ok p → ofTokens ts' = .ok p → ts = ts' := by
  refine ⟨?_,?_,?_⟩
  · intro ts p
    rw [ofTokens_eq_ok_iff]
    constructor
    · rintro ⟨hbound,hlen,hts⟩
      exact ⟨hbound,hlen,fun s _ => s.ofParts_self,hts⟩
    · rintro ⟨hbound,hlen,-,hts⟩
      exact ⟨hbound,hlen,hts⟩
  · intro p hbound hlen
    have h : ofTokens p.tokens = .ok p := ofTokens_eq_ok_iff.mpr ⟨hbound,hlen,rfl⟩
    exact ⟨h,(ofText_text p).trans h⟩
  · intro ts ts' p h h'
    rw [(ofTokens_eq_ok_iff.mp h).2.2,(ofTokens_eq_ok_iff.mp h').2.2]

end Program
end ListScript
