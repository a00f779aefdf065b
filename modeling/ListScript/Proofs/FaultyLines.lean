import ListScript.Proofs.Bindings
import ListScript.Proofs.Canonical
import ListScript.Proofs.Reading

/-!
# Faulty lines

Lines are read in order, and the first faulty one decides the error. Whether a line of a program is faulty depends on its
number and on whether a statement stands before it; whether a binding of a state is faulty depends on its number alone. A
text that goes on behind a bar is therefore judged as the text in front of the bar and, when this can be read, by the groups
behind it, numbered on from there.
-/
namespace ListScript
open Reading

/-- Behind a separator the groups are those of what follows it; when nothing follows, that is an empty group. -/
theorem Token.splitGroups_append {α : Type} [DecidableEq α] (separator : α) {items : List α} (h : items ≠ [])
    (rest : List α) : splitGroups separator (items ++ separator :: rest) =
      splitGroups separator items ++ rest.splitOn separator := by
  rw [splitGroups_of_ne_nil separator h,splitGroups_of_ne_nil separator (by simp)]
  exact List.splitOn_append_cons_self items rest

/-! ## Lines of programs -/

namespace Program

/-- What is wrong with a line of a program. `computed` tells whether a statement stands before it. -/
inductive LineFault (position : Nat) (computed : Prop) (line : List String) : ParseError → Prop
  /-- An input is declared after a statement. -/
  | late (hinput : isInputLine line = true) (hafter : computed) :
      LineFault position computed line (.inputAfterStatement position)
  /-- What declares an input does not begin with a variable and the assignment sign. -/
  | declaration {e : ParseError} (hinput : isInputLine line = true) (hbefore : ¬ computed)
      (h : assignment line = .error e) : LineFault position computed line e
  /-- The input that is declared is not the variable with the number of the line. -/
  | order {index : UInt64} {rest : List String} (hinput : isInputLine line = true) (hbefore : ¬ computed)
      (h : assignment line = .ok (index,rest)) (hne : index.toNat ≠ position) :
      LineFault position computed line (.variableOrder position index.toNat)
  /-- What does not declare an input is not a statement. -/
  | statement {e : ParseError} (hinput : isInputLine line = false) (h : Statement.ofTokens line = .error e) :
      LineFault position computed line e

variable {p q : Program} {line : List String} {e : ParseError}

/-- The next line of a program is refused for its fault. -/
theorem addLine_eq_error_iff : addLine p line = .error e ↔ LineFault p.length (p.statements ≠ []) line e := by
  constructor
  · intro h
    unfold addLine at h
    split at h
    case isTrue hinput =>
      split at h
      case isTrue hs =>
        cases h
        exact .late hinput (by simpa using hs)
      case isFalse hs =>
        have hbefore : ¬ p.statements ≠ [] := by simpa using hs
        rcases bind_eq_error_iff.mp h with h | ⟨⟨index,rest⟩,hlhs,h⟩
        · exact .declaration hinput hbefore h
        · dsimp only at h
          split at h
          case isTrue hne =>
            cases h
            exact .order hinput hbefore hlhs hne
          case isFalse => contradiction
    case isFalse hinput =>
      rcases bind_eq_error_iff.mp h with h | ⟨s,-,h⟩
      · exact .statement (by simpa using hinput) h
      · contradiction
  · intro h
    unfold addLine
    cases h with
    | late hinput hafter => rw [if_pos hinput,if_pos (by simpa using hafter)]
    | declaration hinput hbefore h =>
      rw [if_pos hinput,if_neg (by simpa using hbefore)]
      exact bind_eq_error_iff.mpr (.inl h)
    | order hinput hbefore h hne =>
      rw [if_pos hinput,if_neg (by simpa using hbefore)]
      refine bind_eq_error_iff.mpr (.inr ⟨_,h,?_⟩)
      dsimp only
      rw [if_pos hne]
      rfl
    | statement hinput h =>
      rw [if_neg (by simp [hinput])]
      exact bind_eq_error_iff.mpr (.inl h)

/-- There is a statement in a program or among the lines behind it. -/
def Computes (p : Program) (lines : List (List String)) : Prop :=
  p.statements ≠ [] ∨ ∃ line ∈ lines, ∃ s, Statement.ofTokens line = .ok s

/-- What is wrong with a line that stands behind a program, with other lines in between. The numbers of the lines go on
from the program. -/
def Faulty (p : Program) (between : List (List String)) (line : List String) (e : ParseError) : Prop :=
  LineFault (p.length + between.length) (p.Computes between) line e

/-- What does not begin with a variable and the assignment sign is refused for that. -/
theorem assignment_ne_inputAfterStatement {ts : List String} {n : Nat} :
    assignment ts ≠ .error (.inputAfterStatement n) := by
  intro h
  unfold assignment at h
  split at h
  case h_1 lhs sign rest =>
    rcases bind_eq_error_iff.mp h with hlhs | ⟨index,-,hsign⟩
    · have he := (Variable.ofToken_eq_error_iff.mp hlhs).1
      contradiction
    · split at hsign <;> cases hsign
  case h_2 => cases h

/-- A line that declares an input is refused as too late exactly behind a statement. -/
theorem faulty_input_iff {between : List (List String)} {n : Nat} (hinput : isInputLine line = true) :
    p.Faulty between line (.inputAfterStatement n) ↔ p.Computes between ∧ n = p.length + between.length := by
  constructor
  · intro h
    cases h with
    | late _ hafter => exact ⟨hafter,rfl⟩
    | declaration _ _ h => exact absurd h assignment_ne_inputAfterStatement
    | statement hno => exact absurd hinput (by simp [hno])
  · intro ⟨hafter,hn⟩
    subst hn
    exact .late hinput hafter

/-- A program has a statement exactly if one of its lines is read as one. -/
theorem statements_ne_nil_iff : p.statements ≠ [] ↔ ∃ line ∈ p.lines, ∃ s, Statement.ofTokens line = .ok s := by
  simp only [Statement.ofTokens_eq_ok_iff]
  constructor
  · intro h
    obtain ⟨s,ss,hs⟩ := List.exists_cons_of_ne_nil h
    exact ⟨s.tokens,by simp [lines,hs],s,rfl⟩
  · intro h hnil
    obtain ⟨line,hline,s,rfl⟩ := h
    simp only [lines,hnil,List.map_nil,List.append_nil,List.mem_map] at hline
    obtain ⟨i,-,hi⟩ := hline
    -- The line would declare an input, which no statement does.
    have hinput := isInputLine_inputLine i
    rw [hi,isInputLine_tokens] at hinput
    contradiction

variable {between : List (List String)}

theorem length_of_lines (h : between.foldlM addLine p = .ok q) : q.length = p.length + between.length := by
  rw [← length_lines,(foldlM_addLine h).1,List.length_append,length_lines]

theorem computes_of_lines (h : between.foldlM addLine p = .ok q) : q.statements ≠ [] ↔ p.Computes between := by
  rw [Computes,statements_ne_nil_iff,statements_ne_nil_iff,(foldlM_addLine h).1]
  simp only [List.mem_append,or_and_right,exists_or]

/-- Reading lines behind a program fails with the fault of the first faulty one. -/
theorem lines_eq_error_iff {ls : List (List String)} :
    ls.foldlM addLine p = .error e ↔ IsFirstFault p.Faulty ls e := by
  apply foldlM_eq_error_iff
  intro between q h line e
  rw [addLine_eq_error_iff,Faulty,length_of_lines h,propext (computes_of_lines h)]

theorem ofTokens_of_ne_nil {ts : List String} (h : ts ≠ []) :
    ofTokens ts = (Token.splitGroups Token.bar ts).foldlM addLine ⟨0,[]⟩ := by
  unfold ofTokens
  split
  case h_1 hnil =>
    rw [Token.splitGroups_of_ne_nil Token.bar h] at hnil
    exact absurd hnil (List.splitOn_ne_nil Token.bar ts)
  case h_2 => rfl

/-- What stands behind a bar is read as further lines of the program in front of it. -/
theorem ofTokens_append {ts : List String} (h : ts ≠ []) (rest : List String) :
    ofTokens (ts ++ Token.bar :: rest) =
      ofTokens ts >>= fun p => (rest.splitOn Token.bar).foldlM addLine p := by
  rw [ofTokens_of_ne_nil h,ofTokens_of_ne_nil (by simp),Token.splitGroups_append Token.bar h,List.foldlM_append]

end Program

/-! ## Bindings of states -/

namespace State

/-- What is wrong with a binding of a state. -/
inductive BindingFault (position : Nat) : List String → ParseError → Prop
  /-- The binding breaks off in front of its sign. -/
  | short {group : List String} (h : group.length < 2) :
      BindingFault position group (.unexpectedEnd (.binding position))
  /-- What is set is not a variable. -/
  | target {lhs sign : String} {rest : List String} {e : ParseError} (h : Variable.ofToken lhs = .error e) :
      BindingFault position (lhs :: sign :: rest) e
  /-- The variable that is set is not the one with the number of the binding. -/
  | order {lhs sign : String} {rest : List String} {index : UInt64} (h : Variable.ofToken lhs = .ok index)
      (hne : index.toNat ≠ position) :
      BindingFault position (lhs :: sign :: rest) (.variableOrder position index.toNat)
  /-- Something other than the assignment sign stands behind the variable. -/
  | sign {lhs sign : String} {rest : List String} {index : UInt64} (h : Variable.ofToken lhs = .ok index)
      (hposition : index.toNat = position) (hne : sign ≠ Token.assign) :
      BindingFault position (lhs :: sign :: rest) (.unexpectedToken Token.assign sign)
  /-- What stands behind the sign is not a value. -/
  | value {lhs : String} {rest : List String} {index : UInt64} {e : ParseError} (h : Variable.ofToken lhs = .ok index)
      (hposition : index.toNat = position) (hvalue : Value.ofTokens rest = .error e) :
      BindingFault position (lhs :: Token.assign :: rest) e
  /-- The value is out of bounds. -/
  | bound {lhs : String} {rest : List String} {index : UInt64} {v : Value} (h : Variable.ofToken lhs = .ok index)
      (hposition : index.toNat = position) (hvalue : Value.ofTokens rest = .ok v) (hv : v.isValid = false) :
      BindingFault position (lhs :: Token.assign :: rest) (.outOfBounds v)

variable {s next : State} {position : Nat} {group rest : List String} {lhs sign : String} {index : UInt64} {e : ParseError}

theorem valueOfBinding_of_error (h : Variable.ofToken lhs = .error e) :
    valueOfBinding position (lhs :: sign :: rest) = .error e := by
  rw [valueOfBinding,h]
  rfl

/-- Behind its variable a binding is judged by the number, the sign, the value and the bound, in this order. -/
theorem valueOfBinding_of_ok (h : Variable.ofToken lhs = .ok index) : valueOfBinding position (lhs :: sign :: rest) =
    if index.toNat ≠ position then .error (.variableOrder position index.toNat)
    else if sign ≠ Token.assign then .error (.unexpectedToken Token.assign sign)
    else Value.ofTokens rest >>= fun v => if v.isValid then .ok v else .error (.outOfBounds v) := by
  rw [valueOfBinding,h]
  change (if _ then _ else _) = _
  by_cases hposition : index.toNat ≠ position
  · rw [if_pos hposition,if_pos hposition]
    rfl
  · rw [if_neg hposition,if_neg hposition]
    by_cases hsign : sign ≠ Token.assign
    · rw [if_pos hsign,if_pos hsign]
      rfl
    · rw [if_neg hsign,if_neg hsign]
      refine bind_congr fun v => ?_
      cases v.isValid <;> rfl

/-- A binding is refused for its fault. -/
theorem valueOfBinding_eq_error_iff : valueOfBinding position group = .error e ↔ BindingFault position group e := by
  constructor
  · intro h
    match group, h with
    | [], h =>
      cases h
      exact .short (by simp)
    | [t], h =>
      cases h
      exact .short (by simp)
    | lhs :: sign :: rest, h =>
      cases hlhs : Variable.ofToken lhs with
      | error e' =>
        rw [valueOfBinding_of_error hlhs] at h
        cases h
        exact .target hlhs
      | ok index =>
        rw [valueOfBinding_of_ok hlhs] at h
        split at h
        case isTrue hne =>
          cases h
          exact .order hlhs hne
        case isFalse hposition =>
          rw [ne_eq,Decidable.not_not] at hposition
          split at h
          case isTrue hne =>
            cases h
            exact .sign hlhs hposition hne
          case isFalse hsign =>
            rw [Decidable.not_not.mp hsign]
            rcases bind_eq_error_iff.mp h with hvalue | ⟨v,hv,hbound⟩
            · exact .value hlhs hposition hvalue
            · split at hbound
              case isTrue => contradiction
              case isFalse hvalid =>
                cases hbound
                exact .bound hlhs hposition hv (by simpa using hvalid)
  · intro h
    cases h with
    | short hlen =>
      match group, hlen with
      | [], _ => rfl
      | [_], _ => rfl
    | target hlhs => exact valueOfBinding_of_error hlhs
    | order hlhs hne => rw [valueOfBinding_of_ok hlhs,if_pos hne]
    | sign hlhs hposition hne => rw [valueOfBinding_of_ok hlhs,if_neg (not_not_intro hposition),if_pos hne]
    | value hlhs hposition hvalue =>
      rw [valueOfBinding_of_ok hlhs,if_neg (not_not_intro hposition),if_neg (not_not_intro rfl)]
      exact bind_eq_error_iff.mpr (.inl hvalue)
    | bound hlhs hposition hvalue hv =>
      rw [valueOfBinding_of_ok hlhs,if_neg (not_not_intro hposition),if_neg (not_not_intro rfl)]
      exact bind_eq_error_iff.mpr (.inr ⟨_,hvalue,by simp [hv]⟩)

/-- What is wrong with a binding that stands behind a state, with other bindings in between. The numbers of the bindings go
on from the state. -/
def Faulty (s : State) (between : List (List String)) (group : List String) (e : ParseError) : Prop :=
  BindingFault (s.length + between.length) group e

theorem length_of_bindings {between : List (List String)} (h : between.foldlM addBinding s = .ok next) :
    next.length = s.length + between.length := by
  induction between generalizing s with
  | nil =>
    cases h
    rfl
  | cons group between ih =>
    rw [List.foldlM_cons,bind_eq_ok_iff] at h
    obtain ⟨mid,hmid,hrest⟩ := h
    obtain ⟨v,-,rfl⟩ := addBinding_eq_ok_iff.mp hmid
    rw [ih hrest,length_push,List.length_cons]
    omega

/-- Reading bindings behind a state fails with the fault of the first faulty one. -/
theorem bindings_eq_error_iff {groups : List (List String)} :
    groups.foldlM addBinding s = .error e ↔ IsFirstFault s.Faulty groups e := by
  apply foldlM_eq_error_iff
  intro between next h group e
  rw [addBinding,map_eq_error_iff,valueOfBinding_eq_error_iff,length_of_bindings h,Faulty]

/-- What stands behind a bar is read as further bindings of the state in front of it. -/
theorem ofTokens_append {ts : List String} (h : ts ≠ []) (rest : List String) :
    ofTokens (ts ++ Token.bar :: rest) =
      ofTokens ts >>= fun s => (rest.splitOn Token.bar).foldlM addBinding s := by
  rw [ofTokens,ofTokens,Token.splitGroups_append Token.bar h,List.foldlM_append]

end State

/-- The first faulty line decides the error. What goes on behind a bar is refused with the same error as what stands in front
of it, if this is refused itself. If a program or a state is read in front of the bar, the whole is refused exactly with the
fault of the first faulty group behind the bar, numbered on from the program or the state; a list that ends with the bar is
continued by an empty group. A line that declares an input is then refused as too late exactly if the program or an earlier
one of the groups has a statement. -/
theorem first_faulty_line_decides (front rest : List String) (hfront : front ≠ []) :
    ((∀ e, Program.ofTokens front = .error e → Program.ofTokens (front ++ Token.bar :: rest) = .error e) ∧
      ∀ p, Program.ofTokens front = .ok p →
        (∀ e, Program.ofTokens (front ++ Token.bar :: rest) = .error e ↔
          IsFirstFault p.Faulty (rest.splitOn Token.bar) e) ∧
        ∀ between line n, Program.isInputLine line = true →
          (p.Faulty between line (.inputAfterStatement n) ↔ p.Computes between ∧ n = p.length + between.length)) ∧
    (∀ e, State.ofTokens front = .error e → State.ofTokens (front ++ Token.bar :: rest) = .error e) ∧
      ∀ s, State.ofTokens front = .ok s →
        ∀ e, State.ofTokens (front ++ Token.bar :: rest) = .error e ↔ IsFirstFault s.Faulty (rest.splitOn Token.bar) e := by
  rw [Program.ofTokens_append hfront,State.ofTokens_append hfront]
  refine ⟨⟨?_,?_⟩,?_,?_⟩
  · intro e h
    rw [h]
    rfl
  · intro p h
    rw [h]
    exact ⟨fun e => Program.lines_eq_error_iff,fun between line n => Program.faulty_input_iff⟩
  · intro e h
    rw [h]
    rfl
  · intro s h e
    rw [h]
    exact State.bindings_eq_error_iff

/-- Of several faults the first counts: an input that is declared too late before a line that breaks off, a value out of
bounds before a bar at the end, and what is wrong in front of a bar before what is wrong behind it. -/
theorem first_faulty_line_decides_several_faults :
    (let front := ["x0","=","INPUT","|","x1","=","Sum","x0"]
      let rest := ["x2","=","Head","x0","|","x3","=","INPUT","|","x4"]
      ∃ p, front ≠ [] ∧ Program.ofTokens front = .ok p ∧
        IsFirstFault p.Faulty (rest.splitOn Token.bar) (.inputAfterStatement 3) ∧
        Program.isInputLine ["x3","=","INPUT"] = true ∧
        p.Faulty [["x2","=","Head","x0"]] ["x3","=","INPUT"] (.inputAfterStatement 3)) ∧
    (let front := ["x0","=","5"]
      let rest := ["x1","=","[","300","]","|"]
      ∃ s, front ≠ [] ∧ State.ofTokens front = .ok s ∧
        IsFirstFault s.Faulty (rest.splitOn Token.bar) (.outOfBounds (.list [300]))) ∧
    (Program.ofTokens ["x1","=","INPUT"] = .error (.variableOrder 0 1) ∧
      Program.ofTokens (["x1","=","INPUT"] ++ Token.bar :: ["x1","=","Sum"]) = .error (.variableOrder 0 1)) ∧
    State.ofTokens ["|"] = .error (.unexpectedEnd (.binding 0)) ∧
      State.ofTokens (["|"] ++ Token.bar :: ["x1"]) = .error (.unexpectedEnd (.binding 0)) := by
  refine ⟨?_,?_,?_,?_⟩
  · intro front rest
    obtain ⟨⟨-,hread⟩,-⟩ := first_faulty_line_decides front rest (by decide)
    have hfront : Program.ofTokens front = .ok ⟨1,[⟨1,.sum,none,[0],rfl,rfl⟩]⟩ := by decide
    obtain ⟨hfirst,hlate⟩ := hread _ hfront
    have hinput : Program.isInputLine ["x3","=","INPUT"] = true := by decide
    exact ⟨_,by decide,hfront,(hfirst _).mp (by decide),hinput,(hlate _ _ _ hinput).mpr ⟨.inl (by decide),rfl⟩⟩
  · intro front rest
    obtain ⟨-,-,hread⟩ := first_faulty_line_decides front rest (by decide)
    have hfront : State.ofTokens front = .ok ⟨[.int 5]⟩ := by decide
    exact ⟨_,by decide,hfront,(hread _ hfront _).mp (by decide)⟩
  · obtain ⟨⟨hrefused,-⟩,-⟩ := first_faulty_line_decides ["x1","=","INPUT"] ["x1","=","Sum"] (by decide)
    exact ⟨by decide,hrefused _ (by decide)⟩
  · obtain ⟨-,hrefused,-⟩ := first_faulty_line_decides ["|"] ["x1"] (by decide)
    exact ⟨by decide,hrefused _ (by decide)⟩

end ListScript
