import ListScript.Proofs.Application

/-!
# The signature check

An application can be carried out in stages: the arguments are checked against the slots, then each operand is taken from
its position as the operation needs it, and last the result is compared with the bound. Taking an operand can fail in its
own ways, as an argument may be missing, of another kind, or a lambda of another class. After the check none of these comes
about, and the stages come to what the application comes to. Its faults are therefore those of the check.
-/
namespace ListScript
open Reading

/-! ## Stages of an application -/

/-- Why an operand cannot be taken from the arguments. -/
inductive OperandError where
  | fault (error : RunError)
  | missing (operation : Operation) (position : Nat) (expected : Slot)
  deriving DecidableEq, Repr

/-- How a lambda is used where one of a class is needed. -/
def LambdaClass.reading : (lambdaClass : LambdaClass) → Lambda → Except RunError lambdaClass.Operand
  | intToInt => Lambda.unary
  | intToBool => Lambda.predicate
  | intIntToInt => Lambda.binary

namespace Operation

/-- Checks arguments against slots, from a position on. -/
def checkFrom (op : Operation) : Nat → List Argument → List Slot → Except RunError Unit
  | position, arg :: args, slot :: slots =>
    if arg.slot = slot then op.checkFrom (position + 1) args slots
    else .error (.argumentType op position slot arg.slot)
  | _, _, _ => .ok ()

def check (op : Operation) (args : List Argument) : Except RunError Unit :=
  if args.length = op.arity then op.checkFrom 0 args op.slots
  else .error (.argumentCount op op.arity args.length)

/-- Something else stands where an operand is looked for, or nothing does. -/
def operandError (op : Operation) (position : Nat) (expected : Slot) : Option Argument → OperandError
  | some arg => .fault (.argumentType op position expected arg.slot)
  | none => .missing op position expected

/-- A lambda is looked for in the first place. -/
def lambdaAt (op : Operation) (args : List Argument) : Except OperandError Lambda :=
  match args.head? with
  | some (.lambda l) => .ok l
  | other => .error (op.operandError 0 (op.slots.head (List.ne_nil_of_length_pos op.arity_pos)) other)

/-- The function of the lambda, if the lambda is of the class that the operation needs. -/
def functionAt (op : Operation) (args : List Argument) (lambdaClass : LambdaClass) :
    Except OperandError lambdaClass.Operand := do
  let l ← op.lambdaAt args
  (lambdaClass.reading l).mapError .fault

def intAt (op : Operation) (args : List Argument) (position : Nat) : Except OperandError Int64 :=
  match args[position]? with
  | some (.value (.int n)) => .ok n
  | other => .error (op.operandError position (.value .int) other)

def listAt (op : Operation) (args : List Argument) (position : Nat) : Except OperandError (List Int64) :=
  match args[position]? with
  | some (.value (.list xs)) => .ok xs
  | other => .error (op.operandError position (.value .list) other)

/-- Takes the operands of an operation from their positions, whether or not the arguments have been checked. -/
def takeOperands : (op : Operation) → List Argument → Except OperandError (Operands op.slots)
  | head, args => return (← head.listAt args 0, ())
  | last, args => return (← last.listAt args 0, ())
  | take, args => return (← take.intAt args 0, ← take.listAt args 1, ())
  | drop, args => return (← drop.intAt args 0, ← drop.listAt args 1, ())
  | access, args => return (← access.intAt args 0, ← access.listAt args 1, ())
  | maximum, args => return (← maximum.listAt args 0, ())
  | minimum, args => return (← minimum.listAt args 0, ())
  | reverse, args => return (← reverse.listAt args 0, ())
  | sort, args => return (← sort.listAt args 0, ())
  | sum, args => return (← sum.listAt args 0, ())
  | map, args => return (← map.functionAt args .intToInt, ← map.listAt args 1, ())
  | filter, args => return (← filter.functionAt args .intToBool, ← filter.listAt args 1, ())
  | count, args => return (← count.functionAt args .intToBool, ← count.listAt args 1, ())
  | zipWith, args =>
    return (← zipWith.functionAt args .intIntToInt, ← zipWith.listAt args 1, ← zipWith.listAt args 2, ())
  | scanl1, args => return (← scanl1.functionAt args .intIntToInt, ← scanl1.listAt args 1, ())

/-- The result of an operation on arguments, not yet checked for bounds. -/
def run (c : Config) (op : Operation) (args : List Argument) : Except OperandError (Option Value) :=
  op.result c <$> op.takeOperands args

def applyInStages (c : Config) (op : Operation) (args : List Argument) : Except OperandError (Option Value) := do
  (op.check args).mapError .fault
  let result ← op.run c args
  return result.filter Value.isValid

variable {c : Config} {op : Operation} {args : List Argument}

/-! ## What the check finds -/

/-- The argument at a position is the first that does not fit its slot. -/
structure FirstMisfit (args : List Argument) (slots : List Slot) (i : Nat) (arg : Argument) (slot : Slot) : Prop where
  arg_eq : args[i]? = some arg
  slot_eq : slots[i]? = some slot
  ne : arg.slot ≠ slot
  fits_before : ∀ j a s, j < i → args[j]? = some a → slots[j]? = some s → a.slot = s

namespace FirstMisfit

variable {slots : List Slot} {i : Nat} {arg : Argument} {slot : Slot} {a : Argument} {s : Slot}

/-- Behind an argument that fits, the first misfit is the one of the rest. -/
theorem cons_iff (hfits : a.slot = s) :
    FirstMisfit (a :: args) (s :: slots) i arg slot ↔ ∃ k, i = k+1 ∧ FirstMisfit args slots k arg slot := by
  constructor
  · intro h
    cases i with
    | zero =>
      cases h.arg_eq
      cases h.slot_eq
      exact absurd hfits h.ne
    | succ k => exact ⟨k,rfl,h.arg_eq,h.slot_eq,h.ne,fun j b t hj => h.fits_before (j+1) b t (Nat.succ_lt_succ hj)⟩
  · rintro ⟨k,rfl,h⟩
    refine ⟨h.arg_eq,h.slot_eq,h.ne,?_⟩
    intro j b t hj hb ht
    cases j with
    | zero =>
      cases hb
      cases ht
      exact hfits
    | succ j => exact h.fits_before j b t (Nat.lt_of_succ_lt_succ hj) hb ht

/-- An argument that does not fit is the first misfit if it stands first. -/
theorem cons_iff_of_ne (hne : a.slot ≠ s) :
    FirstMisfit (a :: args) (s :: slots) i arg slot ↔ i = 0 ∧ arg = a ∧ slot = s := by
  constructor
  · intro h
    cases i with
    | zero =>
      cases h.arg_eq
      cases h.slot_eq
      exact ⟨rfl,rfl,rfl⟩
    | succ k => exact absurd (h.fits_before 0 a s (Nat.zero_lt_succ k) rfl rfl) hne
  · rintro ⟨rfl,rfl,rfl⟩
    exact ⟨rfl,rfl,hne,fun j b t hj => absurd hj (Nat.not_lt_zero j)⟩

/-- If any argument does not fit its slot, one is the first. -/
theorem exists_of_ne (harg : args[i]? = some arg) (hslot : slots[i]? = some slot) (hne : arg.slot ≠ slot) :
    ∃ k b t, FirstMisfit args slots k b t := by
  induction args generalizing slots i with
  | nil => contradiction
  | cons a args ih =>
    cases slots with
    | nil => contradiction
    | cons s slots =>
      by_cases hfits : a.slot = s
      · cases i with
        | zero =>
          cases harg
          cases hslot
          contradiction
        | succ i =>
          obtain ⟨k,b,t,hm⟩ := ih harg hslot
          exact ⟨k+1,b,t,(cons_iff hfits).mpr ⟨k,rfl,hm⟩⟩
      · exact ⟨0,a,s,(cons_iff_of_ne hfits).mpr ⟨rfl,rfl,rfl⟩⟩

/-- Arguments fit the slots made of them, up to the first that has another slot. -/
theorem of_append (before after : List Argument) (rest : List Slot) (hne : arg.slot ≠ slot) :
    FirstMisfit (before ++ arg :: after) (before.map Argument.slot ++ slot :: rest) before.length arg slot := by
  induction before with
  | nil => exact (cons_iff_of_ne hne).mpr ⟨rfl,rfl,rfl⟩
  | cons b before ih => exact (cons_iff rfl).mpr ⟨before.length,rfl,ih⟩

end FirstMisfit

/-- The check fails for the first argument that does not fit. -/
theorem checkFrom_eq_error_iff {position : Nat} {slots : List Slot} {e : RunError} :
    op.checkFrom position args slots = .error e ↔
      ∃ i arg slot, FirstMisfit args slots i arg slot ∧ e = .argumentType op (position+i) slot arg.slot := by
  -- The check moves on by one position with each argument that fits, as the first misfit of the rest does.
  induction args generalizing position slots with
  | nil =>
    constructor
    · intro h
      cases h
    · rintro ⟨i,arg,slot,hm,-⟩
      cases hm.arg_eq
  | cons a args ih =>
    cases slots with
    | nil =>
      constructor
      · intro h
        cases h
      · rintro ⟨i,arg,slot,hm,-⟩
        cases hm.slot_eq
    | cons s slots =>
      rw [checkFrom]
      split
      case isTrue hfits =>
        rw [ih]
        constructor
        · rintro ⟨k,arg,slot,hm,rfl⟩
          exact ⟨k+1,arg,slot,(FirstMisfit.cons_iff hfits).mpr ⟨k,rfl,hm⟩,by rw [Nat.add_right_comm,Nat.add_assoc]⟩
        · rintro ⟨i,arg,slot,hm,rfl⟩
          obtain ⟨k,rfl,hrest⟩ := (FirstMisfit.cons_iff hfits).mp hm
          exact ⟨k,arg,slot,hrest,by rw [Nat.add_right_comm,Nat.add_assoc]⟩
      case isFalse hne =>
        constructor
        · intro h
          cases h
          exact ⟨0,a,s,(FirstMisfit.cons_iff_of_ne hne).mpr ⟨rfl,rfl,rfl⟩,rfl⟩
        · rintro ⟨i,arg,slot,hm,rfl⟩
          obtain ⟨rfl,rfl,rfl⟩ := (FirstMisfit.cons_iff_of_ne hne).mp hm
          rfl

/-- Arguments can be matched with slots exactly if they pass the check, and otherwise with the same fault. -/
theorem checkFrom_eq {position : Nat} {slots : List Slot} (h : args.length = slots.length) :
    op.checkFrom position args slots = (fun _ => ()) <$> op.operandsFrom position slots args h := by
  induction slots generalizing position args with
  | nil =>
    obtain rfl := List.length_eq_zero_iff.mp h
    rfl
  | cons s slots ih =>
    cases args with
    | nil => contradiction
    | cons a args =>
      rw [checkFrom,operandsFrom]
      by_cases hfits : a.slot = s
      · obtain ⟨x,hx⟩ := Option.isSome_iff_exists.mp (Slot.isSome_operand?_iff.mpr hfits)
        rw [if_pos hfits,hx,ih (Nat.succ.inj h)]
        cases op.operandsFrom (position+1) slots args (Nat.succ.inj h) <;> rfl
      · have hx : s.operand? a = none := by
          rw [← Option.not_isSome_iff_eq_none,Slot.isSome_operand?_iff]
          exact hfits
        rw [if_neg hfits,hx]
        rfl

theorem check_eq (op : Operation) (args : List Argument) : op.check args = (fun _ => ()) <$> op.operands args := by
  unfold check operands
  split
  case isTrue hlen => exact checkFrom_eq hlen
  case isFalse => rfl

theorem check_eq_error_iff {e : RunError} : op.check args = .error e ↔
    args.length ≠ op.arity ∧ e = .argumentCount op op.arity args.length ∨
      args.length = op.arity ∧ ∃ i arg slot, FirstMisfit args op.slots i arg slot ∧
        e = .argumentType op i slot (Argument.slot arg) := by
  rw [check]
  by_cases hlen : args.length = op.arity
  · simp [hlen,checkFrom_eq_error_iff]
  · simp [hlen,eq_comm]

theorem apply_eq_fault_iff {e : RunError} : op.apply c args = .fault e ↔ op.check args = .error e := by
  rw [apply,check_eq]
  cases op.operands args with
  | error e' =>
    constructor
    · intro h
      cases h
      rfl
    · intro h
      cases h
      rfl
  | ok xs =>
    constructor
    · intro h
      exact absurd h (validResult_ne_fault xs e)
    · intro h
      cases h

/-- Arguments that fit all slots never make an application fail. -/
theorem apply_ne_fault (hfit : args.map Argument.slot = op.slots) (e : RunError) : op.apply c args ≠ .fault e := by
  intro h
  rcases check_eq_error_iff.mp (apply_eq_fault_iff.mp h) with ⟨hlen,-⟩ | ⟨-,i,arg,slot,hm,-⟩
  · exact hlen (by rw [arity,← hfit,List.length_map])
  · have hslot := hm.slot_eq
    rw [← hfit,List.getElem?_map,hm.arg_eq] at hslot
    exact hm.ne (Option.some.inj hslot)

/-- The first argument that does not fit decides the fault. -/
theorem apply_of_misfit {before after : List Argument} {arg : Argument} {slot : Slot} {rest : List Slot}
    (hlen : (before ++ arg :: after).length = op.arity)
    (hslots : op.slots = before.map Argument.slot ++ slot :: rest) (hne : arg.slot ≠ slot) :
    op.apply c (before ++ arg :: after) = .fault (.argumentType op before.length slot arg.slot) := by
  have hm := FirstMisfit.of_append before after rest hne
  rw [← hslots] at hm
  exact apply_eq_fault_iff.mpr (check_eq_error_iff.mpr (.inr ⟨hlen,before.length,arg,slot,hm,rfl⟩))

/-! ## Operands after the check -/

variable {arg : Argument} {position : Nat}

theorem intAt_eq {n : Int64} (harg : args[position]? = some arg) (hn : (Slot.value .int).operand? arg = some n) :
    op.intAt args position = .ok n := by
  rw [Slot.eq_of_operand?_int hn] at harg
  rw [intAt,harg]

theorem listAt_eq {xs : List Int64} (harg : args[position]? = some arg)
    (hxs : (Slot.value .list).operand? arg = some xs) : op.listAt args position = .ok xs := by
  rw [Slot.eq_of_operand?_list hxs] at harg
  rw [listAt,harg]

theorem functionAt_eq {lambdaClass : LambdaClass} {f : lambdaClass.Operand} (harg : args.head? = some arg)
    (hf : (Slot.lambda lambdaClass).operand? arg = some f) : op.functionAt args lambdaClass = .ok f := by
  cases arg with
  | value v => cases lambdaClass <;> contradiction
  | lambda l =>
    have hreading : lambdaClass.reading l = .ok f := by
      cases lambdaClass with
      | intToInt =>
        have h : l.unary? = some f := hf
        simp [LambdaClass.reading,Lambda.unary,h]
      | intToBool =>
        have h : l.predicate? = some f := hf
        simp [LambdaClass.reading,Lambda.predicate,h]
      | intIntToInt =>
        have h : l.binary? = some f := hf
        simp [LambdaClass.reading,Lambda.binary,h]
    rw [functionAt,lambdaAt,harg]
    exact congrArg (Except.mapError OperandError.fault) hreading

/-- Arguments that have been matched with the slots give the same operands by their positions. -/
theorem takeOperands_eq {xs : Operands op.slots} (h : op.operands args = .ok xs) : op.takeOperands args = .ok xs := by
  unfold operands at h
  split at h
  case isFalse => contradiction
  case isTrue hlen =>
    -- Operations that ask for the same slots take their operands in the same way.
    cases op with
    | head | last | maximum | minimum | reverse | sort | sum =>
      obtain ⟨a,rest,-,rfl,hx,-⟩ := operandsFrom_cons_eq_ok h
      rw [takeOperands,listAt_eq rfl hx]
      rfl
    | take | drop | access =>
      obtain ⟨a,rest,hrest,rfl,hn,h⟩ := operandsFrom_cons_eq_ok h
      obtain ⟨b,rest,-,rfl,hx,-⟩ := operandsFrom_cons_eq_ok h
      rw [takeOperands,intAt_eq rfl hn,listAt_eq rfl hx]
      rfl
    | map | filter | count | scanl1 =>
      obtain ⟨a,rest,hrest,rfl,hf,h⟩ := operandsFrom_cons_eq_ok h
      obtain ⟨b,rest,-,rfl,hx,-⟩ := operandsFrom_cons_eq_ok h
      rw [takeOperands,functionAt_eq rfl hf,listAt_eq rfl hx]
      rfl
    | zipWith =>
      obtain ⟨a,rest,hrest,rfl,hf,h⟩ := operandsFrom_cons_eq_ok h
      obtain ⟨b,rest,hrest,rfl,hx,h⟩ := operandsFrom_cons_eq_ok h
      obtain ⟨d,rest,-,rfl,hy,-⟩ := operandsFrom_cons_eq_ok h
      rw [takeOperands,functionAt_eq rfl hf,listAt_eq rfl hx,listAt_eq rfl hy]
      rfl

/-- After the check, the operands can be taken from their positions. -/
theorem exists_takeOperands_of_check (h : op.check args = .ok ()) : ∃ xs, op.takeOperands args = .ok xs := by
  rw [check_eq,map_eq_ok_iff] at h
  obtain ⟨xs,hxs,-⟩ := h
  exact ⟨xs,takeOperands_eq hxs⟩

theorem applyInStages_eq (c : Config) (op : Operation) (args : List Argument) :
    op.applyInStages c args = (op.apply c args).toExcept.mapError .fault := by
  rw [applyInStages,apply,check_eq]
  cases hxs : op.operands args with
  | error e => rfl
  | ok xs =>
    rw [run,takeOperands_eq hxs]
    change Except.ok ((op.result c xs).filter Value.isValid) = (op.validResult c xs).toExcept.mapError OperandError.fault
    rw [validResult]
    cases (op.result c xs).filter Value.isValid <;> rfl

/-- What can come of applying an operation. It leads to a fault exactly if the number of arguments is not that of the slots,
or the number is right and an argument does not fit its slot. The fault is about the number in the first case, and about the
first argument that does not fit in the second. Once the check has been passed, all operands can be taken from their
positions, none being missing, of another kind or of another class, and the application in its stages comes to the same. A
result is within the bound and of the kind that the operation announces. -/
theorem apply_outcomes (c : Config) (op : Operation) (args : List Argument) :
    ((∃ e, op.apply c args = .fault e) ↔ args.length ≠ op.arity ∨ args.length = op.arity ∧
      ∃ (i : Nat) (arg : Argument) (slot : Slot), args[i]? = some arg ∧ op.slots[i]? = some slot ∧ arg.slot ≠ slot) ∧
    (∀ e, op.apply c args = .fault e ↔ args.length ≠ op.arity ∧ e = .argumentCount op op.arity args.length ∨
      args.length = op.arity ∧ ∃ i arg slot, FirstMisfit args op.slots i arg slot ∧
        e = .argumentType op i slot (Argument.slot arg)) ∧
    (op.check args = .ok () → ∃ result, op.run c args = .ok result) ∧
    op.applyInStages c args = (op.apply c args).toExcept.mapError .fault ∧
    ∀ v, op.apply c args = .done v → v.isValid = true ∧ v.kind = op.output := by
  refine ⟨?_,fun e => apply_eq_fault_iff.trans check_eq_error_iff,?_,applyInStages_eq c op args,fun v => apply_done⟩
  · simp only [apply_eq_fault_iff,check_eq_error_iff]
    constructor
    · rintro ⟨e,⟨hlen,-⟩ | ⟨hlen,i,arg,slot,hm,-⟩⟩
      · exact .inl hlen
      · exact .inr ⟨hlen,i,arg,slot,hm.arg_eq,hm.slot_eq,hm.ne⟩
    · rintro (hlen | ⟨hlen,i,arg,slot,harg,hslot,hne⟩)
      · exact ⟨_,.inl ⟨hlen,rfl⟩⟩
      · obtain ⟨k,b,t,hm⟩ := FirstMisfit.exists_of_ne harg hslot hne
        exact ⟨_,.inr ⟨hlen,k,b,t,hm,rfl⟩⟩
  · intro h
    obtain ⟨xs,hxs⟩ := exists_takeOperands_of_check h
    exact ⟨op.result c xs,by rw [run,hxs]; rfl⟩

/-- Mapping takes the square of an integer, with nothing left to fail after the check. Given a predicate in its place and an
integer for the list, it complains about the predicate, which stands first. -/
theorem apply_outcomes_of_map :
    check .map [.lambda .square,.value (.list [3])] = .ok () ∧
      (∃ result, run {} .map [.lambda .square,.value (.list [3])] = .ok result) ∧
      apply {} .map [.lambda .isOdd,.value (.int 3)] =
        .fault (.argumentType .map 0 (.lambda .intToInt) (.lambda .intToBool)) := by
  obtain ⟨-,-,hrun,-⟩ := apply_outcomes {} .map [.lambda .square,.value (.list [3])]
  obtain ⟨-,hfault,-⟩ := apply_outcomes {} .map [.lambda .isOdd,.value (.int 3)]
  have hfirst : FirstMisfit [.lambda .isOdd,.value (.int 3)] map.slots 0 (.lambda .isOdd) (.lambda .intToInt) :=
    ⟨rfl,rfl,by decide,fun j _ _ hj => absurd hj (Nat.not_lt_zero j)⟩
  exact ⟨rfl,hrun rfl,(hfault _).mpr (.inr ⟨rfl,0,_,_,hfirst,rfl⟩)⟩

end Operation
end ListScript
