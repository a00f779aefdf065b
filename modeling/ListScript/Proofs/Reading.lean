/-!
# Reading item by item

A list is read by reading its items in order. Reading succeeds exactly if each item can be read, and otherwise the
first item that cannot be read decides the error.
-/
namespace ListScript.Reading

variable {ε α β : Type}

theorem exists_eq_error_iff {x : Except ε α} : (∃ e, x = .error e) ↔ ¬ ∃ a, x = .ok a := by
  cases x <;> simp

/-- Two steps succeed exactly if the first does and the second does with its result. -/
theorem bind_eq_ok_iff {x : Except ε α} {f : α → Except ε β} {b : β} :
    (x >>= f) = .ok b ↔ ∃ a, x = .ok a ∧ f a = .ok b := by
  cases x with
  | error e => simp [bind,Except.bind]
  | ok a => simp [bind,Except.bind]

/-- Two steps fail with an error of the first, or else with one of the second. -/
theorem bind_eq_error_iff {x : Except ε α} {f : α → Except ε β} {e : ε} :
    (x >>= f) = .error e ↔ x = .error e ∨ ∃ a, x = .ok a ∧ f a = .error e := by
  cases x with
  | error e => simp [bind,Except.bind]
  | ok a => simp [bind,Except.bind]

theorem map_eq_ok_iff {x : Except ε α} {f : α → β} {b : β} : (f <$> x) = .ok b ↔ ∃ a, x = .ok a ∧ f a = b := by
  cases x with
  | error e => simp [Functor.map,Except.map]
  | ok a => simp [Functor.map,Except.map]

theorem map_eq_error_iff {x : Except ε α} {f : α → β} {e : ε} : (f <$> x) = .error e ↔ x = .error e := by
  cases x with
  | error e => simp [Functor.map,Except.map]
  | ok a => simp [Functor.map,Except.map]

theorem mapM_eq_ok_iff {read : α → Except ε β} {as : List α} {bs : List β} :
    as.mapM read = .ok bs ↔ as.map read = bs.map .ok := by
  induction as generalizing bs with
  | nil => cases bs <;> simp [pure,Except.pure]
  | cons a as ih =>
    rw [List.mapM_cons,bind_eq_ok_iff]
    constructor
    · rintro ⟨b,hb,h⟩
      obtain ⟨rest,hr,h⟩ := bind_eq_ok_iff.mp h
      cases h
      rw [List.map_cons,List.map_cons,hb,ih.mp hr]
    · intro h
      cases bs with
      | nil => simp at h
      | cons b bs =>
        obtain ⟨hb,hbs⟩ := List.cons.inj h
        refine ⟨b,hb,bind_eq_ok_iff.mpr ⟨bs,ih.mpr hbs,rfl⟩⟩

/-- When each item is read from exactly one text, a list is read from exactly the list of these texts. -/
theorem mapM_eq_ok_iff_eq_map {read : α → Except ε β} {write : β → α}
    (h : ∀ a b, read a = .ok b ↔ a = write b) {as : List α} {bs : List β} :
    as.mapM read = .ok bs ↔ as = bs.map write := by
  rw [mapM_eq_ok_iff]
  induction as generalizing bs with
  | nil => cases bs <;> simp
  | cons a as ih =>
    cases bs with
    | nil => simp
    | cons b bs => simp [h,ih]

/-- When reading and writing an item are inverse to each other, so are reading and writing a list. -/
theorem mapM_eq_ok_comm {read : α → Except ε β} {write : β → Except ε α}
    (h : ∀ a b, read a = .ok b ↔ write b = .ok a) {as : List α} {bs : List β} :
    as.mapM read = .ok bs ↔ bs.mapM write = .ok as := by
  rw [mapM_eq_ok_iff,mapM_eq_ok_iff]
  induction as generalizing bs with
  | nil => cases bs <;> simp
  | cons a as ih =>
    cases bs with
    | nil => simp
    | cons b bs => simp [h,ih]

/-- A list can be read exactly if each of its items can. -/
theorem exists_mapM_eq_ok_iff {read : α → Except ε β} {as : List α} :
    (∃ bs, as.mapM read = .ok bs) ↔ ∀ a ∈ as, ∃ b, read a = .ok b := by
  simp only [mapM_eq_ok_iff]
  induction as with
  | nil => exact iff_of_true ⟨[],rfl⟩ (by simp)
  | cons a as ih =>
    rw [List.forall_mem_cons,← ih]
    constructor
    · rintro ⟨bs,h⟩
      cases bs with
      | nil => simp at h
      | cons b bs =>
        obtain ⟨hb,hbs⟩ := List.cons.inj h
        exact ⟨⟨b,hb⟩,bs,hbs⟩
    · rintro ⟨⟨b,hb⟩,bs,hbs⟩
      exact ⟨b :: bs,by rw [List.map_cons,List.map_cons,hb,hbs]⟩

/-- The first item that cannot be read decides the error. -/
theorem mapM_eq_error_iff {read : α → Except ε β} {as : List α} {e : ε} :
    as.mapM read = .error e ↔ ∃ before a after bs, as = before ++ a :: after ∧
      before.mapM read = .ok bs ∧ read a = .error e := by
  induction as with
  | nil => simp [pure,Except.pure]
  | cons a as ih =>
    rw [List.mapM_cons,bind_eq_error_iff]
    constructor
    · rintro (h | ⟨b,hb,h⟩)
      · exact ⟨[],a,as,[],rfl,rfl,h⟩
      · rcases bind_eq_error_iff.mp h with h | ⟨bs,_,h⟩
        · obtain ⟨before,a',after,bs,rfl,hbefore,ha'⟩ := ih.mp h
          refine ⟨a :: before,a',after,b :: bs,rfl,?_,ha'⟩
          rw [mapM_eq_ok_iff] at hbefore ⊢
          rw [List.map_cons,List.map_cons,hb,hbefore]
        · contradiction
    · rintro ⟨before,a',after,bs,h,hbefore,ha'⟩
      cases before with
      | nil =>
        obtain ⟨rfl,-⟩ := List.cons.inj h
        exact Or.inl ha'
      | cons b before =>
        obtain ⟨rfl,rfl⟩ := List.cons.inj h
        rw [List.mapM_cons,bind_eq_ok_iff] at hbefore
        obtain ⟨y,hy,hrest⟩ := hbefore
        obtain ⟨ys,hys,-⟩ := bind_eq_ok_iff.mp hrest
        exact Or.inr ⟨y,hy,bind_eq_error_iff.mpr (Or.inl (ih.mpr ⟨before,a',after,ys,rfl,hys,ha'⟩))⟩

/-! ## Items judged by those before them -/

section Faults

/-- What stands at a place of a list is faulty, in view of the items before it. -/
def FaultAt (fault : List α → α → ε → Prop) (as : List α) (i : Nat) (e : ε) : Prop :=
  ∃ a, as[i]? = some a ∧ fault (as.take i) a e

/-- An error is that of the first faulty item of a list. -/
def IsFirstFault (fault : List α → α → ε → Prop) (as : List α) (e : ε) : Prop :=
  ∃ i, FaultAt fault as i e ∧ ∀ j < i, ∀ e', ¬ FaultAt fault as j e'

variable {fault : List α → α → ε → Prop} {a : α} {as : List α} {e : ε}

theorem faultAt_zero : FaultAt fault (a :: as) 0 e ↔ fault [] a e := by simp [FaultAt]

theorem faultAt_succ {i : Nat} :
    FaultAt fault (a :: as) (i+1) e ↔ FaultAt (fun before => fault (a :: before)) as i e := by
  simp [FaultAt]

theorem not_isFirstFault_nil : ¬ IsFirstFault fault ([] : List α) e := by
  intro ⟨i,⟨a,ha,_⟩,_⟩
  simp at ha

/-- The first fault is that of the head or, if this has none, the first one of the tail. -/
theorem isFirstFault_cons : IsFirstFault fault (a :: as) e ↔
    fault [] a e ∨ (∀ e', ¬ fault [] a e') ∧ IsFirstFault (fun before => fault (a :: before)) as e := by
  constructor
  · intro ⟨i,hi,hfirst⟩
    cases i with
    | zero => exact .inl (faultAt_zero.mp hi)
    | succ i =>
      refine .inr ⟨fun e' he => hfirst 0 (by omega) e' (faultAt_zero.mpr he),i,faultAt_succ.mp hi,?_⟩
      intro j hj e' he
      exact hfirst (j+1) (by omega) e' (faultAt_succ.mpr he)
  · intro h
    rcases h with h | ⟨hhead,i,hi,hfirst⟩
    · exact ⟨0,faultAt_zero.mpr h,fun j hj => absurd hj (Nat.not_lt_zero j)⟩
    · refine ⟨i+1,faultAt_succ.mpr hi,?_⟩
      intro j hj e' he
      cases j with
      | zero => exact hhead e' (faultAt_zero.mp he)
      | succ j => exact hfirst j (by omega) e' (faultAt_succ.mp he)

/-- When each step fails for the fault of its item, in view of the items before it, going through a list fails with the
first fault. -/
theorem foldlM_eq_error_iff {step : β → α → Except ε β} {b : β}
    (h : ∀ before b', before.foldlM step b = .ok b' → ∀ a e, step b' a = .error e ↔ fault before a e) :
    as.foldlM step b = .error e ↔ IsFirstFault fault as e := by
  -- For any start, with the faults as they are seen behind the items that led there.
  induction as generalizing b fault with
  | nil => exact iff_of_false (by simp [pure,Except.pure]) not_isFirstFault_nil
  | cons a as ih =>
    have hhead : ∀ e, step b a = .error e ↔ fault [] a e := fun e => h [] b rfl a e
    have htail : ∀ b', step b a = .ok b' →
        (as.foldlM step b' = .error e ↔ IsFirstFault (fun before => fault (a :: before)) as e) := by
      intro b' hb'
      apply ih
      intro before c hc
      exact h (a :: before) c (bind_eq_ok_iff.mpr ⟨b',hb',hc⟩)
    rw [List.foldlM_cons,bind_eq_error_iff,isFirstFault_cons,hhead]
    apply or_congr_right
    constructor
    · intro ⟨b',hb',hrest⟩
      refine ⟨?_,(htail b' hb').mp hrest⟩
      intro e' he
      rw [← hhead,hb'] at he
      contradiction
    · intro ⟨hnone,hrest⟩
      cases hb' : step b a with
      | error e' => exact absurd ((hhead e').mp hb') (hnone e')
      | ok b' => exact ⟨b',rfl,(htail b' hb').mpr hrest⟩

end Faults

/-! ## First places -/

/-- Two lists of one length are equal or differ first at some place. -/
theorem exists_first_ne {xs ys : List α} (hlen : xs.length = ys.length) (hne : xs ≠ ys) :
    ∃ before x xs' y ys', xs = before ++ x :: xs' ∧ ys = before ++ y :: ys' ∧ x ≠ y := by
  induction xs generalizing ys with
  | nil => exact absurd (List.length_eq_zero_iff.mp hlen.symm).symm hne
  | cons x xs ih =>
    cases ys with
    | nil => simp at hlen
    | cons y ys =>
      by_cases hxy : x = y
      · subst y
        obtain ⟨before,x',xs',y',ys',hx,hy,hn⟩ := ih (Nat.succ.inj hlen) fun h => hne (h ▸ rfl)
        exact ⟨x :: before,x',xs',y',ys',by rw [hx]; rfl,by rw [hy]; rfl,hn⟩
      · exact ⟨[],x,xs,y,ys,rfl,rfl,hxy⟩

/-- A test holds of all items, or there is a first one of which it does not. -/
theorem exists_first_not {p : α → Prop} {as : List α} (h : ¬ ∀ a ∈ as, p a) :
    ∃ before a after, as = before ++ a :: after ∧ (∀ b ∈ before, p b) ∧ ¬ p a := by
  induction as with
  | nil => simp at h
  | cons a as ih =>
    by_cases ha : p a
    · obtain ⟨before,x,after,rfl,hbefore,hx⟩ := ih fun hall => h (by simpa [ha] using hall)
      exact ⟨a :: before,x,after,rfl,by simpa [ha] using hbefore,hx⟩
    · exact ⟨[],a,as,rfl,by simp,ha⟩

end ListScript.Reading
