import ListScript.Proofs.Checking
import ListScript.Proofs.JsonValues
import ListScript.Proofs.Sessions

/-!
# Renderings of a result

A run prints the state that it ends in as text or as JSON. Either way the whole state is printed: the text is read back as
that state, and the JSON as the list of its values. These can be the inputs of a program that does nothing but declare as
many inputs, which prints the same JSON again.
-/
namespace ListScript

/-! ## Programs that only declare inputs -/

namespace Program

def ofInputs (n : Nat) : Program := ⟨n,[]⟩

theorem run_ofInputs (c : Config) {values : List Value} (hvalid : ∀ v ∈ values, v.isValid = true) :
    (ofInputs values.length).run c values = .done ⟨values⟩ := by
  rw [run_of_valid rfl hvalid]
  rfl

theorem ofText_ofInputs {n : Nat} (hpos : 1 ≤ n) (hn : n ≤ UInt64.size) :
    ofText (ofInputs n).text = .ok (ofInputs n) := by
  rw [ofText_text]
  exact ofTokens_eq_ok_iff.mpr ⟨hn,hpos,rfl⟩

theorem tokens_ofInputs_succ (n : Nat) : ∃ ts, (ofInputs (n+1)).tokens = Variable.token 0 :: ts := by
  have hlines : (ofInputs (n+1)).lines = inputLine 0 :: (List.range n).map fun i => inputLine (i+1) := by
    simp [ofInputs,lines,List.range_succ_eq_map,Function.comp_def]
  rw [tokens,hlines]
  cases (List.range n).map fun i => inputLine (i+1) with
  | nil => exact ⟨_,by rw [Token.joinGroups,List.intercalate_singleton,inputLine]⟩
  | cons line lines => exact ⟨_,by rw [Token.joinGroups_cons_cons,inputLine]; rfl⟩

end Program

/-- The text of tokens begins with the first of them. -/
theorem Token.toList_unwords_cons (t : String) (ts : List String) :
    ∃ cs, (unwords (t :: ts)).toList = t.toList ++ cs := by
  rw [unwords,String.toList_intercalate]
  cases ts with
  | nil => exact ⟨[],by simp⟩
  | cons u ts => exact ⟨_,by rw [List.map_cons,List.map_cons,List.intercalate_cons_cons,List.append_assoc]⟩

/-! ## Arguments of a call -/

namespace Command

/-- A text that begins with another character than a hyphen is not an option. -/
theorem isOption_of_toList {arg : String} {c : Char} {cs : List Char} (h : arg.toList = c :: cs) (hc : c ≠ '-') :
    isOption arg = false := by
  rw [isOption,h]
  split
  · rename_i heq
    exact absurd (List.cons.inj heq).1 hc
  · rfl

namespace Args

variable {known : List OptionName} {arg value : String} {rest : List String}

theorem sort_positional (h : isOption arg = false) :
    sort known (arg :: rest) = (sort known rest).map (addPositional arg) := by
  have hne : arg ≠ "--" := by
    rintro rfl
    exact absurd h (by decide)
  rw [sort,if_neg hne,if_neg (by simp [h])]

/-- An option that takes a value takes the next argument, unless that is an option. -/
theorem sort_option (o : OptionName) (harg : arg ≠ "--" ∧ isOption arg = true)
    (ho : optionOf? known arg = some (o,none)) (hvalue : o.hasValue = true) (h : isOption value = false) :
    sort known (arg :: value :: rest) = (sort known rest).map (addOption o.long value) := by
  rw [sort,if_neg harg.1,if_pos harg.2,ho]
  simp [hvalue,h]

end Args

theorem isOption_ofNat (n : Nat) : isOption (Decimal.ofNat n) = false := by
  obtain ⟨d,ds,hds,hd⟩ := Decimal.exists_digits_eq_cons n
  refine isOption_of_toList ((Decimal.toList_ofNat n).trans hds) ?_
  rintro rfl
  exact absurd hd (by decide)

/-- A modulus is read back from its digits. -/
theorem modulo?_ofNat (m : UInt32) : modulo? (Decimal.ofNat m.toNat) = some m := by
  obtain ⟨d,ds,hds,hd⟩ := Decimal.exists_digits_eq_cons m.toNat
  have hsigned : Decimal.signed? (Decimal.digits m.toNat) = Decimal.toInt? (Decimal.digits m.toNat) := by
    rw [hds,Decimal.signed?]
    intro cs hcs
    obtain rfl := (List.cons.inj hcs).1
    exact absurd hd (by decide)
  have hdigits : Decimal.digits m.toNat = (Decimal.ofInt m.toNat).toList := by
    rw [Decimal.toList_ofInt,if_neg (by omega)]
    rfl
  rw [modulo?,Decimal.toList_ofNat,hsigned,hdigits,Decimal.toInt?_ofInt,Option.bind_eq_bind,
    Option.bind_some,exactUInt32?_toNat]

/-- The command to run a program on inputs under a modulus, and to print JSON. -/
theorem ofArgs?_run {program inputs : String} (hprogram : isOption program = false)
    (hinputs : isOption inputs = false) (m : UInt32) :
    ofArgs? ["run",program,"--inputs",inputs,"--modulo",Decimal.ofNat m.toNat,"--json"] =
      some (.run program inputs (some m) none true) := by
  have hsort : Args.sort runOptions [program,"--inputs",inputs,"--modulo",Decimal.ofNat m.toNat,"--json"] =
      some ⟨[("inputs",inputs),("modulo",Decimal.ofNat m.toNat),("json","")],[program]⟩ := by
    rw [Args.sort_positional hprogram,
      Args.sort_option { long := "inputs", letter := some 'i' } (by decide) (by decide) rfl hinputs,
      Args.sort_option { long := "modulo", letter := some 'm' } (by decide) (by decide) rfl (isOption_ofNat m.toNat)]
    have hflag : Args.sort runOptions ["--json"] = some ⟨[("json","")],[]⟩ := by decide
    rw [hflag]
    rfl
  have hargs : Args.ofList? runOptions [program,"--inputs",inputs,"--modulo",Decimal.ofNat m.toNat,"--json"] =
      some ⟨[("inputs",inputs),("modulo",Decimal.ofNat m.toNat),("json","")],[program]⟩ := by
    rw [Args.ofList?,hsort,Option.filter_some,if_pos]
    simp
  rw [ofArgs?,hargs]
  simp [Args.read?,Args.value?,List.lookup_cons,modulo?_ofNat]

/-! ## What a run prints -/

/-- What is printed for the state that a run ends in. -/
def printed (json : Bool) (st : State) : String := render json (some st) ++ "\n"

variable {env : Surroundings} {c : Config} {p : Program} {inputs : List Value} {st : State}

/-- A run whose parts can be read prints the state that it ends in. -/
theorem output_run_of_done {program text : String} {modulo : Option UInt32} {path : Option String}
    (hp : program? env program = some p) (hinputs : Value.listOfJson? text = some inputs)
    (hc : config env path modulo = .ok c) (h : p.run c inputs = .done st) (json : Bool) :
    (run program text modulo path json).output env = some (printed json st) := by
  rw [output_run,hp,hinputs,hc]
  change ((p.run c inputs).toExcept.toOption >>= fun result => some (render json result ++ "\n")) = _
  rw [h]
  rfl

theorem listOfJson?_printed (st : State) : Value.listOfJson? (printed true st) = some st.values :=
  Value.listOfJson?_compact_append st.values "\n" (by decide)

theorem toList_printed (st : State) : ∃ cs, (printed true st).toList = '[' :: cs := by
  change ∃ cs, ((Json.array (st.values.map Value.toJson)).compact ++ "\n").toList = '[' :: cs
  rw [String.toList_append,Value.OfJson.toList_compact_array]
  exact ⟨_,rfl⟩

theorem ofText_printed (hlen : st.length ≤ UInt64.size) (hst : st.isValid = true) :
    State.ofText (printed false st) = .ok st := by
  change State.ofTokens (Token.split (st.text ++ "\n")) = .ok st
  rw [Token.split_append_newline]
  exact (State.ofText_text st).trans (State.ofTokens_tokens hlen hst)

/-- The text of a program that only declares inputs is not an option. -/
theorem toList_text_ofInputs {n : Nat} (hpos : 1 ≤ n) : ∃ cs, (Program.ofInputs n).text.toList = 'x' :: cs := by
  obtain ⟨m,rfl⟩ := Nat.exists_eq_add_of_le' hpos
  obtain ⟨ts,hts⟩ := Program.tokens_ofInputs_succ m
  obtain ⟨cs,hcs⟩ := Token.toList_unwords_cons (Variable.token 0) ts
  rw [Program.text,hts,hcs,Variable.toList_token]
  exact ⟨_,rfl⟩

theorem program?_ofInputs {n : Nat} (hpos : 1 ≤ n) (hn : n ≤ UInt64.size) :
    program? env (Program.ofInputs n).text = some (Program.ofInputs n) := by
  have hread := Program.ofText_ofInputs hpos hn
  rw [program?,source_of_ne (ne_hyphen_of_ofText hread)]
  change (Program.ofText (Program.ofInputs n).text).toOption = _
  rw [hread]
  rfl

/-- The values of a state, fed to a program that declares as many inputs, are printed as they are. -/
theorem output_run_ofInputs {modulo : Option UInt32} {path : Option String} (hne : st.values ≠ [])
    (hlen : st.length ≤ UInt64.size) (hst : st.isValid = true) (hc : config env path modulo = .ok c) :
    (run (Program.ofInputs st.length).text (printed true st) modulo path true).output env =
      some (printed true st) := by
  have hp : program? env (Program.ofInputs st.length).text = some (Program.ofInputs st.length) :=
    program?_ofInputs (List.length_pos_iff.mpr hne) hlen
  have hrun : (Program.ofInputs st.length).run c st.values = .done st :=
    Program.run_ofInputs c (State.isValid_iff.mp hst)
  exact output_run_of_done hp (listOfJson?_printed st) hc hrun true

/-- Both renderings of a result carry the whole state. What a run prints as text is read as the state that it ended in,
and what it prints as JSON as the list of its values. If the state is not empty, feeding that JSON to a program that only
declares as many inputs prints it again, under every modulus, be it given in the call or by a configuration. -/
theorem renderings_carry_state (hp : p.numInputs ≤ UInt64.size) (h : p.run c inputs = .done st) :
    (∀ env program text modulo path json, program? env program = some p → Value.listOfJson? text = some inputs →
      config env path modulo = .ok c →
      (run program text modulo path json).output env = some (printed json st)) ∧
    State.ofText (printed false st) = .ok st ∧
    Value.listOfJson? (printed true st) = some st.values ∧
    (st.values ≠ [] → ∀ env,
      (∀ m : UInt32, Exit.ofArgs env ["run",(Program.ofInputs st.length).text,"--inputs",printed true st,"--modulo",
        Decimal.ofNat m.toNat,"--json"] = ⟨0,printed true st⟩) ∧
      ∀ modulo path c', config env path modulo = .ok c' →
        (run (Program.ofInputs st.length).text (printed true st) modulo path true).output env =
          some (printed true st)) := by
  obtain ⟨hst,hlen⟩ := State.isSound_of_run hp h
  refine ⟨?_,ofText_printed hlen hst,listOfJson?_printed st,?_⟩
  · intro env program text modulo path json hprogram hinputs hc
    exact output_run_of_done hprogram hinputs hc h json
  · intro hne env
    refine ⟨?_,fun modulo path c' hc => output_run_ofInputs hne hlen hst hc⟩
    intro m
    obtain ⟨cs,hcs⟩ := toList_text_ofInputs (n := st.length) (List.length_pos_iff.mpr hne)
    obtain ⟨ds,hds⟩ := toList_printed st
    have hargs := ofArgs?_run (isOption_of_toList hcs (by decide)) (isOption_of_toList hds (by decide)) m
    have houtput : (run (Program.ofInputs st.length).text (printed true st) (some m) none true).output env =
        some (printed true st) := output_run_ofInputs hne hlen hst rfl
    rw [Exit.ofArgs,hargs]
    dsimp only
    rw [houtput]

/-- A list, its double and the sum of that, printed as JSON and fed back in under another modulus. -/
theorem renderings_carry_state_doubled :
    let p : Program := ⟨1,[⟨1,.map,some .timesTwo,[0],rfl,rfl⟩,⟨2,.sum,none,[1],rfl,rfl⟩]⟩
    let st := State.mk [.list [6,-7],.list [12,-14],.int (-2)]
    p.numInputs ≤ UInt64.size ∧ p.run {} [.list [6,-7]] = .done st ∧
      State.ofText (printed false st) = .ok st ∧ Value.listOfJson? (printed true st) = some st.values ∧
      printed true st = "[[6,-7],[12,-14],-2]\n" ∧
      Exit.ofArgs ⟨.empty,fun _ => none⟩ ["run","x0 = INPUT | x1 = INPUT | x2 = INPUT","--inputs",
        "[[6,-7],[12,-14],-2]\n","--modulo","10","--json"] = ⟨0,"[[6,-7],[12,-14],-2]\n"⟩ := by
  intro p st
  have hrun : p.run {} [.list [6,-7]] = .done st := by decide
  have hjson : printed true st = "[[6,-7],[12,-14],-2]\n" := by decide
  have htext : (Program.ofInputs st.length).text = "x0 = INPUT | x1 = INPUT | x2 = INPUT" := by decide
  obtain ⟨-,hstate,hvalues,hfed⟩ := renderings_carry_state (p := p) (by decide) hrun
  have hexit := (hfed (by decide) ⟨.empty,fun _ => none⟩).1 10
  rw [htext,hjson] at hexit
  exact ⟨by decide,hrun,hstate,hvalues,hjson,hexit⟩

end Command
end ListScript
