import ListScript.Command
import ListScript.Proofs.Canonical

/-!
# Checking a program

A program that is checked is printed with its own tokens, one space between each two. The printed text reads as the same
program, so it takes the place of the original in every call.
-/
namespace ListScript

theorem fromUTF8?_toUTF8 (text : String) : String.fromUTF8? text.toUTF8 = some text := by
  unfold String.fromUTF8?
  rw [String.toUTF8_eq_toByteArray,dif_pos text.isValidUTF8]
  rfl

namespace Program

variable {text : String} {p : Program}

theorem ofText_append_newline (text : String) : ofText (text ++ "\n") = ofText text := by
  rw [ofText,Token.split_append_newline,ofText]

/-- A program is written with the tokens that it is read from, one space between each two. -/
theorem text_of_ofText (h : ofText text = .ok p) : p.text = Token.unwords (Token.split text) := by
  obtain ⟨-,-,htokens⟩ := ofTokens_eq_ok_iff.mp h
  rw [Program.text,htokens]

/-- What is written for a program that could be read is read as that program again. -/
theorem ofText_text_of_ofText (h : ofText text = .ok p) : ofText p.text = .ok p := by
  obtain ⟨-,-,htokens⟩ := ofTokens_eq_ok_iff.mp h
  rw [ofText_text,← htokens]
  exact h

end Program

namespace Command

variable {env : Surroundings} {text other : String} {file : String → Option ByteArray}

theorem source_input (text : String) (file : String → Option ByteArray) :
    source ⟨text.toUTF8,file⟩ "-" = some text := by
  rw [source,if_pos rfl]
  exact fromUTF8?_toUTF8 text

theorem source_of_ne {program : String} (h : program ≠ "-") : source env program = some program := by
  rw [source,if_neg h]

/-- A hyphen alone is not a program. -/
theorem ne_hyphen_of_ofText {p : Program} (h : Program.ofText text = .ok p) : text ≠ "-" := by
  rintro rfl
  have hnone : (Program.ofText "-").toOption = none := by decide
  rw [h] at hnone
  contradiction

/-- The program of a command: what its argument is read as, or else the standard input. -/
def program? (env : Surroundings) (program : String) : Option Program :=
  source env program >>= fun text => (Program.ofText text).toOption

theorem output_run (env : Surroundings) (program inputs : String) (modulo : Option UInt32) (path : Option String)
    (json : Bool) : (run program inputs modulo path json).output env = program? env program >>= fun p => do
      let values ← Value.listOfJson? inputs
      let c ← (config env path modulo).toOption
      let result ← (p.run c values).toExcept.toOption
      return render json result ++ "\n" := by
  rw [output,program?,bind_assoc]

theorem output_check (env : Surroundings) (program : String) :
    (check program).output env = program? env program >>= fun p => some (p.text ++ "\n") := by
  rw [output,program?,bind_assoc]
  rfl

theorem program?_input (text : String) (file : String → Option ByteArray) :
    program? ⟨text.toUTF8,file⟩ "-" = (Program.ofText text).toOption := by
  rw [program?,source_input]
  rfl

/-- A command does the same on two standard inputs that read as the same program. -/
theorem output_congr (h : Program.ofText text = Program.ofText other) (command : Command) :
    command.output ⟨text.toUTF8,file⟩ = command.output ⟨other.toUTF8,file⟩ := by
  have hprogram : ∀ program, program? ⟨text.toUTF8,file⟩ program = program? ⟨other.toUTF8,file⟩ program := by
    intro program
    by_cases hinput : program = "-"
    · rw [hinput,program?_input,program?_input,h]
    · rw [program?,program?,source_of_ne hinput,source_of_ne hinput]
  cases command with
  | run program inputs modulo path json =>
    rw [output_run,output_run,hprogram]
    rfl
  | check program => rw [output_check,output_check,hprogram]
  | catalog format => cases format <;> rfl
  | vocabulary n => rfl

end Command

/-! ## Calls -/

namespace Exit

/-- How a call ends that finds a text on the standard input. -/
def onInput (text : String) (file : String → Option ByteArray) (args : List String) : Exit :=
  ofArgs ⟨text.toUTF8,file⟩ args

variable {text other : String} {file : String → Option ByteArray} {p : Program}

theorem onInput_check (text : String) (file : String → Option ByteArray) : onInput text file ["check","-"] =
    match Program.ofText text with
    | .ok p => ⟨0,p.text ++ "\n"⟩
    | .error _ => ⟨1,""⟩ := by
  have hargs : Command.ofArgs? ["check","-"] = some (.check "-") := by decide
  rw [onInput,ofArgs,hargs]
  dsimp only
  rw [Command.output_check,Command.program?_input]
  cases Program.ofText text <;> rfl

/-- A call ends the same on two standard inputs that read as the same program. -/
theorem onInput_congr (h : Program.ofText text = Program.ofText other) (args : List String) :
    onInput text file args = onInput other file args := by
  unfold onInput ofArgs
  split
  · rfl
  · rename_i command _
    rw [Command.output_congr h]

/-- Checking a text succeeds exactly if the text reads as a program. It then prints the tokens of the text with one space
between each two. What is printed is printed again when it is checked itself, it reads as the same program, and it can
replace the text in every call, be it on the standard input or as an argument. -/
theorem check_canonical (text : String) (file : String → Option ByteArray) :
    ((onInput text file ["check","-"]).status = 0 ↔ ∃ p, Program.ofText text = .ok p) ∧
    ∀ p, Program.ofText text = .ok p →
      let printed := Token.unwords (Token.split text) ++ "\n"
      onInput text file ["check","-"] = ⟨0,printed⟩ ∧
      onInput printed file ["check","-"] = ⟨0,printed⟩ ∧
      Program.ofText printed = .ok p ∧
      (∀ args, onInput printed file args = onInput text file args) ∧
      ∀ env inputs modulo path json, (Command.run printed inputs modulo path json).output env =
        (Command.run text inputs modulo path json).output env := by
  constructor
  · rw [onInput_check]
    cases Program.ofText text <;> simp
  · intro p h printed
    have hprinted : printed = p.text ++ "\n" := by rw [Program.text_of_ofText h]
    have hread : Program.ofText printed = .ok p := by
      rw [hprinted,Program.ofText_append_newline]
      exact Program.ofText_text_of_ofText h
    refine ⟨?_,?_,hread,?_,?_⟩
    · rw [onInput_check,h,hprinted]
    · rw [onInput_check,hread,hprinted]
    · exact fun args => onInput_congr (hread.trans h.symm) args
    · intro env inputs modulo path json
      rw [Command.output_run,Command.output_run,Command.program?,Command.program?,
        Command.source_of_ne (Command.ne_hyphen_of_ofText hread),Command.source_of_ne (Command.ne_hyphen_of_ofText h)]
      change ((Program.ofText printed).toOption >>= _) = ((Program.ofText text).toOption >>= _)
      rw [hread,h]

end Exit
end ListScript
