/-!
# Command-line arguments

A command has named options and positional arguments, in any order. An option is given by its long name after two
hyphens or by its letter after one. Its value is the next argument, or is attached: to the name after an equals sign,
to the letter with an equals sign or without. An argument that begins with a hyphen and is more than that is never
taken for a value or a positional argument, except after the argument `--`, which ends the options. No option may be
given twice.
-/
namespace ListScript.Command

/-- An option that a command knows. -/
structure OptionName where
  long : String
  letter : Option Char := none
  /-- An option without a value is either given or not. It has no letter. -/
  hasValue : Bool := true
  deriving DecidableEq, Repr

/-- The arguments of a command, sorted. -/
structure Args where
  /-- The options that were given, by their long names, with their values. -/
  options : List (String × String)
  positional : List String
  deriving DecidableEq, Repr

/-- Whether an argument must be an option. -/
def isOption (arg : String) : Bool :=
  match arg.toList with
  | '-' :: _ :: _ => true
  | _ => false

/-- The option that an argument names, and the value attached to it. -/
def optionOf? (known : List OptionName) (arg : String) : Option (OptionName × Option String) :=
  match arg.toList with
  | '-' :: '-' :: body =>
    let name := String.ofList (body.takeWhile (· != '='))
    let attached :=
      match body.dropWhile (· != '=') with
      | _ :: value => some (String.ofList value)
      | [] => none
    (known.find? fun o => o.long == name).map fun o => (o, attached)
  | '-' :: letter :: body =>
    let attached :=
      match body with
      | [] => none
      | '=' :: value => some (String.ofList value)
      | value => some (String.ofList value)
    (known.find? fun o => o.letter == some letter).map fun o => (o, attached)
  | _ => none

namespace Args

def addOption (name value : String) (args : Args) : Args :=
  { args with options := (name, value) :: args.options }

def addPositional (arg : String) (args : Args) : Args :=
  { args with positional := arg :: args.positional }

/-- Sorts arguments, which must follow the rules except for the one on repetition. -/
def sort (known : List OptionName) : List String → Option Args
  | [] => some ⟨[], []⟩
  | arg :: rest =>
    if arg = "--" then some ⟨[], rest⟩
    else if isOption arg then
      match optionOf? known arg with
      | none => none
      | some (o, some value) => if o.hasValue then (sort known rest).map (addOption o.long value) else none
      | some (o, none) =>
        if o.hasValue then
          match rest with
          | [] => none
          | value :: rest =>
            if isOption value then none else (sort known rest).map (addOption o.long value)
        else (sort known rest).map (addOption o.long "")
    else (sort known rest).map (addPositional arg)

/-- The arguments of a command that knows the given options. -/
def ofList? (known : List OptionName) (args : List String) : Option Args :=
  (sort known args).filter fun a => (a.options.map Prod.fst).Nodup

def value? (a : Args) (name : String) : Option String := a.options.lookup name

def read? {α : Type} (a : Args) (name : String) (read : String → Option α) : Option (Option α) :=
  match a.value? name with
  | none => some none
  | some value => (read value).map some

end Args

end ListScript.Command
