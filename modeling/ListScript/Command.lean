import ListScript.Catalog.Json
import ListScript.Catalog.Toml
import ListScript.Command.Args
import ListScript.Config.Toml
import ListScript.Run
import ListScript.Value.Json
import ListScript.Vocabulary

/-!
# Commands

The four things that the command line can be asked for: to run a program, to check one and print it in its canonical
form, to print the catalog, and to print a vocabulary. Arguments that do not make a command are a matter of usage; a
command that cannot be carried out fails.
-/
namespace ListScript

inductive Format where
  | toml
  | json
  deriving DecidableEq, Repr

inductive Command where
  /-- Runs a program on inputs given as JSON. A modulus of its own goes before that of the configuration file. -/
  | run (program inputs : String) (modulo : Option UInt32) (config : Option String) (json : Bool)
  | check (program : String)
  | catalog (format : Format)
  | vocabulary (maxVariables : Nat)
  deriving DecidableEq, Repr

namespace Command

def runOptions : List OptionName :=
  [{ long := "inputs", letter := some 'i' }, { long := "modulo", letter := some 'm' },
    { long := "config", letter := some 'c' }, { long := "json", hasValue := false }]

def catalogOptions : List OptionName := [{ long := "format", letter := some 'f' }]

def vocabularyOptions : List OptionName := [{ long := "max-variables" }]

def modulo? (text : String) : Option UInt32 := Decimal.signed? text.toList >>= exactUInt32?

/-- A path, which is never empty. -/
def path? (text : String) : Option String := if text.isEmpty then none else some text

def format? (text : String) : Option Format :=
  if text = "toml" then some .toml else if text = "json" then some .json else none

/-- A 64-bit number of variables, with an optional plus sign. -/
def count? (text : String) : Option Nat :=
  let digits :=
    match text.toList with
    | '+' :: digits => digits
    | digits => digits
  (Decimal.toNat? digits).filter (· < UInt64.size)

/-- The command that arguments make. -/
def ofArgs? : List String → Option Command
  | "run" :: args => do
    let a ← Args.ofList? runOptions args
    let modulo ← a.read? "modulo" modulo?
    let config ← a.read? "config" path?
    match a.positional with
    | [program] =>
      return .run program ((a.value? "inputs").getD "[]") modulo config (a.value? "json").isSome
    | _ => none
  | "check" :: args => do
    let a ← Args.ofList? [] args
    match a.positional with
    | [program] => return .check program
    | _ => none
  | "catalog" :: args => do
    let a ← Args.ofList? catalogOptions args
    let format ← a.read? "format" format?
    if a.positional.isEmpty then return .catalog (format.getD .toml) else none
  | "vocab" :: args => do
    let a ← Args.ofList? vocabularyOptions args
    let count ← a.read? "max-variables" count?
    if a.positional.isEmpty then return .vocabulary (count.getD Vocabulary.defaultMaxVariables) else none
  | _ => none

/-- What a command finds outside of its arguments. -/
structure Surroundings where
  input : ByteArray
  /-- The bytes of the file at a path, if it can be read. -/
  file : String → Option ByteArray

/-- The text of a program argument, in which a hyphen stands for the standard input. -/
def source (env : Surroundings) (program : String) : Option String :=
  if program = "-" then String.fromUTF8? env.input else some program

/-- The configuration of a run: the default one, that of a file, and on top of it a modulus of its own. -/
def config (env : Surroundings) (path : Option String) (modulo : Option UInt32) :
    Except ConfigError Config := do
  let base ← match path with
    | none => pure {}
    | some path => Config.ofFile (env.file path)
  return { base with modulo := modulo.getD base.modulo }

/-- The result of a run as text or as JSON. -/
def render (json : Bool) : Option State → String
  | some s => if json then (Value.listToJson s.values).compact else s.text
  | none => if json then "null" else "no result"

/-- What a command prints, if it can be carried out. -/
def output (env : Surroundings) : Command → Option String
  | run program inputs modulo path json => do
    let p ← (Program.ofText (← source env program)).toOption
    let values ← Value.listOfJson? inputs
    let c ← (config env path modulo).toOption
    let result ← (p.run c values).toExcept.toOption
    return render json result ++ "\n"
  | check program => do
    let p ← (Program.ofText (← source env program)).toOption
    return p.text ++ "\n"
  | catalog .toml => some (Catalog.builtin.tomlText ++ "\n")
  | catalog .json => some (Catalog.builtin.jsonText ++ "\n")
  | vocabulary n =>
    some (String.join ((Vocabulary.ofMaxVariables n).tokens.mapIdx fun id token =>
      Decimal.ofNat id ++ "\t" ++ token ++ "\n"))

end Command

/-- How a call of the command line ends. -/
structure Exit where
  status : UInt32
  output : String
  deriving DecidableEq, Repr

/-- Carries out the command that arguments make. The status is 0 for success, 1 for failure and 2 for arguments that
make no command. -/
def Exit.ofArgs (env : Command.Surroundings) (args : List String) : Exit :=
  match Command.ofArgs? args with
  | none => ⟨2, ""⟩
  | some command =>
    match command.output env with
    | none => ⟨1, ""⟩
    | some text => ⟨0, text⟩

end ListScript
