import ListScript.Config
import ListScript.Toml.Document
import ListScript.Toml.Record

/-!
# Configurations as TOML

A configuration file is a TOML document in UTF-8 that holds the modulus under the key `modulo`, or nothing. Any other
key makes it malformed.
-/
namespace ListScript

/-- Why there is no configuration. -/
inductive ConfigError where
  /-- The file is missing or is not text. -/
  | unreadable
  /-- The text is not a document of the required form. -/
  | malformed
  deriving DecidableEq, Repr

def ConfigError.message : ConfigError → String
  | unreadable => "the configuration cannot be read"
  | malformed => "invalid configuration"

namespace Config

/-- The configuration in the root table of a document. -/
def ofTable? (t : Toml.Table) : Option Config :=
  if t.any (·.1 != "modulo") then none
  else
    match t.lookup "modulo" with
    | none => some {}
    | some v => do return { modulo := ← exactUInt32? (← v.integer?).toInt }

def ofText (text : String) : Except ConfigError Config :=
  match Toml.Table.ofText? text >>= ofTable? with
  | some c => .ok c
  | none => .error .malformed

def ofFile (bytes : Option ByteArray) : Except ConfigError Config :=
  match bytes >>= String.fromUTF8? with
  | some text => ofText text
  | none => .error .unreadable

end Config

end ListScript
