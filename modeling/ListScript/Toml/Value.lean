/-!
# TOML values

What a TOML document holds. Of floating-point numbers and points in time nothing but their presence matters here, so
they carry no content. Tables remember how they came about, because that decides what may be added to them later in
the document.
-/
namespace ListScript.Toml

/-- How a table came about. -/
inductive Origin where
  /-- By a header of its own. -/
  | header
  /-- As a parent named in the header of another table. -/
  | parent
  /-- By a dotted key. -/
  | dotted
  /-- By braces. -/
  | braces
  deriving DecidableEq, Repr

/-- Whether a dotted key may pass through a table. -/
def Origin.isOpen : Origin → Bool
  | parent | dotted => true
  | header | braces => false

inductive Value where
  | string (text : String)
  | integer (n : Int64)
  | boolean (b : Bool)
  | float
  | moment
  | array (items : List Value)
  | table (origin : Origin) (entries : List (String × Value))
  /-- The tables under a doubled header, in order. -/
  | tables (items : List (List (String × Value)))

/-- The entries of a table, in the order in which they were added. -/
abbrev Table := List (String × Value)

end ListScript.Toml
