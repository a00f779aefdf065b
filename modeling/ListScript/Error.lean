import ListScript.Config.Toml
import ListScript.ParseError
import ListScript.RunError

/-!
# Errors

Everything that can go wrong between a text and the result of running it.
-/
namespace ListScript

inductive Error where
  | parse (error : ParseError)
  | run (error : RunError)
  | config (error : ConfigError)
  deriving DecidableEq, Repr

def Error.message : Error → String
  | parse e => "parse error: " ++ e.message
  | run e => "run error: " ++ e.message
  | config e => "config error: " ++ e.message

end ListScript
