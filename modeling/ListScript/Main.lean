import ListScript.Command

/-!
# The program

The command line: it reads the standard input and the configuration file where the command asks for them, and prints.
-/
namespace ListScript

/-- The bytes of a stream up to its end, after those already read. -/
partial def readBytes (stream : IO.FS.Stream) (read : ByteArray) : IO ByteArray := do
  let more ← stream.read 65536
  if more.isEmpty then return read else readBytes stream (read ++ more)

def readInput (program : String) : IO ByteArray := do
  if program = "-" then readBytes (← IO.getStdin) .empty else return .empty

def readFile? (path : String) : IO (Option ByteArray) := do
  try
    return some (← IO.FS.readBinFile path)
  catch _ =>
    return none

/-- What the command made by the arguments finds outside of them. -/
def surroundings (args : List String) : IO Command.Surroundings :=
  match Command.ofArgs? args with
  | some (.run program _ _ (some path) _) => do
    let bytes ← readFile? path
    return ⟨← readInput program, fun p => if p = path then bytes else none⟩
  | some (.run program _ _ none _) | some (.check program) =>
    return ⟨← readInput program, fun _ => none⟩
  | _ => return ⟨.empty, fun _ => none⟩

end ListScript

open ListScript

def main (args : List String) : IO UInt32 := do
  let exit := Exit.ofArgs (← surroundings args) args
  match exit.status with
  | 0 => (← IO.getStdout).putStr exit.output
  | 1 => (← IO.getStderr).putStr "the command failed\n"
  | _ => (← IO.getStderr).putStr "usage: run PROGRAM | check PROGRAM | catalog | vocab\n"
  return exit.status
