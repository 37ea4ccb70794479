import Lox.Program

namespace Lox.Main

def usage : String :=
  "Usage: lox <COMMAND>\n\nCommands:\n  file <PATH>  Run a script file\n  repl         Start an interactive prompt\n"

def readSource (path : String) : IO (Except ReadFault ByteArray) := do
  try
    return .ok (← IO.FS.readBinFile path)
  catch e =>
    match e with
    | .noFileOrDirectory .. => return .error .notFound
    | .inappropriateType .. => return .error .isDirectory
    | e => return .error (.other (toString e))

partial def readLine (input : IO.FS.Stream) (line : ByteArray) : IO ByteArray := do
  let bytes ← input.read 1
  if bytes.isEmpty then return line
  else if bytes.data == #[10] then return line ++ bytes
  else readLine input (line ++ bytes)

partial def prompt (input output errors : IO.FS.Stream) (s : Session Buffer) : IO Unit := do
  output.putStr Prompt.text
  output.flush
  let step := Prompt.step s (← readLine input .empty)
  output.write step.shown
  errors.putStr step.complaint
  if let some s := step.session? then prompt input output errors s

end Lox.Main

open Lox Lox.Main in
def main (args : List String) : IO UInt32 := do
  let output ← IO.getStdout
  let errors ← IO.getStderr
  match Command.parse args with
  | .error fault =>
    if fault.exitCode = 0 then output.putStr usage else errors.putStr usage
    return fault.exitCode
  | .ok (.file path) =>
    let outcome := Program.runFile path (← readSource path)
    output.write outcome.stdout
    errors.write outcome.stderr
    return outcome.exit
  | .ok .repl =>
    prompt (← IO.getStdin) output errors Program.session
    return 0
