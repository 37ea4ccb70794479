import Lox.Command
import Lox.Prompt

namespace Lox

structure Outcome where
  exit : UInt32
  stdout : ByteArray
  stderr : ByteArray

namespace Program

def session : Session Buffer :=
  .start .unlimited

def faultLine : Failure → String
  | .internal fault => "Failed run file: " ++ fault.chain ++ "\n"
  | _ => ""

def outcome (s : Session Buffer) (exit : UInt32) (last : String) : Outcome :=
  { exit
    stdout := s.machine.sink.written
    stderr := (String.join (s.reported.toList.map fun d => d.render ++ "\n") ++ last).toUTF8 }

def runFile (path : String) (contents : Except ReadFault ByteArray) : Outcome :=
  match Session.runFile path contents session with
  | .ok _ s => outcome s 0 ""
  | .error failure s => outcome s failure.exitCode (faultLine failure)

def repl (input : ByteArray) : Outcome :=
  let t := Prompt.run session input
  ⟨0, t.screen, t.complaints.toUTF8⟩

end Program

end Lox
