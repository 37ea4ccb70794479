import Lox.Session
import Lox.Text.Blank

namespace Lox

structure Turn where
  printed : ByteArray
  reported : List Diagnostic
  fault : Option InternalFault

variable {δ : Type}

namespace Turn

def take [Device δ] (s : Session δ) (line : String) : Turn × Session δ :=
  let finish (s' : Session δ) (fault : Option InternalFault) : Turn × Session δ :=
    ({ printed := s'.machine.sink.written.extract s.machine.sink.written.size s'.machine.sink.written.size
       reported := (s'.reported.extract s.reported.size).toList
       fault }, s')
  match Session.run (String.ofList (Text.trim line.toList)) s with
  | .ok _ s' => finish s' none
  | .error (.internal fault) s' => finish s' (some fault)
  | .error _ s' => finish s' none

def faultLine : Option InternalFault → String
  | none => ""
  | some fault => "Failed run prompt: " ++ fault.chain ++ "\n"

def complaints (t : Turn) : String :=
  String.join (t.reported.map fun d => d.render ++ "\n") ++ faultLine t.fault

end Turn

namespace Prompt

def text : String :=
  "> "

def farewell : String :=
  "\nExited loxer repl\n"

def unreadable : String :=
  "Failed read line: " ++ ReadFault.notUtf8.message ++ "\n"

/-- Splits bytes behind each newline. The bytes of the unfinished line and the finished lines are held in reverse. -/
def splitOnto (done : List (List UInt8)) (line : List UInt8) : List UInt8 → List (List UInt8)
  | [] => if line.isEmpty then done else line.reverse :: done
  | b :: rest => if b = 10 then splitOnto ((b :: line).reverse :: done) [] rest else splitOnto done (b :: line) rest

def lines (input : List UInt8) : List (List UInt8) :=
  (splitOnto [] [] input).reverse

inductive Step (δ : Type) where
  | farewell
  | unreadable
  | turn (turn : Turn) (session : Session δ)

def step [Device δ] (s : Session δ) (read : ByteArray) : Step δ :=
  if read.isEmpty then .farewell
  else
    match String.fromUTF8? read with
    | none => .unreadable
    | some line => .turn (Turn.take s line).1 (Turn.take s line).2

namespace Step

def shown : Step δ → ByteArray
  | .farewell => Prompt.farewell.toUTF8
  | .unreadable => .empty
  | .turn t _ => t.printed

def complaint : Step δ → String
  | .farewell => ""
  | .unreadable => Prompt.unreadable
  | .turn t _ => t.complaints

def session? : Step δ → Option (Session δ)
  | .turn _ session => some session
  | _ => none

end Step

structure Transcript (δ : Type) where
  turns : List Turn
  isText : Bool
  session : Session δ

def runOnto [Device δ] (done : List Turn) (s : Session δ) : List (List UInt8) → Transcript δ
  | [] => ⟨done.reverse, true, s⟩
  | read :: rest =>
    match step s ⟨read.toArray⟩ with
    | .farewell => ⟨done.reverse, true, s⟩
    | .unreadable => ⟨done.reverse, false, s⟩
    | .turn turn s => runOnto (turn :: done) s rest

def run [Device δ] (s : Session δ) (input : ByteArray) : Transcript δ :=
  runOnto [] s (lines input.data.toList ++ [[]])

namespace Transcript

def ending (t : Transcript δ) : String :=
  if t.isText then farewell else ""

def prompts (t : Transcript δ) : String :=
  String.join (t.turns.map fun _ => text) ++ text ++ t.ending

def screen (t : Transcript δ) : ByteArray :=
  t.turns.foldl (fun out turn => out ++ text.toUTF8 ++ turn.printed) ByteArray.empty ++ (text ++ t.ending).toUTF8

def readComplaint (t : Transcript δ) : String :=
  if t.isText then "" else unreadable

def faultLines (t : Transcript δ) : String :=
  String.join (t.turns.map fun turn => Turn.faultLine turn.fault) ++ t.readComplaint

def complaints (t : Transcript δ) : String :=
  String.join (t.turns.map Turn.complaints) ++ t.readComplaint

end Transcript

end Prompt

end Lox
