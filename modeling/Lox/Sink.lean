namespace Lox

inductive Reply where
  | taken
  | refused (count : Nat) (reason : String)

class Device (δ : Type) where
  write : δ → ByteArray → Reply × δ
  flush : δ → Option String × δ

structure Sink (δ : Type) where
  written : ByteArray
  device : δ

namespace Sink

variable {δ : Type} [Device δ]

def write (bytes : ByteArray) : EStateM String (Sink δ) Unit := fun s =>
  match Device.write s.device bytes with
  | (.taken, device) => .ok () ⟨s.written ++ bytes, device⟩
  | (.refused count reason, device) => .error reason ⟨s.written ++ bytes.extract 0 count, device⟩

def flush : EStateM String (Sink δ) Unit := fun s =>
  match Device.flush s.device with
  | (none, device) => .ok () { s with device }
  | (some reason, device) => .error reason { s with device }

end Sink

structure Buffer where
  room : Option Nat
  flushFails : Bool

instance : Device Buffer where
  write b bytes :=
    match b.room with
    | none => (.taken, b)
    | some room =>
      let next := { b with room := some (room - bytes.size) }
      if bytes.size ≤ room then (.taken, next) else (.refused room "sink full", next)
  flush b := if b.flushFails then (some "flush refused", b) else (none, b)

def Sink.unlimited : Sink Buffer :=
  ⟨.empty, ⟨none, false⟩⟩

end Lox
