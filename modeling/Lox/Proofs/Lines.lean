import Lox.Eval
import Lox.Proofs.Grammar

namespace Lox

def oneLine : ℕ → ℕ :=
  fun _ => 1

def Token.content (t : Token) : Token.Kind × String :=
  (t.kind, t.lexeme)

variable (f : ℕ → ℕ)

def Token.mapLine (t : Token) : Token :=
  { t with line := f t.line }

def Expr.mapLine : Expr → Expr
  | .literal v => .literal v
  | .variable name => .variable (name.mapLine f)
  | .assign name value => .assign (name.mapLine f) value.mapLine
  | .unary op operand => .unary (op.mapLine f) operand.mapLine
  | .binary left op right => .binary left.mapLine (op.mapLine f) right.mapLine
  | .group inner => .group inner.mapLine

namespace Stmt

mutual

def mapLine : Stmt → Stmt
  | .block body => .block (mapLineEach body)
  | .expression e => .expression (e.mapLine f)
  | .print e => .print (e.mapLine f)
  | .var name init => .var (name.mapLine f) (init.map (Expr.mapLine f))

def mapLineEach : List Stmt → List Stmt
  | [] => []
  | s :: rest => s.mapLine :: mapLineEach rest

end

lemma mapLineEach_eq_map (body : List Stmt) : mapLineEach f body = body.map (mapLine f) := by
  induction body with
  | nil => rfl
  | cons s body ih => rw [mapLineEach, ih, List.map_cons]

end Stmt

def RuntimeFault.mapLine (fault : RuntimeFault) : RuntimeFault :=
  { fault with line := f fault.line }

def InternalFault.mapLine : InternalFault → InternalFault
  | .notAnExpression t => .notAnExpression (t.mapLine f)
  | .invalidUnary op => .invalidUnary (op.mapLine f)
  | .invalidBinary op => .invalidBinary (op.mapLine f)
  | .within context inner => .within context inner.mapLine
  | fault => fault

def Trouble.mapLine : Trouble → Trouble
  | .runtime fault => .runtime (fault.mapLine f)
  | .internal fault => .internal (fault.mapLine f)

section Identity

lemma Expr.mapLine_id (e : Expr) : e.mapLine id = e := by
  induction e with
  | literal v => rfl
  | «variable» name => rfl
  | assign name value ih => rw [mapLine, ih, Token.mapLine, id]
  | unary op operand ih => rw [mapLine, ih, Token.mapLine, id]
  | binary left op right ihl ihr => rw [mapLine, ihl, ihr, Token.mapLine, id]
  | group inner ih => rw [mapLine, ih]

mutual

lemma Stmt.mapLine_id : ∀ s : Stmt, s.mapLine id = s
  | .block body => by rw [mapLine, Stmt.mapLineEach_id body]
  | .expression e => by rw [mapLine, e.mapLine_id]
  | .print e => by rw [mapLine, e.mapLine_id]
  | .var name none => rfl
  | .var name (some e) => by rw [mapLine, Option.map_some, e.mapLine_id, Token.mapLine, id]

lemma Stmt.mapLineEach_id : ∀ body : List Stmt, mapLineEach id body = body
  | [] => rfl
  | s :: rest => by rw [mapLineEach, Stmt.mapLine_id s, Stmt.mapLineEach_id rest]

end

lemma InternalFault.mapLine_id (fault : InternalFault) : fault.mapLine id = fault := by
  induction fault with
  | within context inner ih => rw [mapLine, ih]
  | _ => rfl

lemma Trouble.mapLine_id (t : Trouble) : t.mapLine id = t := by
  cases t with
  | runtime fault => rfl
  | internal fault => rw [mapLine, fault.mapLine_id]

lemma Trouble.mapLine_zero (t : Trouble) : t.mapLine (· + 0) = t :=
  t.mapLine_id

end Identity

section Grammar

lemma Expr.Derives.mapLine {rule : Rule} {d : ℕ} {e : Expr} (h : e.Derives rule d) :
    (e.mapLine f).Derives rule d := by
  induction h with
  | literal v => exact .literal v
  | name ht => exact .name ht
  | group hd _ ih => exact .group hd ih
  | primary _ ih => exact .primary ih
  | unary hop hd _ ih => exact .unary hop hd ih
  | first tier _ ih => exact .first tier ih
  | link _ hop hd _ ihl ihr => exact .link ihl hop hd ihr
  | level _ ih => exact .level ih
  | equality _ ih => exact .equality ih
  | assign ht hd _ ih => exact .assign ht hd ih

lemma Stmt.Derives.mapLine {d : ℕ} {s : Stmt} (h : s.Derives d) : (s.mapLine f).Derives d := by
  induction h with
  | block hd _ ih =>
    rw [Stmt.mapLine, mapLineEach_eq_map]
    refine .block hd fun s hs => ?_
    obtain ⟨t, ht, rfl⟩ := List.mem_map.mp hs
    exact ih t ht
  | expression h =>
    rw [Stmt.mapLine]
    exact .expression (h.mapLine f)
  | print h =>
    rw [Stmt.mapLine]
    exact .print (h.mapLine f)
  | var ht h =>
    rw [Stmt.mapLine]
    refine .var ht fun e he => ?_
    obtain ⟨e', he', rfl⟩ := Option.map_eq_some_iff.mp he
    exact (h e' he').mapLine f

def Mark.mapLine : Mark → Mark
  | .own t => .own (t.mapLine f)
  | .any k => .any k

lemma Mark.Accepts.mapLine {m : Mark} {t : Token} (h : m.Accepts t) : (m.mapLine f).Accepts (t.mapLine f) := by
  cases m with
  | own u => exact congrArg (Token.mapLine f) h
  | any k => exact h

lemma Spells.mapLine {ms : List Mark} {ts : List Token} (h : Spells ms ts) :
    Spells (ms.map (Mark.mapLine f)) (ts.map (Token.mapLine f)) := by
  induction h with
  | nil => exact .nil
  | cons hm _ ih => exact .cons (hm.mapLine f) ih

lemma Expr.spelling_mapLine (e : Expr) : (e.mapLine f).spelling = e.spelling.map (Mark.mapLine f) := by
  induction e with
  | literal v => rfl
  | «variable» name => rfl
  | assign name value ih => simp [mapLine, spelling, Mark.mapLine, ih]
  | unary op operand ih => simp [mapLine, spelling, Mark.mapLine, ih]
  | binary left op right ihl ihr => simp [mapLine, spelling, Mark.mapLine, ihl, ihr]
  | group inner ih => simp [mapLine, spelling, Mark.mapLine, ih]

mutual

lemma Stmt.spelling_mapLine : ∀ s : Stmt, (s.mapLine f).spelling = s.spelling.map (Mark.mapLine f)
  | .block body => by simp [Stmt.mapLine, spelling, Mark.mapLine, Stmt.spellingEach_mapLine body]
  | .expression e => by simp [Stmt.mapLine, spelling, Mark.mapLine, e.spelling_mapLine]
  | .print e => by simp [Stmt.mapLine, spelling, Mark.mapLine, e.spelling_mapLine]
  | .var name none => by simp [Stmt.mapLine, spelling, Mark.mapLine, initSpelling]
  | .var name (some e) => by simp [Stmt.mapLine, spelling, Mark.mapLine, initSpelling, e.spelling_mapLine]

lemma Stmt.spellingEach_mapLine : ∀ body : List Stmt,
    spellingEach (mapLineEach f body) = (spellingEach body).map (Mark.mapLine f)
  | [] => rfl
  | s :: rest => by
    rw [mapLineEach, spellingEach, Stmt.spelling_mapLine s, Stmt.spellingEach_mapLine rest, spellingEach,
      List.map_append]

end

end Grammar

end Lox
