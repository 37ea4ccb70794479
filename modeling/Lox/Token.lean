namespace Lox

inductive Symbol where
  | leftParen | rightParen | leftBrace | rightBrace | comma | dot | minus | plus | semicolon | slash | star
  | bang | bangEqual | equal | equalEqual | greater | greaterEqual | less | lessEqual
deriving DecidableEq, Repr

namespace Symbol

def all : List Symbol :=
  [.leftParen, .rightParen, .leftBrace, .rightBrace, .comma, .dot, .minus, .plus, .semicolon, .slash, .star,
   .bang, .bangEqual, .equal, .equalEqual, .greater, .greaterEqual, .less, .lessEqual]

def spelling : Symbol → List Char
  | .leftParen => ['(']
  | .rightParen => [')']
  | .leftBrace => ['{']
  | .rightBrace => ['}']
  | .comma => [',']
  | .dot => ['.']
  | .minus => ['-']
  | .plus => ['+']
  | .semicolon => [';']
  | .slash => ['/']
  | .star => ['*']
  | .bang => ['!']
  | .bangEqual => ['!', '=']
  | .equal => ['=']
  | .equalEqual => ['=', '=']
  | .greater => ['>']
  | .greaterEqual => ['>', '=']
  | .less => ['<']
  | .lessEqual => ['<', '=']

def ofChar? (c : Char) : Option Symbol :=
  all.find? (·.spelling == [c])

def withEqual? : Symbol → Option Symbol
  | .bang => some .bangEqual
  | .equal => some .equalEqual
  | .greater => some .greaterEqual
  | .less => some .lessEqual
  | _ => none

theorem mem_all (s : Symbol) : s ∈ all := by
  cases s <;> decide

theorem ofChar?_eq_some_iff {c : Char} {s : Symbol} : ofChar? c = some s ↔ s.spelling = [c] := by
  constructor
  · intro h
    simpa using List.find?_some h
  · intro h
    cases s <;> simp only [spelling, List.cons.injEq, and_true, reduceCtorEq, and_false] at h <;> subst h <;> rfl

theorem spelling_withEqual {s t : Symbol} (h : s.withEqual? = some t) : t.spelling = s.spelling ++ ['='] := by
  cases s <;> cases h <;> rfl

end Symbol

inductive Keyword where
  | andKw | classKw | elseKw | falseKw | forKw | funKw | ifKw | nilKw
  | orKw | printKw | returnKw | superKw | thisKw | trueKw | varKw | whileKw
deriving DecidableEq, Repr

namespace Keyword

def all : List Keyword :=
  [.andKw, .classKw, .elseKw, .falseKw, .forKw, .funKw, .ifKw, .nilKw, .orKw,
   .printKw, .returnKw, .superKw, .thisKw, .trueKw, .varKw, .whileKw]

def spelling : Keyword → String
  | .andKw => "and"
  | .classKw => "class"
  | .elseKw => "else"
  | .falseKw => "false"
  | .forKw => "for"
  | .funKw => "fun"
  | .ifKw => "if"
  | .nilKw => "nil"
  | .orKw => "or"
  | .printKw => "print"
  | .returnKw => "return"
  | .superKw => "super"
  | .thisKw => "this"
  | .trueKw => "true"
  | .varKw => "var"
  | .whileKw => "while"

def ofSpelling? (word : String) : Option Keyword :=
  all.find? (·.spelling == word)

theorem mem_all (k : Keyword) : k ∈ all := by
  cases k <;> decide

theorem ofSpelling?_eq_some_iff {word : String} {k : Keyword} : ofSpelling? word = some k ↔ k.spelling = word := by
  constructor
  · intro h
    simpa using List.find?_some h
  · rintro rfl
    cases k <;> decide

def startsStatement : Keyword → Bool
  | .classKw | .funKw | .varKw | .forKw | .ifKw | .whileKw | .printKw | .returnKw => true
  | _ => false

end Keyword

inductive Token.Kind where
  | newline | blank | comment
  | symbol (s : Symbol)
  | keyword (k : Keyword)
  | identifier (name : String)
  | string (text : String)
  | number (value : Float)
  | eof
deriving DecidableEq, Repr

structure Token where
  kind : Token.Kind
  lexeme : String
  line : Nat
deriving DecidableEq, Repr

namespace Token

def Kind.ofWord (word : String) : Kind :=
  match Keyword.ofSpelling? word with
  | some k => .keyword k
  | none => .identifier word

def Kind.isLayout : Kind → Bool
  | .newline | .blank | .comment => true
  | _ => false

def Kind.startsStatement : Kind → Bool
  | .keyword k => k.startsStatement
  | _ => false

def Kind.isIdentifier : Kind → Bool
  | .identifier _ => true
  | _ => false

def isEof (t : Token) : Bool :=
  t.kind == .eof

def endAt (line : Nat) : Token :=
  ⟨.eof, "", line⟩

theorem isEof_iff {t : Token} : t.isEof = true ↔ t.kind = .eof := by
  simp [isEof]

@[simp] theorem isEof_endAt (line : Nat) : (endAt line).isEof = true := rfl

end Token

end Lox
