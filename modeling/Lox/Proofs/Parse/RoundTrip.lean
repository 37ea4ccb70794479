import Lox.Parse
import Lox.Proofs.Parse.Completeness
import Lox.Proofs.Parse.Statements

namespace Lox

open Lox.Parser Lox.Layer

def Token.Kind.opensExpr (k : Token.Kind) : Bool :=
  k.isAtom || isUnaryOperator k || k == .symbol .leftParen

lemma Value.kind_isAtom (v : Value) : v.kind.isAtom = true ∧ isUnaryOperator v.kind = false := by
  match v with
  | .nil | .bool true | .bool false | .number _ | .string _ => exact ⟨rfl, rfl⟩

namespace Expr.Derives

lemma head {rule : Rule} {d : ℕ} {e : Expr} (h : e.Derives rule d) {ts : List Token} (hs : Spells e.spelling ts) :
    ∃ t us, ts = t :: us ∧ t.kind.opensExpr = true ∧ (rule = .primary → isUnaryOperator t.kind = false) := by
  induction h generalizing ts with
  | literal v =>
    obtain ⟨t, us, rfl, ht, -⟩ := Spells.exists_cons hs
    obtain ⟨ha, hu⟩ := v.kind_isAtom
    rw [← show t.kind = v.kind from ht] at ha hu
    exact ⟨t, us, rfl, by simp [Token.Kind.opensExpr, ha], fun _ => hu⟩
  | name hn | assign hn =>
    obtain ⟨t, us, rfl, rfl, -⟩ := Spells.exists_cons hs
    refine ⟨t, us, rfl, ?_, fun _ => isUnaryOperator_of_isIdentifier hn⟩
    revert hn
    cases t.kind <;> first | (intro; rfl) | (intro h; cases h)
  | group =>
    obtain ⟨t, us, rfl, ht, -⟩ := Spells.exists_cons hs
    rw [Mark.Accepts] at ht
    exact ⟨t, us, rfl, by rw [ht]; rfl, fun _ => by rw [ht]; rfl⟩
  | primary _ ih | first _ _ ih | level _ ih | equality _ ih =>
    obtain ⟨t, us, rfl, ht, -⟩ := ih hs
    exact ⟨t, us, rfl, ht, nofun⟩
  | unary hop =>
    obtain ⟨t, us, rfl, rfl, -⟩ := Spells.exists_cons hs
    exact ⟨t, us, rfl, by simp [Token.Kind.opensExpr, hop], nofun⟩
  | link _ _ _ _ ih =>
    obtain ⟨us, vs, rfl, hu, -⟩ := Spells.exists_append hs
    obtain ⟨t, us, rfl, ht, -⟩ := ih hu
    exact ⟨t, us ++ vs, rfl, ht, nofun⟩

lemma reads {rule : Rule} {d : ℕ} {e : Expr} (h : e.Derives rule d) : e.Reads rule d := by
  induction h with
  | literal v => exact .literal v
  | name ht => exact .name ht
  | group hd _ ih => exact .group hd ih
  | primary h ih =>
    refine ih.primary fun ts hts => ?_
    obtain ⟨t, us, rfl, -, ht⟩ := h.head hts
    exact ⟨t, us, rfl, ht rfl⟩
  | unary hop hd _ ih => exact .unary hop hd ih
  | first tier _ ih => exact .first tier ih
  | link _ hop hd _ ihl ihr => exact .link ihl hop hd ihr
  | level _ ih => exact ih.level
  | equality _ ih => exact .equality ih
  | assign ht hd _ ih => exact .assign ht hd ih

lemma read_before {d n : ℕ} {e : Expr} {ts : List Token} {t : Token} (h : e.Derives .assignment d)
    (hn : n + d = maxNesting) (hs : Spells e.spelling ts) (ht : t.kind = .symbol .semicolon) (rest : List Token)
    (fs : List SyntaxFault) :
    (above n).expression ⟨ts ++ t :: rest, d, fs⟩ = .ok e ⟨t :: rest, d, fs⟩ := by
  refine h.reads n ts (t :: rest) fs hn hs ?_
  rw [Rule.stopsAt_cons, ht]
  rfl

end Expr.Derives

def Stmt.Reads (d : ℕ) (s : Stmt) : Prop :=
  ∀ n ts rest fs, n + d = maxNesting → Spells s.spelling ts →
    (above n).declaration ⟨ts ++ rest, d, fs⟩ = .ok s ⟨rest, d, fs⟩

namespace Stmt.Reads

variable {d : ℕ} {e : Expr}

lemma declaration_eq {n : ℕ} {t : Token} {rest : List Token} {fs : List SyntaxFault}
    (ht : (t.kind == .keyword .varKw) = false) :
    (above n).declaration ⟨t :: rest, d, fs⟩ = (above n).statement ⟨t :: rest, d, fs⟩ := by
  rw [above_declaration, Parser.declaration]
  exact bind_eq_of_ok (nextIf_none (by simpa using ht))

lemma expression (h : e.Derives .assignment d) : (Stmt.expression e).Reads d := by
  intro n ts rest fs hn hts
  rw [Stmt.spelling] at hts
  obtain ⟨us, t, rfl, hu, ht⟩ := hts.exists_concat
  have hin := h.read_before hn hu ht rest fs
  obtain ⟨u, us, rfl, hopen, -⟩ := h.head hu
  have hkind : (u.kind == .keyword .varKw) = false ∧ (u.kind == .keyword .printKw) = false ∧
      (u.kind == .symbol .leftBrace) = false := by
    revert hopen
    cases u.kind with
    | keyword k => cases k <;> decide
    | symbol s => cases s <;> decide
    | _ => simp
  obtain ⟨below, hb⟩ := above_eq_climb n
  rw [List.append_assoc, List.singleton_append]
  refine (declaration_eq hkind.1).trans ?_
  rw [hb, climb_statement, ← hb, Parser.statement]
  refine (bind_eq_of_ok (nextIf_none (by simpa using hkind.2.1))).trans ?_
  refine (bind_eq_of_ok peek_cons).trans ?_
  rw [if_neg (by simp [hkind.2.2])]
  exact (bind_eq_of_ok hin).trans (bind_eq_of_ok (expectSymbol_cons ht))

lemma print (h : e.Derives .assignment d) : (Stmt.print e).Reads d := by
  intro n ts rest fs hn hts
  rw [Stmt.spelling, List.cons_append] at hts
  obtain ⟨u, us, rfl, hu, hts⟩ := hts.exists_cons
  obtain ⟨us, t, rfl, hus, ht⟩ := hts.exists_concat
  have hu : u.kind = .keyword .printKw := hu
  have hin := h.read_before hn hus ht rest fs
  obtain ⟨below, hb⟩ := above_eq_climb n
  rw [List.cons_append, List.append_assoc, List.singleton_append]
  refine (declaration_eq (by rw [hu]; rfl)).trans ?_
  rw [hb, climb_statement, ← hb, Parser.statement]
  refine (bind_eq_of_ok (nextIf_some (by simp [hu]) rfl)).trans ?_
  exact (bind_eq_of_ok hin).trans (bind_eq_of_ok (expectSymbol_cons ht))

lemma var {name : Token} {init : Option Expr} (hn : name.kind.isIdentifier = true)
    (h : ∀ e ∈ init, e.Derives .assignment d) : (Stmt.var name init).Reads d := by
  intro n ts rest fs hd hts
  rw [Stmt.spelling, List.cons_append, List.cons_append] at hts
  obtain ⟨u, us, rfl, hu, htail⟩ := hts.exists_cons
  obtain ⟨w, ws, rfl, rfl, hinit⟩ := htail.exists_cons
  obtain ⟨us, t, rfl, hus, ht⟩ := hinit.exists_concat
  have hu : u.kind = .keyword .varKw := hu
  rw [above_declaration, Parser.declaration, List.cons_append, List.cons_append, List.append_assoc,
    List.singleton_append]
  refine (bind_eq_of_ok (nextIf_some (by simp [hu]) rfl)).trans ?_
  refine (bind_eq_of_ok (expect_cons hn rfl)).trans ?_
  cases init with
  | none =>
    obtain rfl := List.forall₂_nil_left_iff.mp hus
    refine (bind_eq_of_ok (nextIf_none ?_)).trans (bind_eq_of_ok (expectSymbol_cons ht))
    simp [show t.kind = _ from ht]
  | some e =>
    obtain ⟨equals, us, rfl, heq, hus⟩ := Spells.exists_cons hus
    have heq : equals.kind = .symbol .equal := heq
    have hin := (h e rfl).read_before hd hus ht rest fs
    refine (bind_eq_of_ok (nextIf_some (by simp [heq]) rfl)).trans ?_
    exact (bind_eq_of_ok (map_ok hin)).trans (bind_eq_of_ok (expectSymbol_cons ht))

end Stmt.Reads

namespace Stmt

lemma Derives.head {d : ℕ} {s : Stmt} (h : s.Derives d) {ts : List Token} (hs : Spells s.spelling ts) :
    ∃ t us, ts = t :: us ∧ t.kind ≠ .eof ∧ t.kind ≠ .symbol .rightBrace := by
  cases h with
  | block | print | var =>
    obtain ⟨t, us, rfl, ht, -⟩ := Spells.exists_cons hs
    rw [Mark.Accepts] at ht
    exact ⟨t, us, rfl, by simp [ht], by simp [ht]⟩
  | expression h =>
    obtain ⟨us, vs, rfl, hu, -⟩ := Spells.exists_append hs
    obtain ⟨t, us, rfl, hopen, -⟩ := h.head hu
    refine ⟨t, us ++ vs, rfl, ?_, ?_⟩ <;> intro ht <;> rw [ht] at hopen <;> cases hopen

lemma length_le_spellingEach (body : List Stmt) : body.length ≤ (spellingEach body).length := by
  induction body with
  | nil => exact le_rfl
  | cons s body ih =>
    have hs := List.length_pos_iff.mpr s.spelling_ne_nil
    rw [spellingEach, List.length_append, List.length_cons]
    omega

section

variable {ends : Token.Kind → Bool} {inBlock : Bool} {n d : ℕ} {t : Token} {rest : List Token} {fs : List SyntaxFault}

lemma declarationsWithin_ok (hn : n + d = maxNesting) (ht : ends t.kind = true)
    (hends : ∀ k, k ≠ .eof → k ≠ .symbol .rightBrace → ends k = false) {body : List Stmt} {ts : List Token}
    {done : Array Stmt} {fuel : ℕ} (hb : ∀ s ∈ body, s.Derives d ∧ s.Reads d) (hs : Spells (spellingEach body) ts)
    (hf : body.length < fuel) :
    declarationsWithin ends (recovering inBlock (above n).declaration) done fuel ⟨ts ++ t :: rest, d, fs⟩ =
      .ok (done ++ body.toArray) ⟨t :: rest, d, fs⟩ := by
  induction body generalizing ts done fuel with
  | nil =>
    obtain rfl := List.forall₂_nil_left_iff.mp hs
    obtain ⟨fuel, rfl⟩ := Nat.exists_eq_add_of_lt hf
    rw [declarationsWithin]
    refine (bind_eq_of_ok peek_cons).trans ?_
    rw [if_pos ht, Array.append_empty]
    rfl
  | cons s body ih =>
    obtain ⟨us, vs, rfl, hu, hv⟩ := Spells.exists_append hs
    obtain ⟨hder, hread⟩ := hb s (List.mem_cons_self ..)
    have hfirst := hread n us (vs ++ t :: rest) fs hn hu
    obtain ⟨u, us, rfl, heof, hbrace⟩ := hder.head hu
    obtain ⟨fuel, rfl⟩ := Nat.exists_eq_add_of_lt hf
    rw [declarationsWithin, List.append_assoc]
    refine (bind_eq_of_ok peek_cons).trans ?_
    rw [hends u.kind heof hbrace, if_neg Bool.false_ne_true]
    have hrec : recovering inBlock (above n).declaration ⟨(u :: us) ++ (vs ++ t :: rest), d, fs⟩ =
        .ok (some s) ⟨vs ++ t :: rest, d, fs⟩ := by
      rw [recovering, hfirst]
    refine (bind_eq_of_ok hrec).trans ((ih (fun x hx => hb x (List.mem_cons_of_mem s hx)) hv ?_).trans ?_)
    · rw [List.length_cons]
      omega
    · simp

lemma declarations_ok (hn : n + d = maxNesting) (ht : ends t.kind = true)
    (hends : ∀ k, k ≠ .eof → k ≠ .symbol .rightBrace → ends k = false) {body : List Stmt} {ts : List Token}
    (hb : ∀ s ∈ body, s.Derives d ∧ s.Reads d) (hs : Spells (spellingEach body) ts) :
    declarations ends (recovering inBlock (above n).declaration) ⟨ts ++ t :: rest, d, fs⟩ =
      .ok body ⟨t :: rest, d, fs⟩ := by
  have hlen : body.length < (ts ++ t :: rest).length := by
    have h := length_le_spellingEach body
    rw [hs.length_eq] at h
    simp
    omega
  exact (map_ok (declarationsWithin_ok hn ht hends hb hs hlen)).trans (by simp)

end

lemma declaration_of_block {n d : ℕ} {u : Token} {ts rest : List Token} {fs gs : List SyntaxFault} {body : List Stmt}
    (hu : u.kind = .symbol .leftBrace) (hd : d < maxNesting)
    (hin : (above n).block ⟨u :: ts, d + 1, fs⟩ = .ok body ⟨rest, d + 1, gs⟩) :
    (above (n + 1)).declaration ⟨u :: ts, d, fs⟩ = .ok (.block body) ⟨rest, d, gs⟩ := by
  refine (Reads.declaration_eq (by rw [hu]; rfl)).trans ?_
  change (climb (above n)).statement _ = _
  rw [climb_statement, Parser.statement]
  refine (bind_eq_of_ok (nextIf_none (by simp [hu]))).trans ((bind_eq_of_ok peek_cons).trans ?_)
  rw [if_pos (by simp [hu])]
  exact bind_eq_of_ok (nested_ok hd hin)

lemma Reads.block {d : ℕ} {body : List Stmt} (hd : d < maxNesting)
    (hb : ∀ s ∈ body, s.Derives (d + 1) ∧ s.Reads (d + 1)) : (Stmt.block body).Reads d := by
  intro n ts rest fs hn hts
  rw [spelling, List.cons_append] at hts
  obtain ⟨u, us, rfl, hu, htail⟩ := hts.exists_cons
  obtain ⟨us, t, rfl, hus, ht⟩ := htail.exists_concat
  have hu : u.kind = .symbol .leftBrace := hu
  have ht : t.kind = .symbol .rightBrace := ht
  obtain ⟨n, rfl⟩ : ∃ m, n = m + 1 := ⟨n - 1, by omega⟩
  have hin : (above n).block ⟨u :: (us ++ t :: rest), d + 1, fs⟩ = .ok body ⟨rest, d + 1, fs⟩ := by
    rw [above_block, Parser.block]
    refine (bind_eq_of_ok (advance_cons (by simp [Token.isEof, hu]))).trans ?_
    refine (bind_eq_of_ok (declarations_ok (by omega) (by simp [ht]) ?_ hb hus)).trans
      (bind_eq_of_ok (expectSymbol_cons ht))
    intro k heof hbrace
    simp [heof, hbrace]
  rw [List.cons_append, List.append_assoc, List.singleton_append]
  exact declaration_of_block hu hd hin

lemma Derives.reads {d : ℕ} {s : Stmt} (h : s.Derives d) : s.Reads d := by
  induction h with
  | block hd hb ih => exact .block hd fun s hs => ⟨hb s hs, ih s hs⟩
  | expression h => exact .expression h
  | print h => exact .print h
  | var hn h => exact .var hn h

end Stmt

namespace Parsed

lemma ofTokens_of_spells (program : List Stmt) {ts : List Token} {last : Token} (hp : ∀ s ∈ program, s.Derives 0)
    (hs : Spells (Stmt.spellingEach program) ts) (hl : last.isEof = true) :
    ofTokens (ts ++ [last]) = .ok ⟨program, []⟩ := by
  have hread : Parser.declarations (· == .eof) (Parser.recovering false (above maxNesting).declaration)
      ⟨ts ++ [last], 0, []⟩ = .ok program ⟨[last], 0, []⟩ :=
    Stmt.declarations_ok rfl hl (fun k hk _ => by simpa using hk) (fun s hs => ⟨hp s hs, (hp s hs).reads⟩) hs
  rw [ofTokens, hread]
  rfl

theorem ofTokens_spelling (program : List Stmt) (ts : List Token) (last : Token) (hp : ∀ s ∈ program, s.Derives 0)
    (hs : Spells (Stmt.spellingEach program) ts) (hl : last.isEof = true) :
    ofTokens (ts ++ [last]) = .ok ⟨program, []⟩ ∧
      ∀ other : List Stmt, (∀ s ∈ other, s.Derives 0) → Spells (Stmt.spellingEach other) ts → other = program := by
  have h := ofTokens_of_spells program hp hs hl
  refine ⟨h, fun other ho hos => ?_⟩
  have h' := ofTokens_of_spells other ho hos hl
  rw [h] at h'
  exact (congrArg statements (Except.ok.inj h')).symm

def minus : Token :=
  ⟨.symbol .minus, "-", 1⟩

def differences : List Stmt :=
  -- `{print true - nil - -x;}`
  [.block [.print (.binary (.binary (.literal (.bool true)) minus (.literal .nil)) minus
    (.unary minus (.variable ⟨.identifier "x", "x", 1⟩)))]]

lemma differences_derives : ∀ s ∈ differences, s.Derives 0 := by
  have hminus : Tier.term.isOperator minus.kind = true := rfl
  have hfirst : Expr.Derives .unary 1 (.literal (.bool true)) := .primary (.literal _)
  have hsecond : Expr.Derives .unary 2 (.literal .nil) := .primary (.literal _)
  have hthird : Expr.Derives .unary 3 (.unary minus (.variable ⟨.identifier "x", "x", 1⟩)) :=
    .unary rfl (by decide) (.primary (.name rfl))
  have hlink := Expr.Derives.link (.first .term (hfirst.asOperand .term)) hminus (by decide) (hsecond.asOperand .term)
  have hterm := Expr.Derives.level (.link hlink hminus (by decide) (hthird.asOperand .term))
  intro s hs
  obtain rfl := List.mem_singleton.mp hs
  refine .block (by decide) fun s hs => ?_
  obtain rfl := List.mem_singleton.mp hs
  exact .print (.equality (.level (.first .equality (.level (.first .comparison hterm)))))

theorem ofTokens_spelling_differences :
    (∀ s ∈ differences, s.Derives 0) ∧
      Spells (Stmt.spellingEach differences) ((Stmt.spellingEach differences).map Mark.token) ∧
      (Token.endAt 2).isEof = true ∧
      ofTokens ((Stmt.spellingEach differences).map Mark.token ++ [Token.endAt 2]) = .ok ⟨differences, []⟩ :=
  ⟨differences_derives, .map_token _, rfl,
    (ofTokens_spelling differences _ (Token.endAt 2) differences_derives (.map_token _) rfl).1⟩

end Parsed

end Lox
