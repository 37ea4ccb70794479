import Lox.Proofs.Decimal.Text
import Lox.Proofs.Lines
import Lox.Proofs.Parse.NoLoss
import Lox.Proofs.Scan.Rescan
import Lox.Proofs.Sexp

/-! Texts of parsed trees. A tree's text is that of an S-expression, whose atoms and heads show which tokens they are,
so it gives the tree back but for its lines. -/

namespace Lox

open Initial

lemma Sexp.isBare_of_not_mem_marks {c : Char} (h : c ∉ marks) : isBare c = true := by
  have hsub : [' ', '(', ')', '"'] ⊆ marks := by decide
  rw [isBare, Bool.not_eq_true', List.contains_eq_mem, decide_eq_false_iff_not]
  exact fun hc => h (hsub hc)

section Atoms

inductive Token.Kind.Shown : Token.Kind → List Char → Prop
  | word {text : List Char} : IsWord text → Shown (Token.Kind.ofWord (String.ofList text)) text
  | string {inner : List Char} : '"' ∉ inner → Shown (.string (String.ofList inner)) ('"' :: inner ++ ['"'])
  | number {x : Float} : x.isFinite = true → Shown (.number x) (Decimal.Style.plain.text x).toList

namespace Token.Kind.Shown

variable {k l : Token.Kind} {text : List Char}

lemma readable (h : k.Shown text) : (Sexp.atom text).Readable := by
  cases h with
  | word hw =>
    cases hw with
    | mk hc hrest =>
      exact .bare (Sexp.isBare_of_not_mem_marks (not_mem_marks (by decide) hc))
        fun d hd => Sexp.isBare_of_not_mem_marks (not_mem_marks (by decide) (hrest d hd))
  | string hinner => exact .quoted hinner
  | @number x hx =>
    have hbare : ∀ c ∈ (Decimal.Style.plain.text x).toList, Sexp.isBare c = true := by
      intro c hc
      obtain rfl | rfl | hd := Decimal.Style.eq_or_isDigit_of_mem_plain_text hx hc
      · rfl
      · rfl
      · exact Sexp.isBare_of_not_mem_marks (not_mem_marks (by decide) hd)
    obtain ⟨c, rest, htext⟩ := List.exists_cons_of_ne_nil (Decimal.Style.plain_text_ne_nil hx)
    rw [htext, List.forall_mem_cons] at hbare
    rw [htext]
    exact .bare hbare.1 hbare.2

lemma head_number {x : Float} {c : Char} {rest : List Char} (hx : x.isFinite = true)
    (h : (Decimal.Style.plain.text x).toList = c :: rest) : ¬Text.isAlphabetic c = true ∧ c ≠ '"' := by
  have hc : c ∈ (Decimal.Style.plain.text x).toList := h ▸ .head _
  obtain rfl | rfl | hd := Decimal.Style.eq_or_isDigit_of_mem_plain_text hx hc
  · decide
  · decide
  · refine ⟨fun ha => not_isDigit_of_isAlphabetic ha hd, ?_⟩
    rintro rfl
    cases hd

lemma kind_eq (hk : k.Shown text) (hl : l.Shown text) : k = l := by
  cases hk with
  | word hw =>
    cases hl with
    | word _ => rfl
    | string _ => cases hw.head
    | number hx =>
      obtain ⟨c, rest, htext⟩ := List.exists_cons_of_ne_nil (Decimal.Style.plain_text_ne_nil hx)
      rw [htext] at hw
      exact absurd hw.head (head_number hx htext).1
  | string hinner =>
    generalize ht : '"' :: _ ++ ['"'] = text at hl
    cases hl with
    | word hw =>
      rw [← ht] at hw
      cases hw.head
    | string _ =>
      obtain rfl := List.append_cancel_right (List.cons.inj ht).2
      rfl
    | number hx => exact absurd rfl (head_number hx ht.symm).2
  | number hx =>
    generalize ht : (Decimal.Style.plain.text _).toList = text at hl
    cases hl with
    | word hw =>
      cases hw with
      | mk hc _ => exact absurd hc (head_number hx ht).1
    | string _ => exact absurd rfl (head_number hx ht).2
    | number hy => rw [Decimal.Style.eq_of_plain_text hx hy (String.toList_inj.mp ht)]

end Token.Kind.Shown

end Atoms

section Tokens

def Token.Kind.IsOperator (k : Token.Kind) : Prop :=
  ∃ s, k = .symbol s ∧ s ∉ [.leftParen, .rightParen, .equal]

structure Token.IsName (t : Token) : Prop where
  isIdentifier : t.kind.isIdentifier = true
  spelled : t.kind.Spelled t.lexeme.toList

structure Token.IsOperator (t : Token) : Prop where
  isOperator : t.kind.IsOperator
  spelled : t.kind.Spelled t.lexeme.toList

namespace Token

variable {t u : Token}

lemma mapLine_eq_of_lexeme (ht : t.kind.Spelled t.lexeme.toList) (hu : u.kind.Spelled u.lexeme.toList)
    (h : t.lexeme.toList = u.lexeme.toList) : t.mapLine oneLine = u.mapLine oneLine := by
  have hkind : t.kind = u.kind := (h ▸ ht).kind_eq hu
  rw [mapLine, mapLine, hkind, String.toList_inj.mp h, oneLine, oneLine]

lemma IsName.shown (h : t.IsName) : t.kind.Shown t.lexeme.toList := by
  have hk := h.isIdentifier
  have hs := h.spelled
  generalize t.kind = k, t.lexeme.toList = text at hk hs
  cases hs with
  | identifier hw hword =>
    rw [(Kind.Spelled.identifier hw hword).eq_ofWord hw]
    exact .word hw
  | _ => cases hk

lemma IsOperator.head (h : t.IsOperator) :
    t.lexeme.toList.all Sexp.isBare = true ∧ t.lexeme.toList ≠ ['='] ∧ t.lexeme.toList ≠ "group".toList := by
  obtain ⟨⟨s, hk, hs⟩, hspelled⟩ := h
  rw [hk] at hspelled
  generalize t.lexeme.toList = text at hspelled
  cases hspelled
  revert hs
  cases s <;> decide

end Token

end Tokens

section Trees

def Value.Readable : Value → Prop
  | .number x => x.isFinite = true
  | .string s => '"' ∉ s.toList
  | _ => True

lemma Value.Readable.shown {v : Value} (h : v.Readable) : v.kind.Shown v.literalText.toList := by
  match v with
  | .nil => exact .word Keyword.nilKw.isWord_spelling
  | .bool true => exact .word Keyword.trueKw.isWord_spelling
  | .bool false => exact .word Keyword.falseKw.isWord_spelling
  | .number x => exact .number h
  | .string s => simpa [Value.kind, Value.literalText] using Token.Kind.Shown.string h

lemma Value.toExpr?_kind (v : Value) : Token.toExpr? ⟨v.kind, "", 1⟩ = some (.literal v) := by
  match v with
  | .nil | .bool true | .bool false | .number _ | .string _ => rfl

lemma Value.eq_of_kind {v w : Value} (h : v.kind = w.kind) : v = w := by
  have hv := v.toExpr?_kind
  rw [h, w.toExpr?_kind] at hv
  exact (Expr.literal.inj (Option.some.inj hv)).symm

lemma Value.isIdentifier_kind (v : Value) : v.kind.isIdentifier = false := by
  match v with
  | .nil | .bool true | .bool false | .number _ | .string _ => rfl

lemma Value.Readable.literalText_ne_lexeme {v : Value} {t : Token} (hv : v.Readable) (ht : t.IsName) :
    v.literalText.toList ≠ t.lexeme.toList := by
  intro h
  have hkind := (h ▸ hv.shown).kind_eq ht.shown
  simpa [hkind, ht.isIdentifier] using v.isIdentifier_kind

namespace Expr

def sexp : Expr → Sexp
  | .literal v => .atom v.literalText.toList
  | .variable name => .atom name.lexeme.toList
  | .assign name value => .node ['='] [.atom name.lexeme.toList, value.sexp]
  | .unary op operand => .node op.lexeme.toList [operand.sexp]
  | .binary left op right => .node op.lexeme.toList [left.sexp, right.sexp]
  | .group inner => .node "group".toList [inner.sexp]

lemma toList_render (e : Expr) : e.render.toList = e.sexp.text := by
  induction e with
  | literal v => rfl
  | «variable» name => rfl
  | assign name value ih => simp [render, sexp, Sexp.text, Sexp.textEach, ih]
  | unary op operand ih => simp [render, sexp, Sexp.text, Sexp.textEach, ih]
  | binary left op right ihl ihr => simp [render, sexp, Sexp.text, Sexp.textEach, ihl, ihr]
  | group inner ih => simp [render, sexp, Sexp.text, Sexp.textEach, ih]

inductive Readable : Expr → Prop
  | literal {v : Value} : v.Readable → Readable (.literal v)
  | name {t : Token} : t.IsName → Readable (.variable t)
  | assign {t : Token} {value : Expr} : t.IsName → Readable value → Readable (.assign t value)
  | unary {op : Token} {operand : Expr} : op.IsOperator → Readable operand → Readable (.unary op operand)
  | binary {left right : Expr} {op : Token} : op.IsOperator → Readable left → Readable right →
      Readable (.binary left op right)
  | group {inner : Expr} : Readable inner → Readable (.group inner)

lemma Readable.sexp {e : Expr} (h : e.Readable) : e.sexp.Readable := by
  induction h with
  | literal hv => exact hv.shown.readable
  | name ht => exact ht.shown.readable
  | assign ht _ ih => exact .node (by simp [Sexp.isBare]) (by simpa using ⟨ht.shown.readable, ih⟩)
  | unary hop _ ih => exact .node (List.all_eq_true.mp hop.head.1) (by simpa using ih)
  | binary hop _ _ ihl ihr => exact .node (List.all_eq_true.mp hop.head.1) (by simpa using ⟨ihl, ihr⟩)
  | group _ ih => exact .node (List.all_eq_true.mp (by decide)) (by simpa using ih)

lemma Readable.eq_of_sexp {e f : Expr} (he : e.Readable) (hf : f.Readable) (h : e.sexp = f.sexp) :
    e.mapLine oneLine = f.mapLine oneLine := by
  induction he generalizing f with
  | @literal v hv =>
    cases hf with
    | @literal w hw =>
      have hkind : v.kind = w.kind := (Sexp.atom.inj h ▸ hv.shown).kind_eq hw.shown
      rw [Value.eq_of_kind hkind]
    | name hu => exact absurd (Sexp.atom.inj h) (hv.literalText_ne_lexeme hu)
    | _ => cases h
  | name ht =>
    cases hf with
    | literal hw => exact absurd (Sexp.atom.inj h).symm (hw.literalText_ne_lexeme ht)
    | name hu => rw [mapLine, mapLine, Token.mapLine_eq_of_lexeme ht.spelled hu.spelled (Sexp.atom.inj h)]
    | _ => cases h
  | assign ht _ ih =>
    cases hf with
    | assign hu hvalue =>
      simp only [Expr.sexp, Sexp.node.injEq, List.cons.injEq, Sexp.atom.injEq, true_and, and_true] at h
      rw [mapLine, mapLine, Token.mapLine_eq_of_lexeme ht.spelled hu.spelled h.1, ih hvalue h.2]
    | binary hop _ _ => exact absurd (Sexp.node.inj h).1.symm hop.head.2.1
    | _ => simp [Expr.sexp] at h
  | unary hop _ ih =>
    cases hf with
    | unary hop' hoperand =>
      simp only [Expr.sexp, Sexp.node.injEq, List.cons.injEq, and_true] at h
      rw [mapLine, mapLine, Token.mapLine_eq_of_lexeme hop.spelled hop'.spelled h.1, ih hoperand h.2]
    | group _ => exact absurd (Sexp.node.inj h).1 hop.head.2.2
    | _ => simp [Expr.sexp] at h
  | binary hop _ _ ihl ihr =>
    cases hf with
    | assign _ _ => exact absurd (Sexp.node.inj h).1 hop.head.2.1
    | binary hop' hleft hright =>
      simp only [Expr.sexp, Sexp.node.injEq, List.cons.injEq, and_true] at h
      rw [mapLine, mapLine, Token.mapLine_eq_of_lexeme hop.spelled hop'.spelled h.1, ihl hleft h.2.1, ihr hright h.2.2]
    | _ => simp [Expr.sexp] at h
  | group _ ih =>
    cases hf with
    | unary hop _ => exact absurd (Sexp.node.inj h).1.symm hop.head.2.2
    | group hinner =>
      simp only [Expr.sexp, Sexp.node.injEq, List.cons.injEq, true_and, and_true] at h
      rw [mapLine, mapLine, ih hinner h]
    | _ => simp [Expr.sexp] at h

end Expr

namespace Stmt

mutual

def sexp : Stmt → Sexp
  | .block body => .node "block".toList (sexpEach body)
  | .expression e => .node [';'] [e.sexp]
  | .print e => .node "print".toList [e.sexp]
  | .var name init => .node "var".toList (.atom name.lexeme.toList :: init.toList.map Expr.sexp)

def sexpEach : List Stmt → List Sexp
  | [] => []
  | s :: rest => s.sexp :: sexpEach rest

end

mutual

lemma toList_render : ∀ s : Stmt, s.render.toList = s.sexp.text
  | .block body => by simp [render, sexp, Sexp.text, toList_renderEach body]
  | .expression e => by simp [render, sexp, Sexp.text, Sexp.textEach, e.toList_render]
  | .print e => by simp [render, sexp, Sexp.text, Sexp.textEach, e.toList_render]
  | .var name none => by simp [render, sexp, Sexp.text, Sexp.textEach]
  | .var name (some e) => by simp [render, sexp, Sexp.text, Sexp.textEach, e.toList_render]

lemma toList_renderEach : ∀ body : List Stmt, (renderEach body).toList = Sexp.textEach (sexpEach body)
  | [] => rfl
  | s :: rest => by simp [renderEach, sexpEach, Sexp.textEach, toList_render s, toList_renderEach rest]

end

lemma sexpEach_eq_map (body : List Stmt) : sexpEach body = body.map sexp := by
  induction body with
  | nil => rfl
  | cons s body ih => rw [sexpEach, ih, List.map_cons]

inductive Readable : Stmt → Prop
  | block {body : List Stmt} : (∀ s ∈ body, Readable s) → Readable (.block body)
  | expression {e : Expr} : e.Readable → Readable (.expression e)
  | print {e : Expr} : e.Readable → Readable (.print e)
  | var {name : Token} {init : Option Expr} : name.IsName → (∀ e ∈ init, e.Readable) → Readable (.var name init)

lemma Readable.sexp {s : Stmt} (h : s.Readable) : s.sexp.Readable := by
  induction h with
  | block _ ih =>
    rw [Stmt.sexp, sexpEach_eq_map]
    exact .node (List.all_eq_true.mp (by decide)) (List.forall_mem_map.mpr ih)
  | expression he => exact .node (by simp [Sexp.isBare]) (by simpa using he.sexp)
  | print he => exact .node (List.all_eq_true.mp (by decide)) (by simpa using he.sexp)
  | var hname hinit =>
    refine .node (List.all_eq_true.mp (by decide)) (List.forall_mem_cons.mpr ⟨hname.shown.readable, ?_⟩)
    exact List.forall_mem_map.mpr fun e he => (hinit e (Option.mem_toList.mp he)).sexp

lemma mapLineEach_eq_of_sexpEach {body body' : List Stmt}
    (ih : ∀ s ∈ body, ∀ t : Stmt, t.Readable → s.sexp = t.sexp → s.mapLine oneLine = t.mapLine oneLine)
    (hbody' : ∀ t ∈ body', t.Readable) (h : sexpEach body = sexpEach body') :
    mapLineEach oneLine body = mapLineEach oneLine body' := by
  induction body generalizing body' with
  | nil =>
    cases body' with
    | nil => rfl
    | cons t body' => cases h
  | cons s body ihbody =>
    cases body' with
    | nil => cases h
    | cons t body' =>
      rw [List.forall_mem_cons] at ih hbody'
      obtain ⟨hhead, htail⟩ := List.cons.inj h
      rw [mapLineEach, mapLineEach, ih.1 t hbody'.1 hhead, ihbody ih.2 hbody'.2 htail]

lemma mapLine_init_eq_of_sexp {init init' : Option Expr} (hinit : ∀ e ∈ init, e.Readable)
    (hinit' : ∀ e ∈ init', e.Readable) (h : init.toList.map Expr.sexp = init'.toList.map Expr.sexp) :
    init.map (Expr.mapLine oneLine) = init'.map (Expr.mapLine oneLine) := by
  cases init with
  | none =>
    cases init' with
    | none => rfl
    | some f => cases h
  | some e =>
    cases init' with
    | none => cases h
    | some f =>
      have hef := (hinit e rfl).eq_of_sexp (hinit' f rfl) (List.cons.inj h).1
      rw [Option.map_some, Option.map_some, hef]

lemma Readable.eq_of_sexp {s t : Stmt} (hs : s.Readable) (ht : t.Readable) (h : s.sexp = t.sexp) :
    s.mapLine oneLine = t.mapLine oneLine := by
  induction hs generalizing t with
  | block _ ih =>
    cases ht with
    | block hbody => rw [mapLine, mapLine, mapLineEach_eq_of_sexpEach (fun s hs t => ih s hs) hbody (Sexp.node.inj h).2]
    | _ => exact absurd (Sexp.node.inj h).1 (by decide)
  | expression he =>
    cases ht with
    | expression hf => rw [mapLine, mapLine, he.eq_of_sexp hf (List.cons.inj (Sexp.node.inj h).2).1]
    | _ => exact absurd (Sexp.node.inj h).1 (by decide)
  | print he =>
    cases ht with
    | print hf => rw [mapLine, mapLine, he.eq_of_sexp hf (List.cons.inj (Sexp.node.inj h).2).1]
    | _ => exact absurd (Sexp.node.inj h).1 (by decide)
  | var hname hinit =>
    cases ht with
    | var hname' hinit' =>
      obtain ⟨hatom, hrest⟩ := List.cons.inj (Sexp.node.inj h).2
      rw [mapLine, mapLine, Token.mapLine_eq_of_lexeme hname.spelled hname'.spelled (Sexp.atom.inj hatom),
        mapLine_init_eq_of_sexp hinit hinit' hrest]
    | _ => exact absurd (Sexp.node.inj h).1 (by decide)

end Stmt

end Trees

section Scanned

def Mark.Readable : Mark → Prop
  | .own t => t.kind.Spelled t.lexeme.toList
  | .any (.number x) => x.isFinite = true
  | .any (.string s) => '"' ∉ s.toList
  | .any _ => True

def Mark.number? : Mark → Option Float
  | .any (.number x) => some x
  | _ => none

lemma Mark.Accepts.readable {m : Mark} {t : Token} (h : m.Accepts t) (ht : t.kind.Spelled t.lexeme.toList)
    (hm : ∀ x ∈ m.number?, x.isFinite = true) : m.Readable := by
  cases m with
  | own u =>
    obtain rfl : t = u := h
    exact ht
  | any k =>
    obtain rfl : t.kind = k := h
    generalize t.kind = k, t.lexeme.toList = text at ht hm
    cases ht with
    | string hinner => simpa [Mark.Readable] using hinner
    | integer _ | decimal _ _ => exact hm _ rfl
    | symbol _ | keyword _ | identifier _ _ => trivial

lemma Value.readable_of_mark {v : Value} (h : (Mark.any v.kind).Readable) : v.Readable := by
  match v with
  | .nil | .bool _ => trivial
  | .number _ | .string _ => exact h

lemma isOperator_of_isUnaryOperator {k : Token.Kind} (h : isUnaryOperator k = true) : k.IsOperator := by
  rw [isUnaryOperator, Bool.or_eq_true, beq_iff_eq, beq_iff_eq] at h
  obtain rfl | rfl := h
  · exact ⟨.bang, rfl, by decide⟩
  · exact ⟨.minus, rfl, by decide⟩

lemma Tier.kind_isOperator {tier : Tier} {k : Token.Kind} (h : tier.isOperator k = true) : k.IsOperator := by
  cases k with
  | symbol s =>
    refine ⟨s, rfl, ?_⟩
    change tier.hasOperator s = true at h
    revert h
    cases tier <;> cases s <;> decide
  | _ => cases h

lemma Expr.Derives.readable {rule : Rule} {d : ℕ} {e : Expr} (h : e.Derives rule d)
    (hm : ∀ m ∈ e.spelling, m.Readable) : e.Readable := by
  induction h with
  | literal v => exact .literal (Value.readable_of_mark (hm _ (.head _)))
  | name ht => exact .name ⟨ht, hm _ (.head _)⟩
  | group _ _ ih => exact .group (ih fun m h => hm m (by simp [spelling, h]))
  | primary _ ih | first _ _ ih | level _ ih | equality _ ih => exact ih hm
  | unary hop _ _ ih =>
    exact .unary ⟨isOperator_of_isUnaryOperator hop, hm _ (.head _)⟩ (ih fun m h => hm m (by simp [spelling, h]))
  | @link _ _ _ _ _ op _ hop _ _ ihl ihr =>
    have hspelled : (Mark.own op).Readable := hm _ (by simp [spelling])
    exact .binary ⟨Tier.kind_isOperator hop, hspelled⟩ (ihl fun m h => hm m (by simp [spelling, h]))
      (ihr fun m h => hm m (by simp [spelling, h]))
  | assign ht _ _ ih => exact .assign ⟨ht, hm _ (.head _)⟩ (ih fun m h => hm m (by simp [spelling, h]))

namespace Stmt

lemma Derives.readable {d : ℕ} {s : Stmt} (h : s.Derives d) (hm : ∀ m ∈ s.spelling, m.Readable) : s.Readable := by
  induction h with
  | block _ _ ih =>
    exact .block fun s hs => ih s hs fun m h => hm m (by simp [spelling, spelling_subset_spellingEach hs h])
  | expression h => exact .expression (h.readable fun m hme => hm m (by simp [spelling, hme]))
  | print h => exact .print (h.readable fun m hme => hm m (by simp [spelling, hme]))
  | var ht h =>
    refine .var ⟨ht, hm _ (.tail _ (.head _))⟩ ?_
    rintro e ⟨⟩
    exact (h e rfl).readable fun m hme => hm m (by simp [spelling, initSpelling, hme])

def numbers (s : Stmt) : List Float :=
  s.spelling.filterMap Mark.number?

end Stmt

lemma Parsed.readable {source : String} {parsed : Parsed} (h : ofTokens (scanned source).tokens = .ok parsed) {s : Stmt}
    (hs : s ∈ parsed.statements) (hn : ∀ x ∈ s.numbers, x.isFinite = true) : s.Readable := by
  obtain ⟨hd, ts, t, rest, htokens, -, hno, us, hsub, hspells, -⟩ := ofTokens_ok h
  refine (hd s hs).readable fun m hm => ?_
  obtain ⟨u, hu, ha⟩ := hspells.exists_accepts (Stmt.spelling_subset_spellingEach hs hm)
  have huts := hsub.subset hu
  have hspelled : u.kind.Spelled u.lexeme.toList :=
    spelled_of_mem_tokens (htokens ▸ List.mem_append_left _ huts) (hno u huts)
  exact ha.readable hspelled fun x hx => hn x (List.mem_filterMap.mpr ⟨m, hm, hx⟩)

lemma Expr.render_mapLine (f : ℕ → ℕ) (e : Expr) : (e.mapLine f).render = e.render := by
  induction e with
  | literal v => rfl
  | «variable» name => rfl
  | assign name value ih => rw [mapLine, render, ih, render, Token.mapLine]
  | unary op operand ih => rw [mapLine, render, ih, render, Token.mapLine]
  | binary left op right ihl ihr => rw [mapLine, render, ihl, ihr, render, Token.mapLine]
  | group inner ih => rw [mapLine, render, ih, render]

mutual

lemma Stmt.render_mapLine (f : ℕ → ℕ) : ∀ s : Stmt, (s.mapLine f).render = s.render
  | .block body => by rw [mapLine, render, Stmt.renderEach_mapLine f body, render]
  | .expression e => by rw [mapLine, render, e.render_mapLine, render]
  | .print e => by rw [mapLine, render, e.render_mapLine, render]
  | .var name none => rfl
  | .var name (some e) => by rw [mapLine, Option.map_some, render, e.render_mapLine, render, Token.mapLine]

lemma Stmt.renderEach_mapLine (f : ℕ → ℕ) : ∀ body : List Stmt, renderEach (mapLineEach f body) = renderEach body
  | [] => rfl
  | s :: rest => by rw [mapLineEach, renderEach, Stmt.render_mapLine f s, Stmt.renderEach_mapLine f rest, renderEach]

end

end Scanned

namespace Parsed

theorem render_eq_iff (source source' : String) (scan scan' : Scan) (parsed parsed' : Parsed)
    (hscan : Lox.scan source = .ok scan) (hscan' : Lox.scan source' = .ok scan')
    (h : ofTokens scan.tokens = .ok parsed) (h' : ofTokens scan'.tokens = .ok parsed')
    (s t : Stmt) (hs : s ∈ parsed.statements) (ht : t ∈ parsed'.statements)
    (hsn : ∀ x ∈ s.numbers, x.isFinite = true) (htn : ∀ x ∈ t.numbers, x.isFinite = true) :
    s.render = t.render ↔ s.mapLine oneLine = t.mapLine oneLine := by
  obtain rfl := Except.ok.inj ((scan_eq source).symm.trans hscan)
  obtain rfl := Except.ok.inj ((scan_eq source').symm.trans hscan')
  have hsr := readable h hs hsn
  have htr := readable h' ht htn
  constructor
  · intro hrender
    have htext : s.sexp.text = t.sexp.text := by rw [← s.toList_render, ← t.toList_render, hrender]
    exact hsr.eq_of_sexp htr (hsr.sexp.eq_of_text htr.sexp htext)
  · intro hlines
    rw [← s.render_mapLine oneLine, hlines, t.render_mapLine]

def twoDashes (unary binary name : ℕ) : Stmt :=
  -- `{ print -1.5 - ("a) (b"); var group; }`, with the lines of its two dashes and of its name.
  .block
    [.print (.binary (.unary ⟨.symbol .minus, "-", unary⟩ (.literal (.number 1.5))) ⟨.symbol .minus, "-", binary⟩
      (.group (.literal (.string "a) (b")))),
    .var ⟨.identifier "group", "group", name⟩ none]

def oneLiner : String :=
  "\x7b print -1.50 - (\"a) (b\"); var group; \x7d"

def threeLiner : String :=
  "\x7bprint-01.5\n-(\"a) (b\");\nvar group;\x7d"

theorem render_eq_iff_twoDashes :
    ∃ scan scan', Lox.scan oneLiner = .ok scan ∧ Lox.scan threeLiner = .ok scan' ∧
      ofTokens scan.tokens = .ok ⟨[twoDashes 1 1 1], []⟩ ∧ ofTokens scan'.tokens = .ok ⟨[twoDashes 1 2 3], []⟩ ∧
      ((twoDashes 1 1 1).render = (twoDashes 1 2 3).render ↔
        (twoDashes 1 1 1).mapLine oneLine = (twoDashes 1 2 3).mapLine oneLine) := by
  have hrun : ∀ source parsed, ((Lox.scan source).toOption.map fun scan => ofTokens scan.tokens) = some (.ok parsed) →
      ∃ scan, Lox.scan source = .ok scan ∧ ofTokens scan.tokens = .ok parsed := by
    intro source parsed h
    rw [scan_eq] at h ⊢
    exact ⟨_, rfl, Option.some.inj h⟩
  obtain ⟨scan, hscan, h⟩ := hrun oneLiner ⟨[twoDashes 1 1 1], []⟩ (by decide +kernel)
  obtain ⟨scan', hscan', h'⟩ := hrun threeLiner ⟨[twoDashes 1 2 3], []⟩ (by decide +kernel)
  exact ⟨scan, scan', hscan, hscan', h, h', render_eq_iff _ _ _ _ _ _ hscan hscan' h h' _ _ (.head _) (.head _)
    (by decide +kernel) (by decide +kernel)⟩

end Parsed

end Lox
