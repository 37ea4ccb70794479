import Lox.Proofs.Scan.Lossless

namespace Lox

inductive Sexp where
  | atom (text : List Char)
  | node (head : List Char) (args : List Sexp)

namespace Sexp

mutual

def text : Sexp → List Char
  | .atom text => text
  | .node head args => '(' :: head ++ textEach args ++ [')']

def textEach : List Sexp → List Char
  | [] => []
  | a :: rest => ' ' :: a.text ++ textEach rest

end

def isBare (c : Char) : Bool :=
  !([' ', '(', ')', '"'].contains c)

inductive Readable : Sexp → Prop
  | bare {c : Char} {text : List Char} : isBare c = true → (∀ d ∈ text, isBare d = true) → Readable (.atom (c :: text))
  | quoted {inner : List Char} : '"' ∉ inner → Readable (.atom ('"' :: inner ++ ['"']))
  | node {head : List Char} {args : List Sexp} : (∀ c ∈ head, isBare c = true) → (∀ a ∈ args, Readable a) →
      Readable (.node head args)

def Closes (rest : List Char) : Prop :=
  ∀ c ∈ rest.head?, isBare c = false

lemma closes_textEach (args : List Sexp) (rest : List Char) : Closes (textEach args ++ ')' :: rest) := by
  cases args with
  | nil =>
    rintro c ⟨⟩
    rfl
  | cons a args =>
    rintro c ⟨⟩
    rfl

/-- Before what closes it, the tree's text is the beginning of no other. -/
def Unique (a : Sexp) : Prop :=
  ∀ b : Sexp, b.Readable → ∀ r s, Closes r → Closes s → a.text ++ r = b.text ++ s → a = b ∧ r = s

lemma textEach_unique {args args' : List Sexp} {r s : List Char} (ha : ∀ a ∈ args, a.Unique)
    (hb : ∀ b ∈ args', b.Readable) (h : textEach args ++ ')' :: r = textEach args' ++ ')' :: s) :
    args = args' ∧ r = s := by
  induction args generalizing args' with
  | nil =>
    cases args' with
    | nil => exact ⟨rfl, (List.cons.inj h).2⟩
    | cons b args' => cases h
  | cons a args ih =>
    cases args' with
    | nil => cases h
    | cons b args' =>
      rw [List.forall_mem_cons] at ha hb
      simp only [textEach, List.cons_append, List.append_assoc, List.cons.injEq, true_and] at h
      obtain ⟨rfl, hrest⟩ := ha.1 b hb.1 _ _ (closes_textEach args r) (closes_textEach args' s) h
      obtain ⟨rfl, rfl⟩ := ih ha.2 hb.2 hrest
      exact ⟨rfl, rfl⟩

lemma unique_bare {c : Char} {word : List Char} (hc : isBare c = true) (hword : ∀ d ∈ word, isBare d = true) :
    (Sexp.atom (c :: word)).Unique := by
  intro b hb r s hr hs h
  cases hb with
  | bare hc' hword' =>
    obtain ⟨rfl, hrest⟩ := List.cons.inj h
    obtain ⟨rfl, rfl⟩ := run_unique hword hr hword' hs hrest
    exact ⟨rfl, rfl⟩
  | quoted hinner =>
    obtain ⟨rfl, -⟩ := List.cons.inj h
    cases hc
  | node hhead hargs =>
    obtain ⟨rfl, -⟩ := List.cons.inj h
    cases hc

lemma unique_quoted {inner : List Char} (hinner : '"' ∉ inner) : (Sexp.atom ('"' :: inner ++ ['"'])).Unique := by
  have hstop (rest : List Char) : ∀ c ∈ ('"' :: rest).head?, (c != '"') = false := by simp
  intro b hb r s hr hs h
  cases hb with
  | bare hc hword =>
    obtain ⟨rfl, -⟩ := List.cons.inj h
    cases hc
  | quoted hinner' =>
    simp only [text, List.cons_append, List.append_assoc, List.nil_append, List.cons.injEq, true_and] at h
    obtain ⟨rfl, hrest⟩ := run_unique (ne_quote_of_not_mem hinner) (hstop r) (ne_quote_of_not_mem hinner') (hstop s) h
    exact ⟨rfl, (List.cons.inj hrest).2⟩
  | node hhead hargs => cases h

lemma unique_node {head : List Char} {args : List Sexp} (hhead : ∀ c ∈ head, isBare c = true)
    (hargs : ∀ a ∈ args, a.Unique) : (Sexp.node head args).Unique := by
  intro b hb r s hr hs h
  cases hb with
  | bare hc hword =>
    obtain ⟨rfl, -⟩ := List.cons.inj h
    cases hc
  | quoted hinner => cases h
  | @node head' args' hhead' hargs' =>
    simp only [text, List.cons_append, List.append_assoc, List.nil_append, List.cons.injEq, true_and] at h
    obtain ⟨rfl, hrest⟩ := run_unique hhead (closes_textEach args r) hhead' (closes_textEach args' s) h
    obtain ⟨rfl, rfl⟩ := textEach_unique hargs hargs' hrest
    exact ⟨rfl, rfl⟩

lemma Readable.unique {a : Sexp} (h : a.Readable) : a.Unique := by
  induction h with
  | bare hc hword => exact unique_bare hc hword
  | quoted hinner => exact unique_quoted hinner
  | node hhead _ ih => exact unique_node hhead ih

lemma Readable.eq_of_text {a b : Sexp} (ha : a.Readable) (hb : b.Readable) (h : a.text = b.text) : a = b := by
  have hnil : Closes [] := fun c hc => by cases hc
  exact (ha.unique b hb [] [] hnil hnil (by rw [h])).1

end Sexp

end Lox
