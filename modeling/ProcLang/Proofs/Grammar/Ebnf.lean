import ProcLang.Proofs.Grammar.Decoding

/-! # The grammar as data

The grammar in extended Backus-Naur form, what lexemes it derives, and when lexemes that it derives
are a spelling but for two liberties: literals of the same value, and an `ELSE` without statements.
-/

namespace ProcLang

set_option autoImplicit false

inductive Nonterminal where
  | source
  | global
  | list
  | mutable
  | immutable
  | function
  | parameter
  | block
  | statement
  | expression
  | logical
  | comparison
  | additive
  | multiplicative
  | primary
deriving DecidableEq, Repr

inductive Ebnf where
  /-- A keyword or a punctuation mark. -/
  | word (text : String)
  | kind (kind : TokenKind)
  | ref (nonterminal : Nonterminal)
  | seq (first second : Ebnf)
  | alt (first second : Ebnf)
  | star (item : Ebnf)
  | opt (item : Ebnf)
deriving DecidableEq, Repr

namespace Ebnf

instance : Append Ebnf :=
  ⟨seq⟩

instance : OrOp Ebnf :=
  ⟨alt⟩

def identifier : Ebnf :=
  kind .identifier

def optionalType : Ebnf :=
  opt (word ":" ++ identifier)

def initializer : Ebnf :=
  opt (word "=" ++ ref .expression)

/-- Items with commas between them. -/
def separated (item : Ebnf) : Ebnf :=
  item ++ star (word "," ++ item)

/-- Separated items, if there are any, and the closing parenthesis. -/
def closed (item : Ebnf) : Ebnf :=
  opt (separated item) ++ word ")"

def operators : Level → Ebnf
  | .logical => word "&&" ||| word "||"
  | .comparison => word "<" ||| word ">" ||| word "==" ||| word "!="
  | .additive => word "+" ||| word "-"
  | .multiplicative => word "*" ||| word "/" ||| word "^"

/-- Operands with the operators of a level between them. -/
def chain (level : Level) (operand : Ebnf) : Ebnf :=
  operand ++ star (operators level ++ operand)

def statement : Ebnf :=
  (word "LET" ++ identifier ++ optionalType ++ initializer ++ word ";") |||
  (word "SWITCH" ++ ref .expression ++
    star (word "CASE" ++ ref .expression ++ word ":" ++ ref .block) ++
    word "DEFAULT" ++ ref .block ++ word "END") |||
  (word "IF" ++ ref .expression ++ word "DO" ++ ref .block ++ opt (word "ELSE" ++ ref .block) ++
    word "END") |||
  (word "WHILE" ++ ref .expression ++ word "DO" ++ ref .block ++ word "END") |||
  (word "RETURN" ++ ref .expression ++ word ";") |||
  (ref .expression ++ initializer ++ word ";")

def literal : Ebnf :=
  word "NIL" ||| word "TRUE" ||| word "FALSE" |||
  kind .integer ||| kind .decimal ||| kind .character ||| kind .string

def primary : Ebnf :=
  literal |||
  (word "(" ++ ref .expression ++ word ")") |||
  (identifier ++ opt ((word "(" ++ closed (ref .expression)) |||
    (word "[" ++ ref .expression ++ word "]")))

def rule : Nonterminal → Ebnf
  | .source => star (ref .global) ++ star (ref .function)
  | .global => (ref .list ||| ref .mutable ||| ref .immutable) ++ word ";"
  | .list =>
    word "LIST" ++ identifier ++ word ":" ++ identifier ++ word "=" ++ word "[" ++
      separated (ref .expression) ++ word "]"
  | .mutable => word "VAR" ++ identifier ++ optionalType ++ initializer
  | .immutable => word "VAL" ++ identifier ++ optionalType ++ word "=" ++ ref .expression
  | .function =>
    word "FUN" ++ identifier ++ word "(" ++ closed (ref .parameter) ++ optionalType ++ word "DO" ++
      ref .block ++ word "END"
  | .parameter => identifier ++ word ":" ++ identifier
  | .block => star (ref .statement)
  | .statement => statement
  | .expression => ref .logical
  | .logical => chain .logical (ref .comparison)
  | .comparison => chain .comparison (ref .additive)
  | .additive => chain .additive (ref .multiplicative)
  | .multiplicative => chain .multiplicative (ref .primary)
  | .primary => primary

/-- The lexemes that a part of the grammar stands for. -/
inductive Derives : Ebnf → List Lexeme → Prop where
  | word (text : String) : Derives (word text) [.fixed text]
  | kind {l : Lexeme} : Derives (kind l.kind) [l]
  | ref {nonterminal : Nonterminal} {us : List Lexeme} :
    Derives (rule nonterminal) us → Derives (ref nonterminal) us
  | seq {first second : Ebnf} {us vs : List Lexeme} :
    Derives first us → Derives second vs → Derives (first ++ second) (us ++ vs)
  | left {first second : Ebnf} {us : List Lexeme} :
    Derives first us → Derives (first ||| second) us
  | right {first second : Ebnf} {us : List Lexeme} :
    Derives second us → Derives (first ||| second) us
  | done {item : Ebnf} : Derives (star item) []
  | more {item : Ebnf} {us vs : List Lexeme} :
    Derives item us → Derives (star item) vs → Derives (star item) (us ++ vs)
  | none {item : Ebnf} : Derives (opt item) []
  | some {item : Ebnf} {us : List Lexeme} : Derives item us → Derives (opt item) us

end Ebnf

/-- Lexemes that are sentences of the grammar. -/
def Sentence (lexemes : List Lexeme) : Prop :=
  Ebnf.Derives (.ref .source) lexemes

/-- `Respelled us vs` says that `vs` is `us` with other texts for the values of literals, and
without some `ELSE` that have no statements. -/
inductive Respelled : List Lexeme → List Lexeme → Prop where
  | nil : Respelled [] []
  | same {us vs : List Lexeme} (l : Lexeme) : Respelled us vs → Respelled (l :: us) (l :: vs)
  | literal {us vs : List Lexeme} {l l' : Lexeme} {value : Literal} : l'.kind = l.kind →
    Literal.ofText l.kind l.text = .ok value → Literal.ofText l'.kind l'.text = .ok value →
    Respelled us vs → Respelled (l :: us) (l' :: vs)
  | emptyElse {us vs : List Lexeme} : Respelled (.fixed "END" :: us) vs →
    Respelled (.fixed "ELSE" :: .fixed "END" :: us) vs

namespace Respelled

variable {us vs us' vs' : List Lexeme}

theorem refl (us : List Lexeme) : Respelled us us := by
  induction us with
  | nil => exact .nil
  | cons l us ih => exact .same l ih

theorem append (h : Respelled us vs) (h' : Respelled us' vs') :
    Respelled (us ++ us') (vs ++ vs') := by
  induction h with
  | nil => exact h'
  | same l _ ih => exact .same l ih
  | literal hKind hRead hSpelled _ ih => exact .literal hKind hRead hSpelled ih
  | emptyElse _ ih => exact .emptyElse ih

theorem eq_nil (h : Respelled us vs) (hNil : vs = []) : us = [] := by
  induction h with
  | nil => rfl
  | same | literal => cases hNil
  | emptyElse _ ih => cases ih hNil

end Respelled

/-- Lexemes that a part of the grammar derives, and their spelling. -/
structure Spells (grammar : Ebnf) (lexemes spelling : List Lexeme) : Prop where
  derives : grammar.Derives lexemes
  respelled : Respelled lexemes spelling

namespace Spells

open Ebnf

variable {g g' : Ebnf} {us vs us' vs' : List Lexeme}

theorem word (text : String) : Spells (word text) [.fixed text] [.fixed text] :=
  ⟨.word text, .refl _⟩

theorem identifier (text : String) : Spells identifier [.name text] [.name text] :=
  ⟨(Derives.kind : (kind (Lexeme.name text).kind).Derives [.name text]), .refl _⟩

theorem kind {l : Lexeme} {value : Literal} (hFormed : l.Formed)
    (h : Literal.ofText l.kind l.text = .ok value) : Spells (kind l.kind) [l] [value.spell] := by
  obtain ⟨hWritable, hKind⟩ := Literal.isWritable_of_ofText hFormed h
  have hIdentifier : value.spell.kind ≠ .identifier := by
    intro hIdentifier
    rw [← hKind, hIdentifier] at h
    cases h
  exact ⟨.kind, .literal hKind h (Literal.ofText_spell hWritable hIdentifier) .nil⟩

theorem ref (nonterminal : Nonterminal) (h : Spells (rule nonterminal) us vs) :
    Spells (ref nonterminal) us vs :=
  ⟨.ref h.derives, h.respelled⟩

theorem seq (h : Spells g us vs) (h' : Spells g' us' vs') :
    Spells (g ++ g') (us ++ us') (vs ++ vs') :=
  ⟨.seq h.derives h'.derives, h.respelled.append h'.respelled⟩

theorem left (h : Spells g us vs) : Spells (g ||| g') us vs :=
  ⟨.left h.derives, h.respelled⟩

theorem right (h : Spells g' us vs) : Spells (g ||| g') us vs :=
  ⟨.right h.derives, h.respelled⟩

theorem done : Spells (star g) [] [] :=
  ⟨.done, .nil⟩

theorem more (h : Spells g us vs) (h' : Spells (star g) us' vs') :
    Spells (star g) (us ++ us') (vs ++ vs') :=
  ⟨.more h.derives h'.derives, h.respelled.append h'.respelled⟩

theorem none : Spells (opt g) [] [] :=
  ⟨.none, .nil⟩

theorem some (h : Spells g us vs) : Spells (opt g) us vs :=
  ⟨.some h.derives, h.respelled⟩

/-- A literal with a kind of its own. -/
theorem literal {l : Lexeme} {value : Literal} (hFormed : l.Formed)
    (h : Literal.ofText l.kind l.text = .ok value) : Spells literal [l] [value.spell] := by
  have hKind := kind hFormed h
  obtain ⟨kind, text⟩ := l
  cases kind with
  | identifier | operator => cases h
  | integer => exact hKind.right.left.left.left
  | decimal => exact hKind.right.left.left
  | character => exact hKind.right.left
  | string => exact hKind.right

theorem literalWord {value : Literal} (h : value.spell.kind = .identifier) :
    Spells Ebnf.literal [value.spell] [value.spell] := by
  cases value with
  | nil => exact (word "NIL").left.left.left.left.left.left
  | boolean b =>
    cases b with
    | true => exact (word "TRUE").right.left.left.left.left.left
    | false => exact (word "FALSE").right.left.left.left.left
  | integer | decimal | character | string => cases h

/-- The spelling of an operator is among the operators of its level. -/
theorem operator (operator : Operator) :
    Spells (operators operator.level) [.fixed operator.symbol] [.fixed operator.symbol] := by
  cases operator with
  | and | add => exact left (word _)
  | or | subtract => exact right (word _)
  | less => exact left (left (left (word _)))
  | greater => exact left (left (right (word _)))
  | equal => exact left (right (word _))
  | notEqual => exact right (word _)
  | multiply => exact left (left (word _))
  | divide => exact left (right (word _))
  | power => exact right (word _)

end Spells

end ProcLang
