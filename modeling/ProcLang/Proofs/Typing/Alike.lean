import ProcLang.Proofs.Typing.Erasure

/-! # Trees that differ in slots only

Two trees are alike if they have the same constructors and the same names everywhere, whatever their
slots hold. That is so if they are equal up to erasing.
-/

namespace ProcLang

set_option autoImplicit false

inductive Expr.Alike : Expr → Expr → Prop
  | literal {value ty ty'} : Alike (.literal value ty) (.literal value ty')
  | group {inner inner' ty ty'} (hInner : Alike inner inner') :
    Alike (.group inner ty) (.group inner' ty')
  | binary {operator left left' right right' ty ty'} (hLeft : Alike left left')
      (hRight : Alike right right') :
    Alike (.binary operator left right ty) (.binary operator left' right' ty')
  | access {name symbol symbol' ty ty'} : Alike (.access name symbol ty) (.access name symbol' ty')
  | element {name index index' symbol symbol' ty ty'} (hIndex : Alike index index') :
    Alike (.element name index symbol ty) (.element name index' symbol' ty')
  | call {name arguments arguments' signature signature' ty ty'}
      (hArguments : List.Forall₂ Alike arguments arguments') :
    Alike (.call name arguments signature ty) (.call name arguments' signature' ty')
  | list {items items' ty ty'} (hItems : List.Forall₂ Alike items items') :
    Alike (.list items ty) (.list items' ty')

mutual

inductive Stmt.Alike : Stmt → Stmt → Prop
  | expression {e e'} (hExpr : Expr.Alike e e') : Stmt.Alike (.expression e) (.expression e')
  | declaration {name typeName value value' symbol symbol'}
      (hValue : Option.Rel Expr.Alike value value') :
    Stmt.Alike (.declaration name typeName value symbol) (.declaration name typeName value' symbol')
  | assignment {receiver receiver' value value'} (hReceiver : Expr.Alike receiver receiver')
      (hValue : Expr.Alike value value') :
    Stmt.Alike (.assignment receiver value) (.assignment receiver' value')
  | conditional {condition condition' consequent consequent' alternative alternative'}
      (hCondition : Expr.Alike condition condition')
      (hConsequent : List.Forall₂ Stmt.Alike consequent consequent')
      (hAlternative : List.Forall₂ Stmt.Alike alternative alternative') :
    Stmt.Alike (.conditional condition consequent alternative)
      (.conditional condition' consequent' alternative')
  | switch {subject subject' cases cases'} (hSubject : Expr.Alike subject subject')
      (hCases : List.Forall₂ Case.Alike cases cases') :
    Stmt.Alike (.switch subject cases) (.switch subject' cases')
  | loop {condition condition' body body'} (hCondition : Expr.Alike condition condition')
      (hBody : List.Forall₂ Stmt.Alike body body') :
    Stmt.Alike (.loop condition body) (.loop condition' body')
  | returns {value value'} (hValue : Expr.Alike value value') :
    Stmt.Alike (.returns value) (.returns value')

inductive Case.Alike : Case → Case → Prop
  | mk {value value' body body'} (hValue : Option.Rel Expr.Alike value value')
      (hBody : List.Forall₂ Stmt.Alike body body') : Case.Alike ⟨value, body⟩ ⟨value', body'⟩

end

structure Global.Alike (global global' : Global) : Prop where
  name_eq : global'.name = global.name
  isMutable_eq : global'.isMutable = global.isMutable
  value : Option.Rel Expr.Alike global.value global'.value

structure Function.Alike (function function' : Function) : Prop where
  name_eq : function'.name = function.name
  parameters_eq : function'.parameters = function.parameters
  body : List.Forall₂ Stmt.Alike function.body function'.body

structure Source.Alike (source source' : Source) : Prop where
  globals : List.Forall₂ Global.Alike source.globals source'.globals
  functions : List.Forall₂ Function.Alike source.functions source'.functions

namespace Expr

mutual

theorem alike_of_erase_eq (e e' : Expr) (h : e.erase = e'.erase) : e.Alike e' := by
  cases e with
  | literal value ty =>
    cases e' <;> simp [erase] at h
    subst h
    exact .literal
  | group inner ty =>
    cases e' <;> simp [erase] at h
    exact .group (alike_of_erase_eq inner _ h)
  | binary operator left right ty =>
    cases e' <;> simp [erase] at h
    obtain ⟨rfl, hLeft, hRight⟩ := h
    exact .binary (alike_of_erase_eq left _ hLeft) (alike_of_erase_eq right _ hRight)
  | access name symbol ty =>
    cases e' <;> simp [erase] at h
    subst h
    exact .access
  | element name index symbol ty =>
    cases e' <;> simp [erase] at h
    obtain ⟨rfl, hIndex⟩ := h
    exact .element (alike_of_erase_eq index _ hIndex)
  | call name arguments signature ty =>
    cases e' <;> simp [erase] at h
    obtain ⟨rfl, hArguments⟩ := h
    exact .call (alike_of_eraseAll_eq arguments _ hArguments)
  | list items ty =>
    cases e' <;> simp [erase] at h
    exact .list (alike_of_eraseAll_eq items _ h)

theorem alike_of_eraseAll_eq (es es' : List Expr) (h : eraseAll es = eraseAll es') :
    List.Forall₂ Alike es es' := by
  cases es with
  | nil =>
    cases es' <;> simp [eraseAll] at h
    exact .nil
  | cons e es =>
    cases es' <;> simp [eraseAll] at h
    exact .cons (alike_of_erase_eq e _ h.1) (alike_of_eraseAll_eq es _ h.2)

end

theorem alike_of_map_erase_eq {value value' : Option Expr}
    (h : value.map erase = value'.map erase) : Option.Rel Alike value value' := by
  cases value <;> cases value' <;> simp at h
  · exact .none
  · exact .some (alike_of_erase_eq _ _ h)

end Expr

namespace Stmt

mutual

theorem alike_of_erase_eq (s s' : Stmt) (h : s.erase = s'.erase) : s.Alike s' := by
  cases s with
  | expression e =>
    cases s' <;> simp [erase] at h
    exact .expression (e.alike_of_erase_eq _ h)
  | declaration name typeName value symbol =>
    cases s' <;> simp [erase] at h
    obtain ⟨rfl, rfl, hValue⟩ := h
    exact .declaration (Expr.alike_of_map_erase_eq hValue)
  | assignment receiver value =>
    cases s' <;> simp [erase] at h
    exact .assignment (receiver.alike_of_erase_eq _ h.1) (value.alike_of_erase_eq _ h.2)
  | conditional condition consequent alternative =>
    cases s' <;> simp [erase] at h
    obtain ⟨hCondition, hConsequent, hAlternative⟩ := h
    exact .conditional (condition.alike_of_erase_eq _ hCondition)
      (alike_of_eraseBlock_eq consequent _ hConsequent)
      (alike_of_eraseBlock_eq alternative _ hAlternative)
  | switch subject cases =>
    rcases s' with _ | _ | _ | _ | ⟨subject', cases'⟩ | _ | _ <;> simp [erase] at h
    exact .switch (subject.alike_of_erase_eq _ h.1) (alike_of_eraseCases_eq cases _ h.2)
  | loop condition body =>
    cases s' <;> simp [erase] at h
    exact .loop (condition.alike_of_erase_eq _ h.1) (alike_of_eraseBlock_eq body _ h.2)
  | returns value =>
    cases s' <;> simp [erase] at h
    exact .returns (value.alike_of_erase_eq _ h)

theorem alike_of_eraseBlock_eq (statements statements' : List Stmt)
    (h : eraseBlock statements = eraseBlock statements') :
    List.Forall₂ Alike statements statements' := by
  cases statements with
  | nil =>
    cases statements' <;> simp [eraseBlock] at h
    exact .nil
  | cons s rest =>
    cases statements' <;> simp [eraseBlock] at h
    exact .cons (alike_of_erase_eq s _ h.1) (alike_of_eraseBlock_eq rest _ h.2)

theorem alike_of_eraseCases_eq (cases cases' : List Case) (h : eraseCases cases = eraseCases cases') :
    List.Forall₂ Case.Alike cases cases' := by
  rcases cases with _ | ⟨⟨value, body⟩, rest⟩
  · rcases cases' with _ | ⟨⟨_, _⟩, _⟩ <;> simp [eraseCases] at h
    exact .nil
  · rcases cases' with _ | ⟨⟨value', body'⟩, rest'⟩ <;> simp [eraseCases] at h
    obtain ⟨⟨hValue, hBody⟩, hRest⟩ := h
    exact .cons ⟨Expr.alike_of_map_erase_eq hValue, alike_of_eraseBlock_eq body _ hBody⟩
      (alike_of_eraseCases_eq rest _ hRest)

end

end Stmt

theorem Global.alike_of_erase_eq {global global' : Global} (h : global.erase = global'.erase) :
    global.Alike global' := by
  simp only [erase, Global.mk.injEq] at h
  exact ⟨h.1.symm, h.2.2.1.symm, Expr.alike_of_map_erase_eq h.2.2.2.1⟩

theorem Function.alike_of_erase_eq {function function' : Function}
    (h : function.erase = function'.erase) : function.Alike function' := by
  simp only [erase, Function.mk.injEq] at h
  exact ⟨h.1.symm, h.2.1.symm, Stmt.alike_of_eraseBlock_eq _ _ h.2.2.2.2.1⟩

theorem alike_of_map_eq {α : Type} {erase : α → α} {Alike : α → α → Prop} {as as' : List α}
    (hAlike : ∀ {a a'}, erase a = erase a' → Alike a a') (h : as.map erase = as'.map erase) :
    List.Forall₂ Alike as as' := by
  have hEq : List.Forall₂ Eq (as.map erase) (as'.map erase) := by
    rw [h]
    exact List.forall₂_refl _
  rw [List.forall₂_map_left_iff, List.forall₂_map_right_iff] at hEq
  exact hEq.imp fun _ _ => hAlike

theorem Source.alike_of_erase_eq {source source' : Source} (h : source.erase = source'.erase) :
    source.Alike source' := by
  simp only [erase, Source.mk.injEq] at h
  exact ⟨alike_of_map_eq Global.alike_of_erase_eq h.1,
    alike_of_map_eq Function.alike_of_erase_eq h.2⟩

end ProcLang
