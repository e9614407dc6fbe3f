import ProcLang.Proofs.Safety.Evaluation

/-! # Soundness of declarations and assignments

Declarations add a binding to the current scope, and assignments change one that the context knows.
Either way the binding agrees with its symbol.
-/

namespace ProcLang

set_option autoImplicit false

variable {types : TypeRegistry} {typed : Prop} {W : World} {caller : Option Function}
  {Φ : StoreTyping} {Γ : Context} {machine : Machine} {n : Nat}

namespace Ready

theorem safe_define (h : Ready typed W caller Φ Γ machine.store machine.env.current)
    (hCurrent : 0 < machine.env.current) (symbol : Variable) {value : Value}
    (hMutable : symbol.isMutable = true)
    (hAdmits : typed → symbol.ty.admits value.tag = true)
    (hSpecific : typed → symbol.ty ≠ .comparable) :
    (Exec.define symbol.name value true machine).Safe typed W.functions 0 Φ machine
      fun _ Φ' machine' =>
        Ready typed W caller Φ' (Γ.bind symbol) machine'.store machine'.env.current := by
  have hAgrees : Agrees typed symbol ⟨value, true⟩ := ⟨hMutable.symm, hAdmits⟩
  have hDefined := h.define hCurrent hAgrees hSpecific
  exact ⟨_, ⟨hDefined.conforms, Extends.define Φ h.current_lt symbol.name symbol value true, rfl⟩,
    hDefined⟩

theorem safe_assign (h : Ready typed W caller Φ Γ machine.store machine.env.current) {name : String}
    {symbol : Variable} {value : Value} (hSymbol : Γ.symbol? name = some symbol)
    (hMutable : symbol.isMutable = true) (hAdmits : typed → symbol.ty.admits value.tag = true) :
    (Exec.assign name value machine).Safe typed W.functions 1 Φ machine fun _ _ _ => True := by
  obtain ⟨owner, binding, hResolve, hOwnerLe, hOwner, hBinding⟩ := h.resolve hSymbol
  have hTarget : machine.store.assignmentTarget machine.env.current name = .ok owner := by
    rw [Store.assignmentTarget, hResolve]
    exact if_pos (hBinding.isMutable.trans hMutable)
  obtain ⟨hConforms, hExtends⟩ := h.assign (Nat.lt_of_le_of_lt hOwnerLe h.current_lt) hOwner
    ⟨hMutable.symm, hAdmits⟩
  unfold Exec.assign
  rw [hTarget]
  exact ⟨Φ, ⟨hConforms, hExtends, rfl⟩, trivial⟩

end Ready

theorem Outcome.Safe.settled {outcome : Outcome Completion}
    (hReady : Ready typed W caller Φ Γ machine.store machine.env.current)
    (h : outcome.Safe typed W.functions 1 Φ machine fun completion _ _ => completion.Kept typed Γ) :
    outcome.Safe typed W.functions 0 Φ machine (Completion.Settled typed W caller Γ Γ) := by
  refine Outcome.Safe.drop_margin (h.imp ?_)
  intro completion Φ' machine' hLeaves hKept
  exact ⟨hKept, fun _ => hReady.of_leaves hLeaves⟩

theorem Completion.kept_normal : Completion.normal.Kept typed Γ :=
  nofun

namespace Sound

variable {name : String} {value index : Expr} {symbol : Variable}

theorem assign_variable (h : Sound types typed W n) {valueType : Ty} {slot : Option Ty}
    (hReady : Ready typed W caller Φ Γ machine.store machine.env.current)
    (hSymbol : Γ.symbol? name = some symbol) (hMutable : symbol.isMutable = true)
    (hValue : value.HasType Γ valueType) (hFree : typed → value.isIndexFree = true)
    (hAccepted : symbol.ty.accepts valueType = true) :
    (Exec.execute (n + 1) (.assignment (.access name (some symbol) slot) value) machine).Safe typed
      W.functions 1 Φ machine fun completion _ _ => completion.Kept typed Γ := by
  refine Exec.safe_bind (h.evaluate (.evaluate_typed hReady hValue hFree)) ?_
  intro result Φ₁ machine₁ hLeaves₁ hFits
  have hAdmits (hTyped : typed) :=
    Ty.admits_of_accepts hAccepted (hValue.admits (hFits hTyped))
  refine Exec.safe_bind ((hReady.of_leaves hLeaves₁).safe_assign hSymbol hMutable hAdmits) ?_
  intro _ Φ₂ machine₂ hLeaves₂ _
  exact Exec.safe_pure hLeaves₂.conforms Completion.kept_normal

theorem assign_element (h : Sound types typed W n) (hUntyped : ¬typed) {valueType : Ty}
    {slot : Option Ty} (hReady : Ready typed W caller Φ Γ machine.store machine.env.current)
    (hSymbol : Γ.symbol? name = some symbol) (hMutable : symbol.isMutable = true)
    (hIndex : index.HasType Γ .integer) (hValue : value.HasType Γ valueType) :
    (Exec.execute (n + 1) (.assignment (.element name index (some symbol) slot) value) machine).Safe
      typed W.functions 1 Φ machine fun completion _ _ => completion.Kept typed Γ := by
  have hFree {e : Expr} (hTyped : typed) : e.isIndexFree = true := absurd hTyped hUntyped
  refine Exec.safe_bind (hReady.safe_lookup hSymbol) ?_
  intro list Φ₁ machine₁ hLeaves₁ _
  have hReady₁ := hReady.of_leaves hLeaves₁
  refine Exec.safe_bind (Exec.safe_ofExcept_of_untyped hUntyped hLeaves₁.conforms
    fun error hError => Value.isNaming_of_items hError) ?_
  intro items Φ₂ machine₂ hLeaves₂ _
  have hReady₂ := hReady₁.of_leaves hLeaves₂
  refine Exec.safe_bind (h.evaluate (.evaluate_typed hReady₂ hIndex hFree)) ?_
  intro i Φ₃ machine₃ hLeaves₃ _
  have hReady₃ := hReady₂.of_leaves hLeaves₃
  refine Exec.safe_bind (Exec.safe_ofExcept_of_untyped hUntyped hLeaves₃.conforms
    fun error hError => Value.isNaming_of_position hError) ?_
  intro position Φ₄ machine₄ hLeaves₄ _
  have hReady₄ := hReady₃.of_leaves hLeaves₄
  refine Exec.safe_bind (h.evaluate (.evaluate_typed hReady₄ hValue hFree)) ?_
  intro result Φ₅ machine₅ hLeaves₅ _
  refine Exec.safe_bind ((hReady₄.of_leaves hLeaves₅).safe_assign hSymbol hMutable
    fun hTyped => absurd hTyped hUntyped) ?_
  intro _ Φ₆ machine₆ hLeaves₆ _
  exact Exec.safe_pure hLeaves₆.conforms Completion.kept_normal

end Sound

namespace HasBindingType

variable {typeName : Option String} {value : Expr} {ty : Ty}

theorem judged (h : HasBindingType types Γ typeName (some value) ty)
    (hPlain : typed → value.isList = false) :
    (∃ found, value.HasType Γ found ∨ ¬typed ∧ value.Initializes Γ found) ∧
      (typed → ∃ found, value.HasType Γ found ∧ ty.accepts found = true) := by
  cases h with
  | inferred hValue => exact ⟨⟨ty, .inl hValue⟩, fun _ => ⟨ty, hValue, ty.accepts_refl⟩⟩
  | initialized hType hInitial =>
    cases hInitial with
    | @value value found _ hValue hAccepted =>
      exact ⟨⟨found, .inl hValue⟩, fun _ => ⟨found, hValue, hAccepted⟩⟩
    | @items items tys hItems hAccepted =>
      have hUntyped : ¬typed := fun hTyped => nomatch hPlain hTyped
      exact ⟨⟨ty, .inr ⟨hUntyped, .items hItems hAccepted⟩⟩, fun hTyped => absurd hTyped hUntyped⟩

theorem ty_ne (hW : W.Valid types typed) (hTyped : typed) (hSees : W.Sees caller Γ)
    (hSpecific : Γ.Specific) {value? : Option Expr} (h : HasBindingType types Γ typeName value? ty)
    (hName : typeName ≠ some "Comparable") : ty ≠ .comparable := by
  cases h with
  | declared hType | initialized hType =>
    rintro rfl
    exact hName (congrArg some (hW.coherent.name_eq hType).symm)
  | inferred hValue => exact hW.ty_ne hTyped hSees hSpecific _ hValue

end HasBindingType

namespace Sound

theorem execute_declaration (hW : W.Valid types typed) (h : Sound types typed W n) {name : String}
    {typeName : Option String} {value? : Option Expr} {ty : Ty}
    (hBinding : HasBindingType types Γ typeName value? ty)
    (hTame : typed → (Stmt.declaration name typeName value? (some ⟨name, ty, true⟩)).isTame = true)
    (hReady : Ready typed W caller Φ Γ machine.store machine.env.current)
    (hCurrent : 0 < machine.env.current) :
    (Exec.execute (n + 1) (.declaration name typeName value? (some ⟨name, ty, true⟩)) machine).Safe
      typed W.functions 0 Φ machine
      (Completion.Settled typed W caller Γ (Γ.bind ⟨name, ty, true⟩)) := by
  have hSpecific (hTyped : typed) : ty ≠ .comparable := by
    have hName := hTame hTyped
    simp [Stmt.isTame, Stmt.isSpecific] at hName
    exact hBinding.ty_ne hW hTyped hReady.sees (hReady.specific hTyped) hName.1.2
  have hEnd {Φ' : StoreTyping} {machine' : Machine}
      (hReady' : Ready typed W caller Φ' (Γ.bind ⟨name, ty, true⟩) machine'.store
        machine'.env.current) :
      ((pure .normal : Exec Completion) machine').Safe typed W.functions 0 Φ' machine'
        (Completion.Settled typed W caller Γ (Γ.bind ⟨name, ty, true⟩)) :=
    Exec.safe_pure hReady'.conforms ⟨Completion.kept_normal, fun _ => hReady'⟩
  cases value? with
  | none =>
    have hUntyped : ¬typed := fun hTyped => by
      have hInitialized := hTame hTyped
      simp [Stmt.isTame, Stmt.isInitialized] at hInitialized
    refine Exec.safe_bind (hReady.safe_define hCurrent ⟨name, ty, true⟩ rfl
      (fun hTyped => absurd hTyped hUntyped) hSpecific) ?_
    intro _ Φ₁ machine₁ _ hReady₁
    exact hEnd hReady₁
  | some value =>
    have hParts (hTyped : typed) : value.isIndexFree = true ∧ value.isList = false := by
      have hValue := hTame hTyped
      simp [Stmt.isTame, Stmt.isIndexFree, Stmt.expressions, Stmt.isPlain] at hValue
      exact ⟨hValue.1.1.1, hValue.2⟩
    obtain ⟨⟨found, hJudged⟩, hFitting⟩ := hBinding.judged fun hTyped => (hParts hTyped).2
    have hEvaluated := h.evaluate
      (.of_outside ⟨found, hJudged, fun hTyped => (hParts hTyped).1⟩ hReady rfl)
    have hKept := hEvaluated.imp fun result Φ₁ machine₁ hLeaves₁ hFits =>
      And.intro (hReady.of_leaves hLeaves₁) hFits
    refine Exec.safe_bind hKept.drop_margin ?_
    rintro result Φ₁ machine₁ hLeaves₁ ⟨hReady₁, hFits⟩
    have hAdmits (hTyped : typed) : ty.admits result.tag = true := by
      obtain ⟨_, hValue, hAccepted⟩ := hFitting hTyped
      exact Ty.admits_of_accepts hAccepted (hValue.admits (hFits hTyped))
    have hCurrent₁ : 0 < machine₁.env.current := hLeaves₁.env_eq ▸ hCurrent
    refine Exec.safe_bind (hReady₁.safe_define hCurrent₁ ⟨name, ty, true⟩ rfl hAdmits hSpecific) ?_
    intro _ Φ₂ machine₂ _ hReady₂
    exact hEnd hReady₂

end Sound

end ProcLang
