import ProcLang.Proofs.Typing.Unread

/-! # Checking trees again

A checker can be used for several programs, and a program may come with slots that earlier checks
have filled. Neither what the checker answers nor the scopes that it keeps depend on such slots, so
a checked program is checked to itself.
-/

namespace ProcLang

set_option autoImplicit false

/-- Computations that do the same from all valid scopes and leave valid ones, also when they fail. -/
def Check.Agree {α : Type} (first second : Check α) : Prop :=
  ∀ scopes : Scopes, scopes.Valid →
    first.run.run scopes = second.run.run scopes ∧ (first.run.run scopes).2.Valid

namespace Check

variable {α β : Type}

theorem agree_pure (a : α) : Agree (pure a) (pure a) :=
  fun _ hScopes => ⟨rfl, hScopes⟩

theorem agree_liftExcept (computation : Except SemanticError α) :
    Agree (liftExcept computation) (liftExcept computation) := by
  intro scopes hScopes
  refine ⟨rfl, ?_⟩
  cases computation <;> exact hScopes

theorem agree_modify {f : Scopes → Scopes}
    (hf : ∀ {scopes : Scopes}, scopes.Valid → (f scopes).Valid) : Agree (modify f) (modify f) :=
  fun _ hScopes => ⟨rfl, hf hScopes⟩

/-- Scopes that are looked up are valid. -/
theorem agree_get_bind {next next' : Scopes → Check β}
    (h : ∀ scopes : Scopes, scopes.Valid → Agree (next scopes) (next' scopes)) :
    Agree (get >>= next) (get >>= next') :=
  fun scopes hScopes => h scopes hScopes scopes hScopes

theorem Agree.bind {first second : Check α} {next next' : α → Check β} (h : Agree first second)
    (hNext : ∀ a, Agree (next a) (next' a)) : Agree (first >>= next) (second >>= next') := by
  intro scopes hScopes
  obtain ⟨hSame, hValid⟩ := h scopes hScopes
  simp only [ExceptT.run_bind, StateT.run_bind]
  rw [← hSame]
  rcases hFirst : first.run.run scopes with ⟨result, scopes₁⟩
  rw [hFirst] at hValid
  cases result with
  | error error => exact ⟨rfl, hValid⟩
  | ok a => exact hNext a scopes₁ hValid

theorem agree_mapM_map {erase : α → α} {check : α → Check β}
    (h : ∀ a, Agree (check (erase a)) (check a)) (as : List α) :
    Agree ((as.map erase).mapM check) (as.mapM check) := by
  induction as with
  | nil => exact agree_pure []
  | cons a as ih =>
    rw [List.map_cons, List.mapM_cons, List.mapM_cons]
    exact (h a).bind fun b => ih.bind fun bs => agree_pure (b :: bs)

end Check

section Programs

variable {types : TypeRegistry}

theorem Global.check_erase (global : Global) :
    Check.Agree (global.erase.check types) (global.check types) := by
  refine Check.agree_get_bind fun scopes hScopes => ?_
  simp only [erase, checkBinding_erase hScopes]
  exact (Check.agree_liftExcept _).bind fun _ =>
    (Check.agree_modify fun h => h.defineVariable _).bind fun _ => Check.agree_pure _

theorem Function.check_erase (function : Function) :
    Check.Agree (function.erase.check types) (function.check types) := by
  -- The signature is kept in any case; only the body is looked at in other scopes.
  refine (Check.agree_liftExcept _).bind fun signature => ?_
  refine (Check.agree_modify fun h => h.defineFunction signature).bind fun _ => ?_
  refine Check.agree_get_bind fun scopes hScopes => ?_
  have hBody : (function.bodyScopes signature scopes).Valid :=
    (bodyScopes_valid hScopes function signature).1
  have hSame : Stmt.checkBlock types (function.erase.bodyScopes signature scopes)
      function.erase.body = Stmt.checkBlock types (function.bodyScopes signature scopes)
        function.body :=
    Stmt.checkBlock_eraseBlock hBody function.body
  simp only [hSame]
  exact (Check.agree_liftExcept _).bind fun body => Check.agree_pure _

theorem Source.checkMain_erase (source : Source) :
    source.erase.checkMain types = source.checkMain types := by
  unfold checkMain
  rw [main?_erase]
  cases source.main? <;> rfl

theorem Source.check_erase (types : TypeRegistry) (source : Source) :
    Check.Agree (source.erase.check types) (source.check types) := by
  unfold check
  rw [checkMain_erase]
  exact (Check.agree_liftExcept _).bind fun _ =>
    (Check.agree_mapM_map Global.check_erase source.globals).bind fun globals =>
      (Check.agree_mapM_map Function.check_erase source.functions).bind fun functions =>
        Check.agree_pure _

end Programs

namespace Checker

/-- A checker that has been made for some types, and may have been used. -/
inductive Built : Checker → Prop where
  | ofTypes (types : TypeRegistry) : Built (ofTypes types)
  | check {checker : Checker} (h : Built checker) (source : Source) :
      Built (checker.check source).2

theorem check_erase {checker : Checker} (hScopes : checker.scopes.Valid) (source : Source) :
    checker.check source.erase = checker.check source := by
  have hSame := (source.check_erase checker.types checker.scopes hScopes).1
  simp only [check, hSame]

theorem Built.valid {checker : Checker} (h : checker.Built) : checker.scopes.Valid := by
  induction h with
  | ofTypes types => exact Scopes.Valid.empty.defineFunction print
  | @check checker h source ih =>
    obtain ⟨hSame, hValid⟩ := source.check_erase checker.types checker.scopes ih
    rw [hSame] at hValid
    exact hValid

/-- What a checker answers and what it keeps depend on a program up to its slots only. Where it
accepts the program, it changes slots only, and accepts the result without changing it. -/
theorem check_of_erase_eq {checker : Checker} (hBuilt : checker.Built) {source other : Source}
    (hErase : source.erase = other.erase) :
    checker.check source = checker.check other ∧
    ∀ checked, (checker.check source).1 = .ok checked →
      checked.erase = source.erase ∧ (checker.check checked).1 = .ok checked := by
  have hAgree (first second : Source) (h : first.erase = second.erase) :
      checker.check first = checker.check second := by
    rw [← check_erase hBuilt.valid first, h, check_erase hBuilt.valid second]
  refine ⟨hAgree source other hErase, fun checked hChecked => ?_⟩
  have hYields : Check.Yields (source.check checker.types) checker.scopes checked
      (checker.check source).2.scopes := Prod.ext hChecked rfl
  have hErased := Source.erase_of_check hYields
  exact ⟨hErased, by rw [hAgree checked source hErased, hChecked]⟩

end Checker

namespace Slotted

/-- A program whose slots all hold what is given. -/
def source (ty : Option Ty) (symbol : Option Variable) (signature : Option Signature) : Source :=
  ⟨[⟨"total", some "Integer", true, some (.literal (.integer 1) ty), symbol⟩],
    [⟨"twice", ["n"], ["Integer"], some "Integer",
        [.assignment (.access "total" symbol ty)
            (.binary .add (.access "n" symbol ty) (.access "n" symbol ty) ty),
          .returns (.access "total" symbol ty)],
        signature⟩,
      ⟨"main", [], [], some "Integer",
        [.returns (.call "twice" [.literal (.integer 2) ty] signature ty)], signature⟩]⟩

/-- Its slots say that nothing can be assigned to `total`, and that `twice` takes nothing. -/
def misleading : Source :=
  source (some .string) (some ⟨"total", .nil, false⟩) (some ⟨"twice", [], .nil⟩)

end Slotted

theorem Checker.check_of_erase_eq_misleading :
    let checker := ((ofTypes (.ofNames ["Point"])).check (Slotted.source none none none)).2
    ∃ checked, (checker.check Slotted.misleading).1 = .ok checked ∧
      checker.check Slotted.misleading = checker.check (Slotted.source (some .any) none none) ∧
      checked.erase = Slotted.misleading.erase ∧ (checker.check checked).1 = .ok checked := by
  intro checker
  have hOk : (checker.check Slotted.misleading).1.toOption.any (fun _ => true) = true := by
    decide +kernel
  obtain ⟨checked, hCheck, -⟩ := exists_of_any_ok hOk
  obtain ⟨hSame, hAgain⟩ := check_of_erase_eq ((Built.ofTypes (.ofNames ["Point"])).check _)
    (show Slotted.misleading.erase = (Slotted.source (some .any) none none).erase from rfl)
  exact ⟨checked, hCheck, hSame, hAgain checked hCheck⟩

end ProcLang
