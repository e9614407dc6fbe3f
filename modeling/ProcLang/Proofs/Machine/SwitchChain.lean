import ProcLang.Proofs.Machine.Hiding
import ProcLang.Proofs.Machine.Unseen

/-! # Switches as chains of conditionals

A switch does what a chain of conditionals does that compare a new variable, which holds the value of
the subject, with the values of the cases. The chain has the scope of the variable and those of its
alternatives more than the switch, and they go unseen.
-/

namespace ProcLang

set_option autoImplicit false

/-- The conditionals that execute the body of the first case whose value a variable has. -/
def Stmt.ifChain (name : String) (otherwise : List Stmt) : List Case → List Stmt
  | [] => otherwise
  | ⟨none, _⟩ :: rest => ifChain name otherwise rest
  | ⟨some value, body⟩ :: rest =>
    [.conditional (.binary .equal value (.access name none none) none) body
      (ifChain name otherwise rest)]

/-- A switch without a switch: its subject is evaluated once, into a variable. -/
def Stmt.switchChain (name : String) (subject : Expr) (cases : List Case) : List Stmt :=
  .declaration name none (some subject) none ::
    ifChain name ((defaultBody? cases).getD []) cases

/-- Two machines that printed the same and have the same bindings in their first scopes, other than
those of a name. -/
structure Machine.Accords (name : String) (size : Nat) (env env' : Environment)
    (machine machine' : Machine) : Prop where
  env_eq : machine.env = env
  env_eq' : machine'.env = env'
  printer_eq : machine'.printer = machine.printer
  callDepth_eq : machine'.callDepth = machine.callDepth
  bindings : ∀ id < size, ∀ other, other ≠ name →
    (machine'.store.scope id).bindings.get? other = (machine.store.scope id).bindings.get? other

/-- The first scopes are in their own place. -/
def Veil.Fixes (V : Veil) (size : Nat) : Prop :=
  ∀ id < size, V.isHidden id = false ∧ V.seen id = id

variable {V : Veil} {env env' : Environment} {machine machine' : Machine} {size n : Nat}

namespace Veil.Fixes

variable {store store' : Store} {id : Nat} (h : V.Fixes size)
include h

theorem le_of_hidden (hHidden : V.isHidden id = true) : size ≤ id := by
  by_contra hLess
  simp [(h id (by omega)).1] at hHidden

theorem hide (hSize : size ≤ store'.scopes.size) (parent : Nat) :
    (V.hide store store' parent).Fixes size := by
  intro j hj
  obtain ⟨hVisible, hSeen⟩ := V.hide_of_lt store store' parent (Nat.lt_of_lt_of_le hj hSize)
  rw [hVisible, hSeen]
  exact h j hj

theorem occupy (hSize : size ≤ store'.scopes.size) (hId : size ≤ id) :
    (V.occupy store store' id).Fixes size := by
  intro j hj
  have hOther : j ≠ id := by omega
  obtain ⟨hVisible, hSeen⟩ := V.occupy_of_lt store store' id hOther (Nat.lt_of_lt_of_le hj hSize)
  rw [hVisible, hSeen]
  exact h j hj

end Veil.Fixes

theorem Machine.Veiled.size_le (h : Machine.Veiled V env env' machine machine')
    (hHidden : V.isHidden env'.current = true) (hFixes : V.Fixes size) :
    size ≤ machine'.store.scopes.size :=
  Nat.le_of_lt (Nat.lt_of_le_of_lt (hFixes.le_of_hidden hHidden) h.current_lt)

theorem Machine.Veiled.accords (h : Machine.Veiled V env env' machine machine')
    (hFixes : V.Fixes size) : Machine.Accords V.name size env env' machine machine' where
  env_eq := h.env_eq
  env_eq' := h.env_eq'
  printer_eq := h.printer_eq
  callDepth_eq := h.callDepth_eq
  bindings id hId other hOther := by
    obtain ⟨hVisible, hSeen⟩ := hFixes id hId
    rw [(h.store.scope_of_visible hVisible).bindings other hOther, hSeen]
    rfl

namespace Machine.Accords

variable {name : String} {id id' : Nat}

theorem popScope_left (h : Machine.Accords name size (env.inside id) env' machine machine') :
    Machine.Accords name size env env' machine.popScope machine' :=
  { h with env_eq := by rw [Machine.popScope, h.env_eq]; rfl }

theorem popScope_right (h : Machine.Accords name size env (env'.inside id') machine machine') :
    Machine.Accords name size env env' machine machine'.popScope :=
  { h with env_eq' := by rw [Machine.popScope, h.env_eq']; rfl }

end Machine.Accords

namespace Exec

open Outcome

instance : LawfulMonad Exec := by
  refine LawfulMonad.mk' Exec ?_ ?_ ?_
  · intro α x
    funext machine
    change Exec.bind x (fun result => Exec.pure result) machine = x machine
    unfold Exec.bind
    cases x machine <;> rfl
  · intro α β result next
    rfl
  · intro α β γ first next last
    funext machine
    change Exec.bind (Exec.bind first next) last machine =
      Exec.bind first (fun result => Exec.bind (next result) last) machine
    unfold Exec.bind
    cases first machine <;> rfl

theorem executeBlock_singleton (s : Stmt) : executeBlock (n + 2) [s] = execute (n + 1) s := by
  rw [executeBlock]
  conv_rhs => rw [← bind_pure (execute (n + 1) s)]
  congr 1
  funext completion
  cases completion <;> rfl

theorem executeBlock_declaration (name : String) (e : Expr) (rest : List Stmt) :
    executeBlock (n + 2) (.declaration name none (some e) none :: rest) = (do
      let value ← evaluate n e
      define name value true
      executeBlock (n + 1) rest) := by
  rw [executeBlock, execute]
  simp only [bind_assoc, pure_bind]

theorem evaluate_equal_access (value : Expr) (name : String) :
    evaluate (n + 2) (.binary .equal value (.access name none none) none) = (do
      let result ← evaluate (n + 1) value
      let subject ← lookup name
      return .boolean (result == subject)) :=
  rfl

/-- A comparison with the variable picks one of the two blocks. -/
theorem execute_conditional_equal (name : String) (value : Expr)
    (consequent alternative : List Stmt) :
    execute (n + 3) (.conditional (.binary .equal value (.access name none none) none)
        consequent alternative) = (do
      let result ← evaluate (n + 1) value
      let subject ← lookup name
      if result == subject then inScope (executeBlock (n + 2) consequent)
      else inScope (executeBlock (n + 2) alternative)) := by
  rw [execute, evaluate_equal_access]
  simp only [bind_assoc, pure_bind]
  rfl

theorem endAlike_evaluate {e : Expr} (hAvoids : e.avoids V.name = true)
    (h : Machine.Veiled V env env' machine machine') :
    EndAlike (Machine.Veiled V env env') (fun n => evaluate n e machine)
      fun n => evaluate n e machine' :=
  .of_agrees (steady_evaluate e machine) (steady_evaluate e machine') fun n =>
    (AllAgree.all V n).evaluate hAvoids env env' _ _ h

theorem endAlike_executeBlock {statements : List Stmt}
    (hAvoids : Stmt.blockAvoids statements V.name = true)
    (h : Machine.Veiled V env env' machine machine') (hVisible : V.isHidden env'.current = false) :
    EndAlike (Machine.Veiled V env env') (fun n => executeBlock n statements machine)
      fun n => executeBlock n statements machine' :=
  .of_agrees (steady_executeBlock statements machine) (steady_executeBlock statements machine')
    fun n => (AllAgree.all V n).executeBlock hAvoids hVisible _ _ h

/-- In a hidden scope the second machine knows what the name means. -/
theorem lookup_hidden {value : Value} (h : Machine.Veiled V env env' machine machine')
    (hHidden : V.isHidden env'.current = true) (hMeaning : V.meaning? env'.current = some value) :
    lookup V.name machine' = .done value machine' := by
  rw [lookup, h.env_eq', h.store.lookup_name hHidden, hMeaning]

/-- The default is the last block: what the switch executes in a new scope, the chain executes where
it is. -/
theorem endAlike_default {subject : Value} {default? : Option (List Stmt)}
    (hDefault : ∀ body ∈ default?, Stmt.blockAvoids body V.name = true)
    (h : Machine.Veiled V env env' machine machine') (hSecluded : V.secluded = some env'.current)
    (hFixes : V.Fixes size) :
    EndAlike (Machine.Accords V.name size env env')
      (fun n => executeCases n subject default? [] machine)
      fun n => executeBlock n (default?.getD []) machine' := by
  have hHidden := V.isHidden_of_secluded hSecluded
  have hCurrent := hFixes.le_of_hidden hHidden
  have hSize := h.size_le hHidden hFixes
  cases default? with
  | none => exact .of_shift 1 1 (.of_done (h.accords hFixes))
  | some body =>
    apply EndAlike.of_shift 1 0
    have hOccupied := h.occupy hSecluded
    have hVisible := (V.occupy_self machine.store machine'.store env'.current).1
    have hBody := endAlike_executeBlock (V := V.occupy machine.store machine'.store env'.current)
      (hDefault body rfl) hOccupied hVisible
    refine endAlike_inScope_left hBody ?_
    intro left left' hLeft
    exact (hLeft.accords (hFixes.occupy hSize hCurrent)).popScope_left

/-- The body of a case is executed in a new scope in both. -/
theorem endAlike_caseBody {statements : List Stmt}
    (hAvoids : Stmt.blockAvoids statements V.name = true)
    (h : Machine.Veiled V env env' machine machine') (hFixes : V.Fixes size) :
    EndAlike (Machine.Accords V.name size env env')
      (fun n => inScope (executeBlock n statements) machine)
      fun n => inScope (executeBlock (n + 2) statements) machine' := by
  obtain ⟨hPushed, hVisible⟩ := h.expose.pushScope nofun
  have hBlock := (endAlike_executeBlock (V := V.expose) hAvoids hPushed hVisible).shift 0 2
  refine endAlike_inScope hBlock ?_
  intro left left' hLeft
  exact (h.expose.popScope hLeft).accords hFixes

/-- By induction on the cases: each that does not match hides one more scope. -/
theorem endAlike_ifChain {subject : Value} {default? : Option (List Stmt)} {cases : List Case}
    (hDefault : ∀ body ∈ default?, Stmt.blockAvoids body V.name = true)
    (hCases : ∀ case ∈ cases, case.avoids V.name = true)
    (h : Machine.Veiled V env env' machine machine') (hSecluded : V.secluded = some env'.current)
    (hFixes : V.Fixes size) (hSubject : V.meaning? env'.current = some subject) :
    EndAlike (Machine.Accords V.name size env env')
      (fun n => executeCases n subject default? cases machine)
      fun n => executeBlock n (Stmt.ifChain V.name (default?.getD []) cases) machine' := by
  induction cases generalizing V env' machine machine' with
  | nil => exact endAlike_default hDefault h hSecluded hFixes
  | cons case rest ih =>
    obtain ⟨value, body⟩ := case
    obtain ⟨hValue, hBody⟩ := Case.avoids_iff.mp (hCases _ List.mem_cons_self)
    have hRest : ∀ case ∈ rest, case.avoids V.name = true :=
      fun case hMem => hCases case (List.mem_cons_of_mem _ hMem)
    cases value with
    | none =>
      have hChain := ih hDefault hRest h hSecluded hFixes hSubject
      exact .of_shift 1 0 hChain
    | some value =>
      have hEvaluate := (endAlike_evaluate (hValue value rfl) h).shift 0 1
      apply EndAlike.of_shift 1 4
      simp only [executeCases, Stmt.ifChain, executeBlock_singleton, execute_conditional_equal]
      refine endAlike_bind hEvaluate ?_ fun left left' hLeft => hLeft.accords hFixes
      intro result left left' hLeft
      have hHidden := V.isHidden_of_secluded hSecluded
      have hKnown := lookup_hidden hLeft hHidden hSubject
      by_cases hEqual : (result == subject) = true
      · have hThen := endAlike_caseBody hBody hLeft hFixes
        refine hThen.congr (fun n => ?_) fun n => ?_
        · exact congrFun (if_pos hEqual) left
        · exact (bind_of_done hKnown).trans (congrFun (if_pos hEqual) left')
      · -- The rest of the chain is in one more hidden scope, in which the variable means the same.
        have hSize := hLeft.size_le hHidden hFixes
        have hChain := ih (V := V.hide left.store left'.store env'.current) hDefault hRest hLeft.hide
          rfl (hFixes.hide hSize env'.current) ((hLeft.store.meaning?_hide hHidden).trans hSubject)
        have hElse := endAlike_inScope_right (hChain.shift 0 2) fun _ _ hEnd => hEnd.popScope_right
        refine hElse.congr (fun n => ?_) fun n => ?_
        · exact congrFun (if_neg hEqual) left
        · exact (bind_of_done hKnown).trans (congrFun (if_neg hEqual) left')

/-- The variable gets the value of the subject, and the conditionals take over. -/
theorem endAlike_declared {subject : Value} {cases : List Case}
    (hCases : ∀ case ∈ cases, case.avoids V.name = true)
    (h : Machine.Veiled V env env' machine machine') (hSecluded : V.secluded = some env'.current)
    (hFixes : V.Fixes size) :
    EndAlike (Machine.Accords V.name size env env')
      (fun n => executeCases n subject (defaultBody? cases) cases machine)
      fun n => (do
        define V.name subject true
        executeBlock (n + 1) (Stmt.ifChain V.name ((defaultBody? cases).getD []) cases)) machine' := by
  obtain rfl := h.env_eq'
  have hDeclared := h.bind (V.isHidden_of_secluded hSecluded) subject
  have hMeaning : (V.bind machine'.env.current ⟨subject, true⟩).meaning? machine'.env.current =
      some subject := by
    simp [Veil.meaning?, Veil.bind]
  have hChain := endAlike_ifChain (V := V.bind machine'.env.current ⟨subject, true⟩)
    (defaultBody?_avoids hCases) hCases hDeclared hSecluded hFixes hMeaning
  exact hChain.shift 0 1

theorem endAlike_switchChain {name : String} {subject : Expr} {cases : List Case}
    (hClosed : machine.Closed) (hUnaware : machine.Unaware name)
    (hAvoids : (Stmt.switch subject cases).avoids name = true) :
    EndAlike (Machine.Accords name machine.store.scopes.size machine.env machine.env)
      (fun n => execute n (.switch subject cases) machine)
      fun n => inScope (executeBlock n (Stmt.switchChain name subject cases)) machine := by
  obtain ⟨hSubject, hCases⟩ := Stmt.avoids_switch.mp hAvoids
  have hHidden := (machine.veiled_clear hClosed hUnaware).hide
  have hFixes : ((Veil.clear name).hide machine.store machine.store machine.env.current).Fixes
      machine.store.scopes.size :=
    Veil.Fixes.hide (fun _ _ => ⟨rfl, rfl⟩) (Nat.le_refl _) machine.env.current
  have hEvaluate := endAlike_evaluate
    (V := (Veil.clear name).hide machine.store machine.store machine.env.current) hSubject hHidden
  have hBlock : EndAlike (Machine.Accords name machine.store.scopes.size machine.env
        (machine.env.inside machine.store.scopes.size))
      (fun n => execute n (.switch subject cases) machine)
      fun n => executeBlock n (Stmt.switchChain name subject cases) machine.pushScope := by
    apply EndAlike.of_shift 1 2
    simp only [execute, Stmt.switchChain, executeBlock_declaration]
    refine endAlike_bind hEvaluate ?_ fun left left' hLeft => hLeft.accords hFixes
    intro value left left' hLeft
    exact endAlike_declared hCases hLeft rfl hFixes
  exact endAlike_inScope_right hBlock fun left left' hEnd => hEnd.popScope_right

/-- A switch and its chain end alike whenever one of them ends: with the same completion or error, and
after it what was printed is the same, and so are the bindings of all scopes that there were. All
machines that occur are closed. -/
theorem switch_ifChain {name : String} {subject : Expr} {cases : List Case} (hClosed : machine.Closed)
    (hUnaware : machine.Unaware name) (hAvoids : (Stmt.switch subject cases).avoids name = true) :
    (∀ n, execute n (.switch subject cases) machine ≠ .exhausted →
      ∃ n', (execute n (.switch subject cases) machine).Agrees
        (Machine.Accords name machine.store.scopes.size machine.env machine.env)
        (inScope (executeBlock n' (Stmt.switchChain name subject cases)) machine)) ∧
    ∀ n', inScope (executeBlock n' (Stmt.switchChain name subject cases)) machine ≠ .exhausted →
      ∃ n, (execute n (.switch subject cases) machine).Agrees
        (Machine.Accords name machine.store.scopes.size machine.env machine.env)
        (inScope (executeBlock n' (Stmt.switchChain name subject cases)) machine) :=
  (endAlike_switchChain hClosed hUnaware hAvoids).ends (steady_execute _ machine)
    (steady_inScope (steady_executeBlock _ machine.pushScope))

end Exec

open Exec in
/-- Wherever a run gets to, a switch may be written as the chain, and the chain as the switch. -/
theorem Machine.Reachable.switchChain {callLimit : Nat} {machine : Machine}
    (h : Machine.Reachable callLimit machine) {name : String} {subject : Expr} {cases : List Case}
    (hUnaware : machine.Unaware name) (hAvoids : (Stmt.switch subject cases).avoids name = true) :
    (∀ n, execute n (.switch subject cases) machine ≠ .exhausted →
      ∃ n', (execute n (.switch subject cases) machine).Agrees
        (Machine.Accords name machine.store.scopes.size machine.env machine.env)
        (inScope (executeBlock n' (Stmt.switchChain name subject cases)) machine)) ∧
    ∀ n', inScope (executeBlock n' (Stmt.switchChain name subject cases)) machine ≠ .exhausted →
      ∃ n, (execute n (.switch subject cases) machine).Agrees
        (Machine.Accords name machine.store.scopes.size machine.env machine.env)
        (inScope (executeBlock n' (Stmt.switchChain name subject cases)) machine) :=
  (endAlike_switchChain h.closed hUnaware hAvoids).ends (steady_execute _ machine)
    (steady_inScope (steady_executeBlock _ machine.pushScope))

namespace PrintedSwitch

def shown (n : Int) : Expr :=
  .call "print" [.literal (.integer n) none] none none

def answer (n : Int) : Stmt :=
  .returns (.literal (.integer n) none)

/-- The value of the second case is printed before it is compared. -/
def cases : List Case :=
  [⟨none, [answer 0]⟩, ⟨some (shown 3), [answer 1]⟩]

def start : Machine :=
  .new .buffer 10

end PrintedSwitch

namespace Exec

open PrintedSwitch

theorem switch_ifChain_print : ∃ n left n' left',
    execute n (.switch (shown 2) cases) start = .done (.returned (.integer 1)) left ∧
    inScope (executeBlock n' (Stmt.switchChain "t" (shown 2) cases)) start =
      .done (.returned (.integer 1)) left' ∧
    left.printer.text = "2\n3\n" ∧ left'.printer = left.printer := by
  obtain ⟨left, hLeft, hText⟩ : ∃ left,
      execute 10 (.switch (shown 2) cases) start = .done (.returned (.integer 1)) left ∧
        left.printer.text = "2\n3\n" := ⟨_, rfl, rfl⟩
  have hAvoids : (Stmt.switch (shown 2) cases).avoids "t" = true := by decide
  have hClosed : start.Closed := Machine.closed_new .buffer 10
  have hUnaware : start.Unaware "t" := Machine.unaware_new .buffer 10 "t"
  obtain ⟨n', hChain⟩ := (switch_ifChain hClosed hUnaware hAvoids).1 10 (by rw [hLeft]; nofun)
  rw [hLeft] at hChain
  generalize hOutcome : inScope _ _ = outcome at hChain
  cases hChain with
  | done hAccords => exact ⟨10, left, n', _, hLeft, hOutcome, hText, hAccords.printer_eq⟩

end Exec

end ProcLang
