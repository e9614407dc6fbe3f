import ProcLang.Machine.Run

/-! # The tasks of a run

A run consists of tasks: expressions to evaluate, statements to execute, variables to read and
write, functions to call. `Enters` says which tasks a task goes through, and from which machines;
there is a rule for each nested task of the evaluator. `Reached` collects what a whole run goes
through, each task with the function whose body it belongs to.
-/

namespace ProcLang

set_option autoImplicit false

inductive Task where
  | evaluate (expr : Expr)
  | evaluateAll (exprs : List Expr)
  /-- The innermost binding of a name is looked up; the slot is that of the expression. -/
  | read (name : String) (slot : Option Variable)
  | write (name : String) (slot : Option Variable) (value : Value)
  | call (name : String) (slot : Option Signature) (arguments : List Value)
  | execute (statement : Stmt)
  | executeBlock (statements : List Stmt)
  | executeCases (subject : Value) (default? : Option (List Stmt)) (cases : List Case)
  | executeLoop (condition : Expr) (body : List Stmt)

namespace Task

/-- With one step more than `n`, the first task goes through the second one, which has `n` steps and
belongs to the same function body. -/
inductive Enters (n : Nat) : Task → Machine → Task → Machine → Prop
  | group {inner ty machine} :
    Enters n (.evaluate (.group inner ty)) machine (.evaluate inner) machine
  | left {operator left right ty machine} :
    Enters n (.evaluate (.binary operator left right ty)) machine (.evaluate left) machine
  | right {operator left right ty machine value machine'}
      (hLeft : Exec.evaluate n left machine = .done value machine')
      (hAnd : operator = .and → value.isTrue = true)
      (hOr : operator = .or → value.isTrue = false) :
    Enters n (.evaluate (.binary operator left right ty)) machine (.evaluate right) machine'
  | access {name slot ty machine} :
    Enters n (.evaluate (.access name slot ty)) machine (.read name slot) machine
  | element {name index slot ty machine} :
    Enters n (.evaluate (.element name index slot ty)) machine (.read name slot) machine
  | index {name index slot ty machine list machine'}
      (hList : Exec.lookup name machine = .done list machine') :
    Enters n (.evaluate (.element name index slot ty)) machine (.evaluate index) machine'
  | arguments {name arguments slot ty machine} :
    Enters n (.evaluate (.call name arguments slot ty)) machine (.evaluateAll arguments) machine
  | callee {name arguments slot ty machine values machine'}
      (hArguments : Exec.evaluateAll n arguments machine = .done values machine') :
    Enters n (.evaluate (.call name arguments slot ty)) machine (.call name slot values) machine'
  | items {items ty machine} :
    Enters n (.evaluate (.list items ty)) machine (.evaluateAll items) machine
  | head {expr exprs machine} :
    Enters n (.evaluateAll (expr :: exprs)) machine (.evaluate expr) machine
  | tail {expr exprs machine value machine'}
      (hHead : Exec.evaluate n expr machine = .done value machine') :
    Enters n (.evaluateAll (expr :: exprs)) machine (.evaluateAll exprs) machine'
  | expression {expr machine} :
    Enters n (.execute (.expression expr)) machine (.evaluate expr) machine
  | initialValue {name typeName value symbol machine} :
    Enters n (.execute (.declaration name typeName (some value) symbol)) machine
      (.evaluate value) machine
  | assigned {name slot ty value machine} :
    Enters n (.execute (.assignment (.access name slot ty) value)) machine (.evaluate value) machine
  | assign {name slot ty value machine result machine'}
      (hValue : Exec.evaluate n value machine = .done result machine') :
    Enters n (.execute (.assignment (.access name slot ty) value)) machine
      (.write name slot result) machine'
  | oldList {name index slot ty value machine} :
    Enters n (.execute (.assignment (.element name index slot ty) value)) machine
      (.read name slot) machine
  | itemIndex {name index slot ty value machine items machine₁}
      (hList : Exec.lookup name machine = .done (.list items) machine₁) :
    Enters n (.execute (.assignment (.element name index slot ty) value)) machine
      (.evaluate index) machine₁
  | newItem {name index slot ty value machine items machine₁ i machine₂ position}
      (hList : Exec.lookup name machine = .done (.list items) machine₁)
      (hIndex : Exec.evaluate n index machine₁ = .done i machine₂)
      (hPosition : i.position items.length = .ok position) :
    Enters n (.execute (.assignment (.element name index slot ty) value)) machine
      (.evaluate value) machine₂
  | newList {name index slot ty value machine items machine₁ i machine₂ position result machine₃}
      (hList : Exec.lookup name machine = .done (.list items) machine₁)
      (hIndex : Exec.evaluate n index machine₁ = .done i machine₂)
      (hPosition : i.position items.length = .ok position)
      (hValue : Exec.evaluate n value machine₂ = .done result machine₃) :
    Enters n (.execute (.assignment (.element name index slot ty) value)) machine
      (.write name slot (.list (items.set position result))) machine₃
  | condition {condition consequent alternative machine} :
    Enters n (.execute (.conditional condition consequent alternative)) machine
      (.evaluate condition) machine
  | branch {condition consequent alternative machine b machine'}
      (hCondition : Exec.evaluate n condition machine = .done (.boolean b) machine') :
    Enters n (.execute (.conditional condition consequent alternative)) machine
      (.executeBlock (if b then consequent else alternative)) machine'.pushScope
  | subject {subject cases machine} :
    Enters n (.execute (.switch subject cases)) machine (.evaluate subject) machine
  | cases {subject cases machine value machine'}
      (hSubject : Exec.evaluate n subject machine = .done value machine') :
    Enters n (.execute (.switch subject cases)) machine
      (.executeCases value (defaultBody? cases) cases) machine'
  | loop {condition body machine} :
    Enters n (.execute (.loop condition body)) machine (.executeLoop condition body) machine
  | returned {value machine} :
    Enters n (.execute (.returns value)) machine (.evaluate value) machine
  | statement {statement rest machine} :
    Enters n (.executeBlock (statement :: rest)) machine (.execute statement) machine
  | rest {statement rest machine machine'}
      (hStatement : Exec.execute n statement machine = .done .normal machine') :
    Enters n (.executeBlock (statement :: rest)) machine (.executeBlock rest) machine'
  | defaultCase {subject body machine} :
    Enters n (.executeCases subject (some body) []) machine
      (.executeBlock body) machine.pushScope
  | pastDefault {subject default? body rest machine} :
    Enters n (.executeCases subject default? (⟨none, body⟩ :: rest)) machine
      (.executeCases subject default? rest) machine
  | caseValue {subject default? value body rest machine} :
    Enters n (.executeCases subject default? (⟨some value, body⟩ :: rest)) machine
      (.evaluate value) machine
  | caseBody {subject default? value body rest machine result machine'}
      (hValue : Exec.evaluate n value machine = .done result machine')
      (hEqual : (result == subject) = true) :
    Enters n (.executeCases subject default? (⟨some value, body⟩ :: rest)) machine
      (.executeBlock body) machine'.pushScope
  | pastCase {subject default? value body rest machine result machine'}
      (hValue : Exec.evaluate n value machine = .done result machine')
      (hUnequal : (result == subject) = false) :
    Enters n (.executeCases subject default? (⟨some value, body⟩ :: rest)) machine
      (.executeCases subject default? rest) machine'
  | loopCondition {condition body machine} :
    Enters n (.executeLoop condition body) machine (.evaluate condition) machine
  | round {condition body machine machine'}
      (hCondition : Exec.evaluate n condition machine = .done (.boolean true) machine') :
    Enters n (.executeLoop condition body) machine (.executeBlock body) machine'.pushScope
  | again {condition body machine machine₁ machine₂}
      (hCondition : Exec.evaluate n condition machine = .done (.boolean true) machine₁)
      (hRound : Exec.inScope (Exec.executeBlock n body) machine₁ = .done .normal machine₂) :
    Enters n (.executeLoop condition body) machine (.executeLoop condition body) machine₂

/-- What the run of a program from a machine goes through when it is allowed `n` steps: a task with
the steps and the machine it starts from, and the function in whose body it stands, which is `none`
for the initial values of globals and for the call of `main`. -/
inductive Reached (n : Nat) (source : Source) (start : Machine) :
    Option Function → Nat → Task → Machine → Prop
  | global {before global after value machine}
      (hGlobals : source.globals = before ++ global :: after)
      (hValue : global.value = some value)
      (hBefore : Exec.defineGlobals n before start = .done () machine) :
    Reached n source start none n (.evaluate value) machine
  | main {machine machine'}
      (hGlobals : Exec.defineGlobals n source.globals start = .done () machine)
      (hFunctions : Exec.defineFunctions source.functions machine = .done () machine') :
    Reached n source start none n (.call "main" none []) machine'
  | enter {caller k task machine task' machine'}
      (hReached : Reached n source start caller (k + 1) task machine)
      (hEnters : Enters k task machine task' machine') :
    Reached n source start caller k task' machine'
  | body {caller k name slot arguments machine function closure machine'}
      (hReached : Reached n source start caller (k + 1) (.call name slot arguments) machine)
      (hFunction : Exec.lookupFunction name arguments.length machine =
        .done (.user function closure) machine')
      (hLimit : machine'.callDepth < machine'.callLimit) :
    Reached n source start (some function) k (.executeBlock function.body)
      (machine'.enterFrame closure (function.parameters.zip arguments))

end Task

end ProcLang
