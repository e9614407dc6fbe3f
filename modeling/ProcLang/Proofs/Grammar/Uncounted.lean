import ProcLang.Proofs.Grammar.Productions

/-! # The grammar without counts

The productions as methods that move one cursor. Nothing bounds their repetitions and recursions, so
that they need not end: a method has no result where it does not. Where it fails, the cursor stays
as it is.
-/

namespace ProcLang

set_option autoImplicit false

/-- A method fails or returns, and leaves the cursor anywhere, or it does not end. -/
abbrev Method (α : Type) := ExceptT ParseError (StateT Cursor Option) α

namespace Method

/-- A step that repeats nothing. If it fails, it has not moved. -/
def once {α : Type} (step : Parser α) : Method α := fun cursor =>
  match step cursor with
  | .ok (a, later) => some (.ok a, later)
  | .error error => some (.error error, cursor)

instance : MonadLift Parser Method :=
  ⟨once⟩

end Method

/-- What the methods of the grammar read. -/
inductive Production : Type → Type
  | source : Production Source
  | globals : Production (List Global)
  | functions : Production (List Function)
  | global : Production Global
  | globalBody : Production Global
  | listGlobal : Production Global
  | mutableGlobal : Production Global
  | immutableGlobal : Production Global
  | function : Production Function
  | parameters : Production (List (String × String))
  | parameterList : Production (List (String × String))
  /-- Parameters that each stand behind a comma. -/
  | otherParameters : Production (List (String × String))
  | parameter : Production (String × String)
  /-- A type's name behind a colon, if that comes next. -/
  | typeName : Production (Option String)
  /-- An expression behind an equals sign, if that comes next. -/
  | initializer : Production (Option Expr)
  | block : Production (List Stmt)
  | statement : Production Stmt
  | declaration : Production Stmt
  | switch : Production Stmt
  | cases : Production (List Case)
  | valuedCase : Production Case
  | conditional : Production Stmt
  | alternative : Production (Option (List Stmt))
  | loop : Production Stmt
  | returns : Production Stmt
  | simple : Production Stmt
  | expression : Production Expr
  /-- Expressions of the given levels, loosest first. -/
  | levels (levels : List Level) : Production Expr
  /-- Operators of one level with their right operands. -/
  | operators (level : Level) (tighter : List Level) : Production (List (Operator × Expr))
  | primary : Production Expr
  /-- An operand whose first token is known. -/
  | operandAt (token : Token) : Production Expr
  | literal (kind : TokenKind) (text : String) : Production Expr
  | groupRest : Production Expr
  | nameRest (name : String) : Production Expr
  | arguments : Production (List Expr)
  | expressions : Production (List Expr)
  /-- Expressions that each stand behind a comma. -/
  | otherExpressions : Production (List Expr)

namespace Production

open ProcLang.Parser (skip eat expect identifier fail)

/-- The method of the grammar that reads it. -/
def read {α : Type} : Production α → Method α
  | .source => do
    let globals ← globals |>.read
    let functions ← functions |>.read
    match (← get).current with
    | some token => fail (.expectedItem token.literal)
    | none => return ⟨globals, functions⟩
  | .globals => do
    if (← get).checkAny ["LIST", "VAR", "VAL"] then
      let first ← global |>.read
      let others ← globals |>.read
      return first :: others
    else
      return []
  | .functions => do
    if (← get).check (.text "FUN") then
      let first ← function |>.read
      let others ← functions |>.read
      return first :: others
    else
      return []
  | .global => do
    let global ← globalBody |>.read
    expect ";"
    return global
  | .globalBody => do
    if ← eat "LIST" then
      listGlobal |>.read
    else if ← eat "VAR" then
      mutableGlobal |>.read
    else
      expect "VAL"
      immutableGlobal |>.read
  | .listGlobal => do
    let name ← identifier
    expect ":"
    let typeName ← identifier
    expect "="
    expect "["
    let items ← expressions |>.read
    expect "]"
    return {
      name, typeName := some typeName, isMutable := true, value := some (.list items none) }
  | .mutableGlobal => do
    let name ← identifier
    let typeName ← typeName |>.read
    let value ← initializer |>.read
    return { name, typeName, isMutable := true, value }
  | .immutableGlobal => do
    let name ← identifier
    let typeName ← typeName |>.read
    expect "="
    let value ← expression |>.read
    return { name, typeName, isMutable := false, value := some value }
  | .function => do
    expect "FUN"
    let name ← identifier
    expect "("
    let parameters ← parameters |>.read
    let returnType ← typeName |>.read
    expect "DO"
    let body ← block |>.read
    expect "END"
    return {
      name, parameters := parameters.map (·.1), parameterTypes := parameters.map (·.2),
      returnType, body }
  | .parameters => do
    if ← eat ")" then
      return []
    else
      let parameters ← parameterList |>.read
      expect ")"
      return parameters
  | .parameterList => do
    let first ← parameter |>.read
    let others ← otherParameters |>.read
    return first :: others
  | .otherParameters => do
    if ← eat "," then
      let first ← parameter |>.read
      let others ← otherParameters |>.read
      return first :: others
    else
      return []
  | .parameter => do
    let name ← identifier
    expect ":"
    let typeName ← identifier
    return (name, typeName)
  | .typeName => do
    if ← eat ":" then
      return some (← identifier)
    else
      return none
  | .initializer => do
    if ← eat "=" then
      return some (← expression |>.read)
    else
      return none
  | .block => do
    if (← get).beginsStatement then
      let first ← statement |>.read
      let others ← block |>.read
      return first :: others
    else
      return []
  | .statement => do
    if ← eat "LET" then
      declaration |>.read
    else if ← eat "SWITCH" then
      switch |>.read
    else if ← eat "IF" then
      conditional |>.read
    else if ← eat "WHILE" then
      loop |>.read
    else if ← eat "RETURN" then
      returns |>.read
    else
      simple |>.read
  | .declaration => do
    let name ← identifier
    let typeName ← typeName |>.read
    let value ← initializer |>.read
    expect ";"
    return .declaration name typeName value none
  | .switch => do
    let subject ← expression |>.read
    let cases ← cases |>.read
    expect "DEFAULT"
    let body ← block |>.read
    expect "END"
    return .switch subject (cases ++ [⟨none, body⟩])
  | .cases => do
    if ← eat "CASE" then
      let first ← valuedCase |>.read
      let others ← cases |>.read
      return first :: others
    else
      return []
  | .valuedCase => do
    let value ← expression |>.read
    expect ":"
    let body ← block |>.read
    return ⟨some value, body⟩
  | .conditional => do
    let condition ← expression |>.read
    expect "DO"
    let consequent ← block |>.read
    let alternative ← alternative |>.read
    expect "END"
    return .conditional condition consequent (alternative.getD [])
  | .alternative => do
    if ← eat "ELSE" then
      return some (← block |>.read)
    else
      return none
  | .loop => do
    let condition ← expression |>.read
    expect "DO"
    let body ← block |>.read
    expect "END"
    return .loop condition body
  | .returns => do
    let value ← expression |>.read
    expect ";"
    return .returns value
  | .simple => do
    let first ← expression |>.read
    let value ← initializer |>.read
    expect ";"
    match value with
    | some value => return .assignment first value
    | none => return .expression first
  | .expression => levels Level.all |>.read
  | .levels [] => primary |>.read
  | .levels (level :: tighter) => do
    let first ← levels tighter |>.read
    let others ← operators level tighter |>.read
    return others.foldl (fun left (operator, right) => .binary operator left right none) first
  | .operators level tighter => do
    match Cursor.operator? level (← get) with
    | none => return []
    | some operator =>
      skip
      let right ← levels tighter |>.read
      let others ← operators level tighter |>.read
      return (operator, right) :: others
  | .primary => do
    match (← get).current with
    | none => fail (.expectedExpression none)
    | some token => operandAt token |>.read
  | .operandAt token =>
    if token.literal = "NIL" then do
      skip
      return .literal .nil none
    else if token.literal = "TRUE" then do
      skip
      return .literal (.boolean true) none
    else if token.literal = "FALSE" then do
      skip
      return .literal (.boolean false) none
    else
      match token.kind with
      | .integer | .decimal | .character | .string => literal token.kind token.literal |>.read
      | .identifier | .operator =>
        if token.literal = "(" then do
          skip
          groupRest |>.read
        else if token.kind = .identifier then do
          skip
          nameRest token.literal |>.read
        else
          Method.once (fail (.expectedExpression token.literal))
  -- A literal is behind the cursor when its text turns out to be wrong.
  | .literal kind text => do
    let cursor ← get
    skip
    match Literal.ofText kind text with
    | .error error => throw (cursor.error (.literal error))
    | .ok value => return .literal value none
  | .groupRest => do
    let inner ← expression |>.read
    expect ")"
    return .group inner none
  | .nameRest name => do
    if ← eat "(" then
      return .call name (← arguments |>.read) none none
    else if ← eat "[" then
      let index ← expression |>.read
      expect "]"
      return .element name index none none
    else
      return .access name none none
  | .arguments => do
    if ← eat ")" then
      return []
    else
      let arguments ← expressions |>.read
      expect ")"
      return arguments
  | .expressions => do
    let first ← expression |>.read
    let others ← otherExpressions |>.read
    return first :: others
  | .otherExpressions => do
    if ← eat "," then
      let first ← expression |>.read
      let others ← otherExpressions |>.read
      return first :: others
    else
      return []
partial_fixpoint

/-- Behind the tightest level there are the primaries. -/
theorem read_levels_nil : (levels []).read = primary.read := by
  rw [read]

end Production

/-- What the method for programs makes of a list of tokens, if it ends. -/
def Method.parse (tokens : List Token) : Option (Except ParseError Source) :=
  (Production.source.read (Cursor.ofTokens tokens)).map (·.1)

end ProcLang
