/-
  The grammar.

  Recursive descent over the tokens, with the precedence of operators given by
  two numbers each.  Every function spends one unit of fuel on a call; `parse`
  gives enough for any program of that many tokens.

  * `parse` reads a whole program;
  * `BinaryOp.power` is the table of precedences.
-/
import Reactor.Lua.Scope

namespace Reactor.Lua

/-- The operator that a token is, with its line left out. -/
def binaryOp? : Token → Option BinaryOp
  | .sign "+" => some (.arith .add)
  | .sign "-" => some (.arith .sub)
  | .sign "*" => some (.arith .mul)
  | .sign "%" => some (.arith .mod)
  | .sign "^" => some (.arith .pow)
  | .sign "/" => some (.arith .div)
  | .sign "//" => some (.arith .idiv)
  | .sign "&" => some (.arith .band)
  | .sign "|" => some (.arith .bor)
  | .sign "~" => some (.arith .bxor)
  | .sign "<<" => some (.arith .shl)
  | .sign ">>" => some (.arith .shr)
  | .sign ".." => some .concat
  | .sign "==" => some (.compare .eq false false)
  | .sign "~=" => some (.compare .eq false true)
  | .sign "<" => some (.compare .lt false false)
  | .sign "<=" => some (.compare .le false false)
  | .sign ">" => some (.compare .lt true false)
  | .sign ">=" => some (.compare .le true false)
  | .word "and" => some .and
  | .word "or" => some .or
  | _ => none

/-- How strongly an operator binds to its left and to its right. -/
def BinaryOp.power : BinaryOp → Nat × Nat
  | .arith .add | .arith .sub => (10, 10)
  | .arith .mul | .arith .mod | .arith .div | .arith .idiv => (11, 11)
  | .arith .pow => (14, 13)
  | .arith .band => (6, 6)
  | .arith .bor => (4, 4)
  | .arith .bxor => (5, 5)
  | .arith .shl | .arith .shr => (7, 7)
  | .concat => (9, 8)
  | .compare .. => (3, 3)
  | .and => (2, 2)
  | .or => (1, 1)

/-- The operator in front of an expression that a token stands for. -/
def unaryOp? : Token → Option UnaryOp
  | .word "not" => some .not
  | .sign "-" => some .neg
  | .sign "~" => some .bnot
  | .sign "#" => some .len
  | _ => none

/-- How strongly an operator of one operand binds. -/
def unaryPower : Nat := 12

namespace Parse

/-- What may be assigned to. -/
def isTarget : Expr → Bool
  | .var .. | .index .. => true
  | _ => false

/-- Whether an expression is a call. -/
def isCall : Expr → Bool
  | .call .. | .method .. => true
  | _ => false

/-- Refuses to assign to a constant. -/
def checkAssignable : Expr → Parse Unit
  | .var id n => do
    let vars := (← get).scopes.flatMap (·.vars)
    if vars.any fun v => v.id == id && v.isConst then
      refuse ("attempt to assign to const variable '" ++ n ++ "'").toUTF8
  | _ => pure ()

/-- An attribute after the name of a local variable. -/
def attrib : Parse (Option String) := do
  if ← accept (.sign "<") then
    let a ← name
    expect (.sign ">")
    match nameText a with
    | "const" => return some "const"
    | "close" => return some "close"
    | _ => refuse ("unknown attribute '".toUTF8 ++ a ++ "'".toUTF8)
  else return none

/-- The names of a local statement, with their attributes; the second part is
    the place of the one to close. -/
def localNames : Nat → List (Bytes × Bool) → Option Nat →
    Parse (List (Bytes × Bool) × Option Nat)
  | 0, acc, c => return (acc, c)
  | fuel + 1, acc, c => do
    let n ← name
    declare 1
    let a ← attrib
    let c ← if a == some "close" then
        if c.isSome then refuse "multiple to-be-closed variables in local list".toUTF8
        else pure (some acc.length)
      else pure c
    let acc := acc ++ [(n, a.isSome)]
    if ← accept (.sign ",") then localNames fuel acc c else return (acc, c)

/-- The names after the first in a list of names. -/
def moreNames : Nat → List Bytes → Parse (List Bytes)
  | 0, acc => return acc
  | fuel + 1, acc => do
    if ← accept (.sign ",") then
      let n ← name
      declare 1
      moreNames fuel (acc ++ [n])
    else return acc

/-- Parameters up to the closing parenthesis. -/
def parameters : Nat → List Bytes → Parse (List Bytes × Bool)
  | 0, acc => return (acc, false)
  | fuel + 1, acc => do
    match (← current).token with
    | .name n =>
      advance
      declare 1
      if ← accept (.sign ",") then parameters fuel (acc ++ [n]) else return (acc ++ [n], false)
    | .sign "..." =>
      advance
      return (acc, true)
    | _ => fail "<name> or '...' expected"

/-- Makes names active variables, in order. -/
def activateAll (names : List (Bytes × Bool)) : Parse (List (VarId × String)) :=
  names.mapM fun (n, isConst) => do
    let id ← newVar
    activate n id isConst
    return (id, nameText n)

mutual

/-- Statements up to the end of their block. -/
def statements : Nat → List Stat → Parse (List Stat)
  | 0, _ => throw .tooDeep
  | fuel + 1, acc => do
    if ← atBlockEnd true then return acc.reverse
    let isReturn ← isWord "return"
    let out ← statement fuel
    let acc := out.reverse ++ acc
    if isReturn then return acc.reverse else statements fuel acc
termination_by structural fuel => fuel

/-- One statement; empty statements give nothing. -/
def statement : Nat → Parse (List Stat)
  | 0 => throw .tooDeep
  | fuel + 1 => deeper do
    let l ← current
    let line := l.line
    match l.token with
    | .sign ";" =>
      advance
      return []
    | .word "if" =>
      let (clauses, otherwise) ← ifClauses fuel line []
      return [.if_ clauses otherwise line]
    | .word "while" =>
      advance
      let cond ← expression fuel 0
      enterBlock true
      expect (.word "do")
      let body ← block fuel
      expectClosing (.word "end") (.word "while") line
      let onBreak ← leaveBlock
      return [.while_ cond body onBreak line]
    | .word "do" =>
      advance
      let body ← block fuel
      expectClosing (.word "end") (.word "do") line
      return [.block body]
    | .word "for" => return [← forStatement fuel line]
    | .word "repeat" =>
      enterBlock true
      enterBlock false
      advance
      let body ← statements fuel []
      expectClosing (.word "until") (.word "repeat") line
      let cond ← expression fuel 0
      let _ ← leaveBlock
      let onBreak ← leaveBlock
      return [.repeat_ body cond onBreak line]
    | .word "function" =>
      advance
      let first ← current
      let base ← nameExpr (← name) first.line
      let (target, isMethod) ← functionName fuel base
      let body ← functionBody fuel isMethod line
      checkAssignable target
      return [.assign [target] [.function body] line]
    | .word "local" =>
      advance
      if ← accept (.word "function") then
        let n ← name
        declare 1
        let id ← newVar
        activate n id false
        let body ← functionBody fuel false (← current).line
        return [.localFunction id body line]
      else
        let (names, toClose) ← localNames fuel [] none
        let values ← if ← accept (.sign "=") then expressions fuel else pure []
        let vars ← activateAll names
        return [.local_ vars toClose values (← get).lastLine]
    | .sign "::" =>
      advance
      let n ← name
      let (inner, id) ← labelStatement fuel n line
      return inner ++ [.label id]
    | .word "return" =>
      advance
      let values ←
        if (← atBlockEnd true) || (← isSign ";") then pure [] else expressions fuel
      let _ ← accept (.sign ";")
      return [.return_ values line]
    | .word "break" =>
      advance
      return [.goto_ (← waitFor breakName line) line]
    | .word "goto" =>
      advance
      let n ← name
      return [.goto_ (← jumpTo n line) line]
    | _ =>
      let e ← suffixed fuel
      if (← isSign "=") || (← isSign ",") then
        assignment fuel [e]
      else if isCall e then return [.call e line]
      else fail "syntax error"
termination_by structural fuel => fuel

/-- The rest of an assignment after its last target so far (first in the
    list). -/
def assignment : Nat → List Expr → Parse (List Stat)
  | 0, _ => throw .tooDeep
  | fuel + 1, targets => do
    let last := targets.headD .nil
    unless isTarget last do fail "syntax error"
    checkAssignable last
    if ← accept (.sign ",") then
      let e ← suffixed fuel
      deeper (assignment fuel (e :: targets))
    else
      expect (.sign "=")
      let values ← expressions fuel
      return [.assign targets.reverse values (← get).lastLine]
termination_by structural fuel => fuel

/-- The rest of a label after its name; statements that do nothing may
    follow it before its block ends. -/
def labelStatement : Nat → Bytes → Nat → Parse (List Stat × Nat)
  | 0, _, _ => throw .tooDeep
  | fuel + 1, n, line => do
    expect (.sign "::")
    let inner ← emptyStatements fuel []
    let id ← defineLabel n line (← atBlockEnd false)
    return (inner, id)
termination_by structural fuel => fuel

/-- Semicolons and labels. -/
def emptyStatements : Nat → List Stat → Parse (List Stat)
  | 0, _ => throw .tooDeep
  | fuel + 1, acc => do
    if (← isSign ";") || (← isSign "::") then
      let out ← statement fuel
      emptyStatements fuel (acc ++ out)
    else return acc
termination_by structural fuel => fuel

/-- A block of its own. -/
def block : Nat → Parse (List Stat)
  | 0 => throw .tooDeep
  | fuel + 1 => do
    enterBlock false
    let body ← statements fuel []
    let _ ← leaveBlock
    return body
termination_by structural fuel => fuel

/-- The clauses of an `if`, from the current `if` or `elseif` on. -/
def ifClauses : Nat → Nat → List (Expr × List Stat) → Parse (List (Expr × List Stat) × List Stat)
  | 0, _, _ => throw .tooDeep
  | fuel + 1, line, acc => do
    advance
    let cond ← expression fuel 0
    expect (.word "then")
    let body ← block fuel
    let acc := acc ++ [(cond, body)]
    if ← isWord "elseif" then ifClauses fuel line acc
    else
      let otherwise ← if ← accept (.word "else") then block fuel else pure []
      expectClosing (.word "end") (.word "if") line
      return (acc, otherwise)
termination_by structural fuel => fuel

/-- A loop over numbers or over the values of an iterator. -/
def forStatement : Nat → Nat → Parse Stat
  | 0, _ => throw .tooDeep
  | fuel + 1, line => do
    enterBlock true
    advance
    let first ← name
    match (← current).token with
    | .sign "=" =>
      declare 4
      advance
      let start ← expression fuel 0
      expect (.sign ",")
      let limit ← expression fuel 0
      let step ← if ← accept (.sign ",") then some <$> expression fuel 0 else pure none
      expect (.word "do")
      let doLine := (← get).lastLine
      enterBlock false
      let vars ← activateAll [(first, false)]
      let body ← block fuel
      let _ ← leaveBlock
      expectClosing (.word "end") (.word "for") line
      modifyScope fun fs => { fs with hidden := fs.hidden - 3 }
      let onBreak ← leaveBlock
      return .numericFor ((vars.map (·.1)).headD 0) start limit step body onBreak line doLine
    | .sign "," | .word "in" =>
      declare 5
      let names ← moreNames fuel [first]
      expect (.word "in")
      let inLine := (← current).line
      let values ← expressions fuel
      expect (.word "do")
      let doLine := (← get).lastLine
      enterBlock false
      let vars ← activateAll (names.map (·, false))
      let body ← block fuel
      let _ ← leaveBlock
      expectClosing (.word "end") (.word "for") line
      modifyScope fun fs => { fs with hidden := fs.hidden - 4 }
      let onBreak ← leaveBlock
      return .genericFor (vars.map (·.1)) values body onBreak inLine doLine
    | _ => fail "'=' or 'in' expected"
termination_by structural fuel => fuel

/-- The rest of a function's name after its first part; whether it names a
    method. -/
def functionName : Nat → Expr → Parse (Expr × Bool)
  | 0, _ => throw .tooDeep
  | fuel + 1, e => do
    if ← accept (.sign ".") then
      let line := (← current).line
      let n ← name
      functionName fuel (.index e (.str n) line)
    else if ← accept (.sign ":") then
      let line := (← current).line
      let n ← name
      return (.index e (.str n) line, true)
    else return (e, false)
termination_by structural fuel => fuel

/-- Parameters and body of a function. -/
def functionBody : Nat → Bool → Nat → Parse Body
  | 0, _, _ => throw .tooDeep
  | fuel + 1, isMethod, line => do
    modify fun s => { s with scopes := ⟨[], [], [], [], [], 0, false, line⟩ :: s.scopes }
    enterBlock false
    expect (.sign "(")
    let self ← if isMethod then
        declare 1
        activateAll [("self".toUTF8, false)]
      else pure []
    let (names, isVararg) ←
      if ← isSign ")" then pure ([], false) else parameters fuel []
    modifyScope fun fs => { fs with isVararg }
    let params ← activateAll (names.map (·, false))
    expect (.sign ")")
    let body ← statements fuel []
    let endLine := (← current).line
    expectClosing (.word "end") (.word "function") line
    let _ ← leaveBlock
    modify fun s => { s with scopes := s.scopes.tail }
    return .mk ((self ++ params).map (·.1)) isVararg body line endLine
termination_by structural fuel => fuel

/-- One or more expressions with commas between them. -/
def expressions : Nat → Parse (List Expr)
  | 0 => throw .tooDeep
  | fuel + 1 => do
    let e ← expression fuel 0
    if ← accept (.sign ",") then return e :: (← expressions fuel) else return [e]
termination_by structural fuel => fuel

/-- An expression whose operators bind more strongly than `power`. -/
def expression : Nat → Nat → Parse Expr
  | 0, _ => throw .tooDeep
  | fuel + 1, power => deeper do
    let l ← current
    let e ← match unaryOp? l.token with
      | some op =>
        advance
        let a ← expression fuel unaryPower
        pure (.unary op a l.line)
      | none => simple fuel
    operators fuel power e
termination_by structural fuel => fuel

/-- The operators after an operand. -/
def operators : Nat → Nat → Expr → Parse Expr
  | 0, _, _ => throw .tooDeep
  | fuel + 1, power, a => do
    let l ← current
    match binaryOp? l.token with
    | none => return a
    | some op =>
      if op.power.1 > power then
        advance
        let b ← expression fuel op.power.2
        let line ← match op with
          | .compare .. => pure (← get).lastLine
          | _ => pure l.line
        operators fuel power (.binary op a b line)
      else return a
termination_by structural fuel => fuel

/-- An operand. -/
def simple : Nat → Parse Expr
  | 0 => throw .tooDeep
  | fuel + 1 => do
    let l ← current
    match l.token with
    | .int i => advance; return .int i
    | .num x => advance; return .num x
    | .str s => advance; return .str s
    | .word "nil" => advance; return .nil
    | .word "true" => advance; return .bool true
    | .word "false" => advance; return .bool false
    | .sign "..." =>
      unless (← scope).isVararg do fail "cannot use '...' outside a vararg function"
      advance
      return .vararg
    | .sign "\x7b" => constructor_ fuel
    | .word "function" =>
      advance
      return .function (← functionBody fuel false l.line)
    | _ => suffixed fuel
termination_by structural fuel => fuel

/-- A name or an expression in parentheses. -/
def primary : Nat → Parse Expr
  | 0 => throw .tooDeep
  | fuel + 1 => do
    let l ← current
    match l.token with
    | .name n =>
      advance
      nameExpr n l.line
    | .sign "(" =>
      advance
      let e ← expression fuel 0
      expectClosing (.sign ")") (.sign "(") l.line
      return .paren e
    | _ => fail "unexpected symbol"
termination_by structural fuel => fuel

/-- A name or an expression in parentheses, with fields and calls after it. -/
def suffixed : Nat → Parse Expr
  | 0 => throw .tooDeep
  | fuel + 1 => do suffixes fuel (← primary fuel)
termination_by structural fuel => fuel

/-- Fields and calls after an expression. -/
def suffixes : Nat → Expr → Parse Expr
  | 0, _ => throw .tooDeep
  | fuel + 1, e => do
    match (← current).token with
    | .sign "." =>
      advance
      let line := (← current).line
      let n ← name
      suffixes fuel (.index e (.str n) line)
    | .sign "[" =>
      let k ← bracketed fuel
      suffixes fuel (.index e k (← get).lastLine)
    | .sign ":" =>
      advance
      let nameLine := (← current).line
      let n ← name
      let (args, line) ← arguments fuel
      suffixes fuel (.method e n args line nameLine)
    | .sign "(" | .str _ | .sign "\x7b" =>
      let (args, line) ← arguments fuel
      suffixes fuel (.call e args line)
    | _ => return e
termination_by structural fuel => fuel

/-- A key in brackets. -/
def bracketed : Nat → Parse Expr
  | 0 => throw .tooDeep
  | fuel + 1 => do
    advance
    let e ← expression fuel 0
    expect (.sign "]")
    return e
termination_by structural fuel => fuel

/-- The arguments of a call, with its line. -/
def arguments : Nat → Parse (List Expr × Nat)
  | 0 => throw .tooDeep
  | fuel + 1 => do
    let l ← current
    match l.token with
    | .sign "(" =>
      advance
      let args ← if ← isSign ")" then pure [] else expressions fuel
      expectClosing (.sign ")") (.sign "(") l.line
      return (args, l.line)
    | .sign "\x7b" => return ([← constructor_ fuel], l.line)
    | .str s =>
      advance
      return ([.str s], l.line)
    | _ => fail "function arguments expected"
termination_by structural fuel => fuel

/-- A table in braces. -/
def constructor_ : Nat → Parse Expr
  | 0 => throw .tooDeep
  | fuel + 1 => do
    let line := (← current).line
    expect (.sign "\x7b")
    let items ← tableItems fuel []
    expectClosing (.sign "\x7d") (.sign "\x7b") line
    return .table items line
termination_by structural fuel => fuel

/-- The items of a table up to its closing brace. -/
def tableItems : Nat → List Item → Parse (List Item)
  | 0, _ => throw .tooDeep
  | fuel + 1, acc => do
    if ← isSign "\x7d" then return acc.reverse
    let item ← tableItem fuel
    if (← accept (.sign ",")) || (← accept (.sign ";")) then tableItems fuel (item :: acc)
    else return (item :: acc).reverse
termination_by structural fuel => fuel

/-- One item of a table. -/
def tableItem : Nat → Parse Item
  | 0 => throw .tooDeep
  | fuel + 1 => do
    let l ← current
    match l.token with
    | .name n =>
      if (← peek) == .sign "=" then
        advance
        expect (.sign "=")
        let v ← expression fuel 0
        return .keyed (.str n) v (← get).lastLine
      else return .positional (← expression fuel 0)
    | .sign "[" =>
      let k ← bracketed fuel
      expect (.sign "=")
      let v ← expression fuel 0
      return .keyed k v (← get).lastLine
    | _ => return .positional (← expression fuel 0)
termination_by structural fuel => fuel

end

/-- A whole program. -/
def program (fuel : Nat) : Parse (List Stat) := do
  checkCurrent
  enterBlock false
  let body ← statements fuel []
  unless (← current).token == .eof do fail "<eof> expected"
  let _ ← leaveBlock
  return body

end Parse

/-- Reads a program whose nesting starts at `depth`. -/
def parse (depth : Nat) (source : Bytes) : Except ParseError Chunk := do
  let toks := tokens source
  -- the variable `_ENV` belongs to a function around the main one
  let outer : FunctionScope := ⟨[⟨"_ENV".toUTF8, 0, false⟩], [], [], [], [], 0, true, 0⟩
  let main : FunctionScope := ⟨[], [], [], [], [], 0, true, 0⟩
  let start : ParseState := ⟨toks, 1, depth, [main, outer], 1, 0, 0, [], []⟩
  let (body, s) ← (Parse.program (24 * (toks.length + 10))).run start
  return ⟨.mk [] true body 0 s.lastLine, 0, s.captured, s.targets⟩

end Reactor.Lua
