/-
  Scopes, as the parser keeps them.

  A function has its active variables, the labels in sight, and the jumps that
  still wait for a label.  Leaving a block drops its variables and labels, and
  hands its waiting jumps to the block around it.
-/
import Reactor.Lua.Syntax

namespace Reactor.Lua

/-- An active variable; `isConst` if it must not be assigned. -/
structure LocalVar where
  name : Bytes
  id : VarId
  isConst : Bool
deriving Inhabited

/-- A label in sight, with the number of variables active at it. -/
structure LabelEntry where
  name : Bytes
  line : Nat
  id : Nat
  active : Nat

/-- A jump that waits for its label, with the number of variables active at
    it. -/
structure WaitingJump where
  name : Bytes
  line : Nat
  jump : Nat
  active : Nat

/-- A block: whether `break` leaves it, and what was there when it began. -/
structure BlockScope where
  isLoop : Bool
  vars : Nat
  labels : Nat
  jumps : Nat

/-- A function being read.  Lists have the newest item first. -/
structure FunctionScope where
  vars : List LocalVar
  labels : List LabelEntry
  jumps : List WaitingJump
  blocks : List BlockScope
  /-- variables of functions around this one that it or one inside it uses -/
  upvalues : List VarId
  /-- variables declared that are not active yet, and unnamed ones -/
  hidden : Nat
  isVararg : Bool
  line : Nat

/-- What is wrong with a program. -/
inductive ParseError where
  /-- a message with its line and the text it shows -/
  | message (line : Nat) (text : Bytes)
  /-- nesting beyond the limit -/
  | tooDeep
deriving Inhabited

/-- The state of the parser. -/
structure ParseState where
  /-- the tokens from the current one on -/
  toks : List Lexeme
  /-- the line of the token before -/
  lastLine : Nat
  depth : Nat
  scopes : List FunctionScope
  nextVar : Nat
  nextJump : Nat
  nextLabel : Nat
  captured : List VarId
  targets : List (Nat × Nat)

/-- A step of parsing a source. -/
abbrev Parse := StateT ParseState (Except ParseError)

/-- How deep statements and expressions may nest. -/
def maxDepth : Nat := 200

namespace Parse

/-! ## Tokens -/

/-- The current token. -/
def current : Parse Lexeme := do
  return (← get).toks.headD ⟨.eof, "<eof>".toUTF8, (← get).lastLine⟩

/-- A text up to its first zero byte. -/
def cutAtZero (s : Bytes) : Bytes :=
  match s.findIdx? (· == 0) with
  | some i => s.extract 0 i
  | none => s

/-- A text in single quotes. -/
def quoted (s : Bytes) : Bytes := "'".toUTF8 ++ cutAtZero s ++ "'".toUTF8

/-- How a message shows a lexeme. -/
def shown (l : Lexeme) : Bytes :=
  match l.token with
  | .eof => "<eof>".toUTF8
  | _ => quoted l.text

/-- Fails with a message that shows the current token. -/
def fail {α : Type} (message : String) : Parse α := do
  let l ← current
  throw (.message l.line (message.toUTF8 ++ " near ".toUTF8 ++ shown l))

/-- Fails with a message alone. -/
def refuse {α : Type} (message : Bytes) : Parse α := do
  throw (.message (← current).line message)

/-- Fails if the current token is no token. -/
def checkCurrent : Parse Unit := do
  let l ← current
  match l.token with
  | .bad message near =>
    let near := match near with
      | some t => quoted t
      | none => "<eof>".toUTF8
    throw (.message l.line (message.toUTF8 ++ " near ".toUTF8 ++ near))
  | _ => pure ()

/-- Goes on to the next token. -/
def advance : Parse Unit := do
  let l ← current
  modify fun s => { s with lastLine := l.line, toks := s.toks.tail }
  checkCurrent

/-- The token after the current one. -/
def peek : Parse Token := do
  let s ← get
  match s.toks with
  | _ :: l :: _ =>
    match l.token with
    | .bad .. =>
      set { s with toks := s.toks.tail }
      checkCurrent
      return .eof
    | t => return t
  | _ => return .eof

/-- Whether a sign comes next. -/
def isSign (s : String) : Parse Bool := do return (← current).token == .sign s

/-- Whether a reserved word comes next. -/
def isWord (w : String) : Parse Bool := do return (← current).token == .word w

/-- Goes past a token if it is the current one. -/
def accept (t : Token) : Parse Bool := do
  if (← current).token == t then
    advance
    return true
  else return false

/-- The spelling of a sign or a word. -/
def spelling : Token → String
  | .sign s => "'" ++ s ++ "'"
  | .word w => "'" ++ w ++ "'"
  | .name _ => "<name>"
  | _ => "<eof>"

/-- Goes past a token, which must be the current one. -/
def expect (t : Token) : Parse Unit := do
  unless ← accept t do fail (spelling t ++ " expected")

/-- Goes past the token that closes what another opened on a line. -/
def expectClosing (close opener : Token) (line : Nat) : Parse Unit := do
  unless ← accept close do
    if (← current).line = line then fail (spelling close ++ " expected")
    else fail (spelling close ++ " expected (to close " ++ spelling opener ++ " at line "
      ++ toString line ++ ")")

/-- Goes past a name. -/
def name : Parse Bytes := do
  match (← current).token with
  | .name s => advance; return s
  | _ => fail "<name> expected"

/-- Whether the current token ends a block; `until` does if asked. -/
def atBlockEnd (withUntil : Bool) : Parse Bool := do
  match (← current).token with
  | .eof => return true
  | .word w => return w == "else" || w == "elseif" || w == "end" || (withUntil && w == "until")
  | _ => return false

/-- Runs a part one level deeper. -/
def deeper {α : Type} (p : Parse α) : Parse α := do
  let s ← get
  if s.depth + 1 ≥ maxDepth then throw .tooDeep
  set { s with depth := s.depth + 1 }
  let a ← p
  modify fun s => { s with depth := s.depth - 1 }
  return a

/-! ## Variables -/

/-- The innermost function being read. -/
def scope : Parse FunctionScope := do
  return (← get).scopes.headD ⟨[], [], [], [], [], 0, true, 0⟩

/-- Changes the innermost function. -/
def modifyScope (f : FunctionScope → FunctionScope) : Parse Unit :=
  modify fun s => { s with scopes := match s.scopes with
    | fs :: r => f fs :: r
    | [] => [] }

/-- Where a limit is exceeded. -/
def limitPlace (fs : FunctionScope) : String :=
  if fs.line = 0 then "main function" else "function at line " ++ toString fs.line

/-- Declares variables that are not active yet; a function has at most 200. -/
def declare (n : Nat) : Parse Unit := do
  let fs ← scope
  if fs.vars.length + fs.hidden + n > 200 then
    fail ("too many local variables (limit is 200) in " ++ limitPlace fs)
  modifyScope fun fs => { fs with hidden := fs.hidden + n }

/-- A variable of its own number. -/
def newVar : Parse VarId := do
  let s ← get
  set { s with nextVar := s.nextVar + 1 }
  return s.nextVar

/-- Makes a declared variable active. -/
def activate (name : Bytes) (id : VarId) (isConst : Bool) : Parse Unit :=
  modifyScope fun fs => { fs with
    vars := ⟨name, id, isConst⟩ :: fs.vars, hidden := fs.hidden - 1 }

/-- Looks a name up from the innermost function outward; with the number of
    functions passed. -/
def lookup (name : Bytes) : List FunctionScope → Nat → Option (LocalVar × Nat)
  | [], _ => none
  | fs :: r, k =>
    match fs.vars.find? (·.name == name) with
    | some v => some (v, k)
    | none => lookup name r (k + 1)

/-- Records that the innermost `k` functions use a variable of the one around
    them. -/
def capture (id : VarId) : Nat → List FunctionScope → Except FunctionScope (List FunctionScope)
  | 0, scopes => .ok scopes
  | _, [] => .ok []
  | k + 1, fs :: r => do
    let r ← capture id k r
    if fs.upvalues.contains id then .ok (fs :: r)
    else if fs.upvalues.length ≥ 255 then .error fs
    else .ok ({ fs with upvalues := id :: fs.upvalues } :: r)

/-- The variable a name stands for, if it is not a global. -/
def resolve? (name : Bytes) : Parse (Option LocalVar) := do
  let s ← get
  match lookup name s.scopes 0 with
  | none => return none
  | some (v, k) =>
    match capture v.id k s.scopes with
    | .ok scopes =>
      set { s with scopes, captured := if k = 0 then s.captured else v.id :: s.captured }
      return some v
    | .error fs => fail ("too many upvalues (limit is 255) in " ++ limitPlace fs)

/-- The text of a name, which is ASCII. -/
def nameText (s : Bytes) : String := String.ofList (toChars s)

/-- The expression that a name is: a variable, or a field of `_ENV`. -/
def nameExpr (name : Bytes) (line : Nat) : Parse Expr := do
  match ← resolve? name with
  | some v => return .var v.id (nameText name)
  | none =>
    match ← resolve? "_ENV".toUTF8 with
    | some env => return .index (.var env.id "_ENV") (.str name) line
    | none => fail "unexpected symbol"

/-! ## Blocks and jumps -/

/-- Opens a block. -/
def enterBlock (isLoop : Bool) : Parse Unit :=
  modifyScope fun fs => { fs with
    blocks := ⟨isLoop, fs.vars.length, fs.labels.length, fs.jumps.length⟩ :: fs.blocks }

/-- A number for a label that no other has. -/
def newLabel : Parse Nat := do
  let s ← get
  set { s with nextLabel := s.nextLabel + 1 }
  return s.nextLabel

/-- Gives a jump its label. -/
def aim (jump label : Nat) : Parse Unit :=
  modify fun s => { s with targets := (jump, label) :: s.targets }

/-- The name of the variable that comes after the first `n`. -/
def varAfter (fs : FunctionScope) (n : Nat) : Bytes :=
  (fs.vars.reverse.drop n).head?.elim .empty (·.name)

/-- Sends the jumps of the innermost block that wait for a label to it. -/
def settle (label : LabelEntry) : Parse Unit := do
  let fs ← scope
  let first := (fs.blocks.head?.map (·.jumps)).getD 0
  let (young, old) := fs.jumps.splitAt (fs.jumps.length - first)
  match (young.reverse.find? fun j => j.name == label.name && j.active < label.active) with
  | some j =>
    refuse ("<goto ".toUTF8 ++ j.name ++ ("> at line " ++ toString j.line
      ++ " jumps into the scope of local '").toUTF8 ++ varAfter fs j.active ++ "'".toUTF8)
  | none =>
    for j in young do
      if j.name == label.name then aim j.jump label.id
    modifyScope fun fs => { fs with jumps := young.filter (·.name != label.name) ++ old }

/-- The name under which `break` waits for the end of its loop. -/
def breakName : Bytes := "break".toUTF8

/-- Leaves a block; gives the label that its `break`s go to. -/
def leaveBlock : Parse Nat := do
  let fs ← scope
  match fs.blocks with
  | [] => return 0
  | b :: outer =>
    modifyScope fun fs => { fs with vars := fs.vars.drop (fs.vars.length - b.vars) }
    let label ← newLabel
    if b.isLoop then settle ⟨breakName, 0, label, b.vars⟩
    let fs ← scope
    let (young, old) := fs.jumps.splitAt (fs.jumps.length - b.jumps)
    let young := young.map fun j => { j with active := min j.active b.vars }
    modifyScope fun fs => { fs with
      labels := fs.labels.drop (fs.labels.length - b.labels), blocks := outer,
      jumps := young ++ old }
    if outer.isEmpty then
      match young.getLast? with
      | some j =>
        if j.name == breakName then
          refuse ("break outside loop at line " ++ toString j.line).toUTF8
        else
          refuse ("no visible label '".toUTF8 ++ j.name ++ "' for <goto> at line ".toUTF8
            ++ (toString j.line).toUTF8)
      | none => pure ()
    return label

/-- A new jump that waits for a label. -/
def waitFor (name : Bytes) (line : Nat) : Parse Nat := do
  let s ← get
  set { s with nextJump := s.nextJump + 1 }
  modifyScope fun fs => { fs with jumps := ⟨name, line, s.nextJump, fs.vars.length⟩ :: fs.jumps }
  return s.nextJump

/-- A new jump, to a label in sight if there is one. -/
def jumpTo (name : Bytes) (line : Nat) : Parse Nat := do
  let fs ← scope
  match fs.labels.find? (·.name == name) with
  | some l =>
    let s ← get
    set { s with nextJump := s.nextJump + 1 }
    aim s.nextJump l.id
    return s.nextJump
  | none => waitFor name line

/-- Defines a label; one at the end of its block lies outside the block's
    variables. -/
def defineLabel (name : Bytes) (line : Nat) (atEnd : Bool) : Parse Nat := do
  let fs ← scope
  match fs.labels.find? (·.name == name) with
  | some l =>
    refuse ("label '".toUTF8 ++ name ++ ("' already defined on line " ++ toString l.line).toUTF8)
  | none =>
    let id ← newLabel
    let active := if atEnd then (fs.blocks.head?.map (·.vars)).getD 0 else fs.vars.length
    let entry : LabelEntry := ⟨name, line, id, active⟩
    modifyScope fun fs => { fs with labels := entry :: fs.labels }
    settle entry
    return id

end Parse

end Reactor.Lua
