import Toolsmith.Expansion.Generated

/-! # Reading generated code

The body of a generated function, read back from its trees as a `Routine`: statements, and the
expression that gives the result. Only the forms that generated code is made of are read. Generic
arguments are passed over, and so are the marks of references and of asynchronous blocks.
-/

namespace Toolsmith

open Source

/-- An expression of generated code. -/
inductive Term where
  /-- A literal, as its source text. -/
  | literal (text : String)
  /-- `x` -/
  | named (name : String)
  /-- `Self::f` -/
  | own (function : String)
  /-- `self.f(..)` or `Self::f(..)` -/
  | ownCall (function : String) (arguments : List Term)
  /-- `::a::b` -/
  | item (path : List String)
  /-- `::a::b(..)` -/
  | call (path : List String) (arguments : List Term)
  /-- A new server. What stands between the parentheses was written by the user. -/
  | newServer (code : List Tree)
  /-- `::std::vec![..]` -/
  | list (elements : List Term)
  /-- `::std::format!(..)` -/
  | format (arguments : List Term)
  /-- `::a::B { x }` -/
  | record (path : List String) (fields : List String)
  /-- `e.x` -/
  | field (receiver : Term) (name : String)
  /-- `e.f(..)` -/
  | method (receiver : Term) (name : String) (arguments : List Term)
  /-- `e.map(|x| body)` -/
  | mapped (receiver : Term) (parameter : String) (body : Term)
  /-- `if x { .. } else { .. }` -/
  | choice (condition : String) (positive negative : Term)
  /-- The arm `literal => positive` of a `match x`, with the arms after it. -/
  | arm (subject literal : String) (positive negative : Term)
  /-- `let x = value;`, with what follows it. -/
  | bound (name : String) (value body : Term)

/-- A statement of generated code. -/
inductive Statement where
  /-- `let x = value;` -/
  | bind (name : String) (value : Term)
  /-- `x.register_tool(tool, handler);` -/
  | register (server : String) (tool handler : Term)
  /-- `x.with_method_handler(path, move |parameter| answer);` -/
  | respond (server : String) (path : List String) (parameter : String) (answer : Term)

/-- The body of a function. -/
structure Routine where
  statements : List Statement
  result : Option Term

namespace Routine

/-- The parts of some code between the marks outside of groups. -/
def divide (mark : Char) : List Tree → List (List Tree)
  | [] => [[]]
  | .punct found joint :: rest =>
    if found = mark then [] :: divide mark rest
    else
      match divide mark rest with
      | first :: others => (.punct found joint :: first) :: others
      | [] => []
  | tree :: rest =>
    match divide mark rest with
    | first :: others => (tree :: first) :: others
    | [] => []

/-- The elements of a list, after which one more comma may stand. -/
def elements (code : List Tree) : List (List Tree) :=
  let parts := divide ',' code
  if (parts.getLast?.getD []).isEmpty then parts.dropLast else parts

/-- Code without the generic arguments outside of groups. -/
def withoutGenerics : Nat → List Tree → List Tree
  | 0, .punct ':' _ :: .punct ':' _ :: .punct '<' _ :: rest => withoutGenerics 1 rest
  | 0, tree :: rest => tree :: withoutGenerics 0 rest
  | level + 1, .punct '<' _ :: rest => withoutGenerics (level + 2) rest
  | level + 1, .punct '>' _ :: rest => withoutGenerics level rest
  | level + 1, _ :: rest => withoutGenerics (level + 1) rest
  | _, [] => []

/-- The path from the root at the front of some code, and what follows it. -/
def takePath : List Tree → List String × List Tree
  | .punct ':' _ :: .punct ':' _ :: .ident segment :: rest =>
    let (path, rest) := takePath rest
    (segment.name :: path, rest)
  | rest => ([], rest)

/-- The expressions of a list. -/
def readAll (read : List Tree → Option Term) (code : List Tree) : Option (List Term) :=
  (elements code).mapM read

/-- What is made with the item at a path, and what follows that. -/
def readItem (read : List Tree → Option Term) (path : List String) :
    List Tree → Option (Term × List Tree)
  | .punct '!' _ :: .group _ content :: rest => do
    let arguments ← readAll read content
    if path = ["std", "vec"] then return (.list arguments, rest)
    else if path = ["std", "format"] then return (.format arguments, rest)
    else none
  | .group .paren content :: rest => do
    if path = [runtimeCrate, "Server", "new"] then return (.newServer content, rest)
    else return (.call path (← readAll read content), rest)
  | .group .brace content :: rest => do
    let fields ← (elements content).mapM fun
      | [.ident field] => some field.name
      | _ => none
    return (.record path fields, rest)
  | rest => some (.item path, rest)

/-- The expression at the front of some code up to its first point, and what follows. -/
def readHead (read : List Tree → Option Term) : List Tree → Option (Term × List Tree)
  | .literal text :: rest => some (.literal text, rest)
  | .ident ⟨false, "Self"⟩ :: .punct ':' _ :: .punct ':' _ :: .ident function ::
      .group .paren content :: rest => do
    return (.ownCall function.name (← readAll read content), rest)
  | .ident ⟨false, "Self"⟩ :: .punct ':' _ :: .punct ':' _ :: .ident function :: rest =>
    some (.own function.name, rest)
  | .ident ⟨false, "self"⟩ :: .punct '.' _ :: .ident function :: .group .paren content :: rest => do
    return (.ownCall function.name (← readAll read content), rest)
  | .ident found :: rest => some (.named found.name, rest)
  | code =>
    let (path, rest) := takePath code
    if path.isEmpty then none else readItem read path rest

/-- An expression with the fields and methods after it. -/
def readTail (read : List Tree → Option Term) (receiver : Term) : List Tree → Option Term
  | [] => some receiver
  | .punct '.' _ :: .ident ⟨false, "map"⟩ ::
      .group .paren (.punct '|' _ :: .ident parameter :: .punct '|' _ :: body) :: rest => do
    readTail read (.mapped receiver parameter.name (← read body)) rest
  | .punct '.' _ :: .ident method :: .group .paren content :: rest => do
    readTail read (.method receiver method.name (← readAll read content)) rest
  | .punct '.' _ :: .ident field :: rest => readTail read (.field receiver field.name) rest
  | _ => none

/-- The arms of a `match`, of which the last is for all else. -/
def readArms (read : List Tree → Option Term) (subject : String) : List (List Tree) → Option Term
  | [] => none
  | (.ident ⟨false, "_"⟩ :: .punct '=' _ :: .punct '>' _ :: body) :: _ => read body
  | (.literal text :: .punct '=' _ :: .punct '>' _ :: body) :: rest => do
    return .arm subject text (← read body) (← readArms read subject rest)
  | _ => none

/-- The inside of a block, which binds variables and then gives its value. -/
def readBlock (read : List Tree → Option Term) : List (List Tree) → Option Term
  | [] => none
  | [result] => read result
  | (.ident ⟨false, "let"⟩ :: .ident bound :: .punct '=' _ :: value) :: rest => do
    return .bound bound.name (← read value) (← readBlock read rest)
  | _ => none

/-- An expression in which groups are nested up to a depth. -/
def readTerm : Nat → List Tree → Option Term
  | 0, _ => none
  | depth + 1, .punct '&' _ :: rest => readTerm depth rest
  | depth + 1, [.group .brace content] => readBlock (readTerm depth) (divide ';' content)
  | depth + 1, .ident ⟨false, "async"⟩ :: .ident ⟨false, "move"⟩ :: [.group .brace content] =>
    readBlock (readTerm depth) (divide ';' content)
  | depth + 1, .ident ⟨false, "if"⟩ :: .ident condition :: .group .brace positive ::
      .ident ⟨false, "else"⟩ :: [.group .brace negative] => do
    return .choice condition.name (← readTerm depth positive) (← readTerm depth negative)
  | depth + 1, .ident ⟨false, "match"⟩ :: .ident subject :: [.group .brace arms] =>
    readArms (readTerm depth) subject.name (elements arms)
  | depth + 1, code => do
    let (head, rest) ← readHead (readTerm depth) (withoutGenerics 0 code)
    readTail (readTerm depth) head rest

/-- An expression. -/
def readExpression (code : List Tree) : Option Term := readTerm nestingLimit code

/-- A statement without its semicolon. -/
def readStatement : List Tree → Option Statement
  | .ident ⟨false, "let"⟩ :: .ident bound :: .punct '=' _ :: value => do
    return .bind bound.name (← readExpression value)
  | .ident server :: .punct '.' _ :: .ident ⟨false, "register_tool"⟩ ::
      [.group .paren content] => do
    match elements content with
    | [tool, handler] =>
      return .register server.name (← readExpression tool) (← readExpression handler)
    | _ => none
  | .ident server :: .punct '.' _ :: .ident ⟨false, "with_method_handler"⟩ ::
      [.group .paren content] => do
    match elements content with
    | [item, .ident ⟨false, "move"⟩ :: .punct '|' _ :: .ident parameter :: .punct '|' _ :: body] =>
      return .respond server.name (takePath item).1 parameter.name (← readExpression body)
    | _ => none
  | _ => none

/-- The body of a function. -/
def read (code : List Tree) : Option Routine := do
  let parts := divide ';' code
  let last := parts.getLast?.getD []
  return {
    statements := ← parts.dropLast.mapM readStatement
    result := ← if last.isEmpty then pure none else some <$> readExpression last }

end Routine

end Toolsmith
