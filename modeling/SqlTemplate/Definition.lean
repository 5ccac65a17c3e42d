import SqlTemplate.Lexer

/-!
# Definitions of queries

    document := blank* (query+ | item+)
    query    := name blank* docs? item+
    item     := fragment | parameter

A query ends where the next name begins, and has an item that is not blank. No two queries of a
document have the same name. A parameter also stands for a query of the same set; which of the
two it is shows only when the body is expanded.
-/

namespace SqlTemplate
open SqlTemplate.Source

inductive Piece where
  | literal (text : String)
  | parameter (name : String)
deriving Repr, DecidableEq

namespace Piece

def reference? : Piece → Option String
  | literal _ => none
  | parameter name => some name

/-- A body in which no two literals are neighbours, with the same text between the same
parameters. -/
def merge : List Piece → List Piece
  | [] => []
  | parameter name :: pieces => parameter name :: merge pieces
  | literal text :: pieces =>
    match merge pieces with
    | literal more :: rest => literal (text ++ more) :: rest
    | rest => literal text :: rest

def references (pieces : List Piece) : List String := pieces.filterMap reference?

end Piece

structure Definition where
  name : Option String
  docs : Option String
  body : List Piece
  position : Position
deriving Repr, DecidableEq

inductive Document where
  | named (definitions : List Definition)
  | anonymous (definition : Definition)
deriving Repr, DecidableEq

inductive ParseFault where
  | noBody
  | emptyBody (name : String)
  | misplacedDocs
  /-- A token other than a name where the first name is due. -/
  | beforeName (kind : TokenKind)
  | mixed (name : String)
  /-- A name is taken by a definition further up in the text. -/
  | redefined (name : String) (first : Position)
  /-- A name is taken by an earlier query of a set. -/
  | duplicate (name : String)
  | unnamed
  | expectedName
  | expectedTemplate
  /-- Queries that compose each other; the first is also the last. -/
  | cycle (name : String) (path : List String)
deriving Repr, DecidableEq

def ParseFault.message : ParseFault → String
  | noBody => "empty query body"
  | emptyBody name => s!"empty query body for '{name}'"
  | misplacedDocs => "docs must directly follow a name directive"
  | beforeName kind => s!"unexpected {kind.title} before first name directive"
  | mixed name => s!"named query '{name}' mixed with an unnamed query"
  | redefined name first => s!"duplicate query name '{name}' (first defined at {first.text})"
  | duplicate name => s!"duplicate query name '{name}'"
  | unnamed => "query without a name in a query set"
  | expectedName => "expected a '-- name:' directive"
  | expectedTemplate => "expected an unnamed template"
  | cycle name path =>
    let chain := " -> ".intercalate path
    s!"query '{name}' composes itself ({chain})"

structure ParseError where
  position : Position
  fault : ParseFault
deriving Repr, DecidableEq

def ParseError.message (e : ParseError) : String :=
  s!"Parse error at line {e.position.line}, column {e.position.column}: {e.fault.message}"

def Token.piece (token : Token) : Piece :=
  if token.kind == .parameter then .parameter token.value else .literal token.value

def Piece.isBlank : Piece → Bool
  | literal text => Text.allBlank text
  | parameter _ => false

namespace Definition

def body? (tokens : List Token) : Except ParseError (List Piece) :=
  match tokens.find? (·.kind == .docs) with
  | some docs => .error ⟨docs.position, .misplacedDocs⟩
  | none => .ok (tokens.map Token.piece)

def splitDocs : List Token → Option String × List Token
  | [] => (none, [])
  | token :: tokens =>
    if token.kind == .docs then (some token.value, tokens) else (none, token :: tokens)

def ofGroup (name : Token) (tokens : List Token) : Except ParseError Definition := do
  let (docs, items) := splitDocs (tokens.dropWhile Token.isBlank)
  let body ← body? items
  if body.all Piece.isBlank then
    throw ⟨name.position, .emptyBody name.value⟩
  return { name := some name.value, docs, body, position := name.position }

def ofNamed : List Token → Except ParseError (List Definition)
  | [] => .ok []
  | token :: tokens =>
    match token.kind with
    | .name => do
      let query ← ofGroup token (tokens.takeWhile (·.kind != .name))
      let more ← ofNamed (tokens.dropWhile (·.kind != .name))
      return query :: more
    | .docs => .error ⟨token.position, .misplacedDocs⟩
    | kind => .error ⟨token.position, .beforeName kind⟩
termination_by tokens => tokens.length
decreasing_by
  have := (List.dropWhile_suffix (l := tokens) (·.kind != .name)).length_le
  simp only [List.length_cons]
  omega

def ofTemplate (first : Token) (tokens : List Token) : Except ParseError Definition :=
  match tokens.find? (fun token => token.kind == .name || token.kind == .docs) with
  | some token =>
    let fault := if token.kind == .name then .mixed token.value else .misplacedDocs
    .error ⟨token.position, fault⟩
  | none =>
    .ok { name := none, docs := none, body := tokens.map Token.piece, position := first.position }

/-- Names and positions are unique among named definitions, or the first one that takes a
name again is at fault. -/
def checkNames : (seen : List (String × Position)) → List Definition → Except ParseError Unit
  | _, [] => .ok ()
  | seen, query :: queries =>
    match query.name with
    | none => checkNames seen queries
    | some name =>
      match seen.lookup name with
      | some first => .error ⟨query.position, .redefined name first⟩
      | none => checkNames ((name, query.position) :: seen) queries

end Definition

def Document.ofTokens (tokens : List Token) : Except ParseError Document :=
  match tokens.dropWhile Token.isBlank with
  | [] => .error ⟨Position.first, .noBody⟩
  | first :: rest =>
    if first.kind == .name then do
      let queries ← Definition.ofNamed (first :: rest)
      Definition.checkNames [] queries
      return .named queries
    else
      (Definition.ofTemplate first (first :: rest)).map .anonymous

end SqlTemplate
