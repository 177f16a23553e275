import OperatorDispatch.Toml.Scalar

/-!
# Statements of a TOML document

A document is a list of statements: headers of tables and assignments of values to keys.  The
tokens are first grouped by their brackets.  Line ends outside brackets then separate the
statements, and each value is one group or a run of tokens.
-/

namespace OperatorDispatch
namespace Toml

/-- A token, or all tokens between two brackets. -/
inductive Group where
  | token (token : Token)
  /-- The groups between square brackets. -/
  | square (content : List Group)
  /-- The groups between braces. -/
  | brace (content : List Group)

/-- The two kinds of brackets. -/
inductive Bracket where
  | square
  | brace
  deriving DecidableEq, Repr

/-- Groups tokens.  `opened` holds the brackets that are still open, innermost first, each with the
groups before it; the groups since the innermost bracket are `done`, latest first. -/
def groupTokens : List Token → (opened : List (Bracket × List Group)) → (done : List Group) →
    Option (List Group)
  | [], [], done => some done.reverse
  | [], _ :: _, _ => none
  | .leftBracket :: rest, opened, done => groupTokens rest ((.square, done) :: opened) []
  | .leftBrace :: rest, opened, done => groupTokens rest ((.brace, done) :: opened) []
  | .rightBracket :: rest, (.square, before) :: opened, done =>
      groupTokens rest opened (.square done.reverse :: before)
  | .rightBrace :: rest, (.brace, before) :: opened, done =>
      groupTokens rest opened (.brace done.reverse :: before)
  | .rightBracket :: _, _, _ | .rightBrace :: _, _, _ => none
  | token :: rest, opened, done => groupTokens rest opened (.token token :: done)

/-- A value as it is written. -/
inductive Value where
  | string (text : String)
  /-- A number, a truth value, a date or a time; no setting is one, so its text is not kept. -/
  | scalar
  | array (items : List Value)
  /-- The assignments of an inline table. -/
  | inline (assignments : List (List String × Value))

/-- One statement of a document. -/
inductive Statement where
  /-- The header of a table. -/
  | table (path : List String)
  /-- The header of a new element in an array of tables. -/
  | element (path : List String)
  /-- The assignment of a value. -/
  | assign (path : List String) (value : Value)

/-- How many parts a key may have, and how deep arrays and inline tables may be nested. -/
def maxDepth : Nat := 80

namespace Group

/-- Spaces and tabs. -/
def isBlank : Group → Bool
  | token (.blank _) => true
  | _ => false

/-- White space and comments. -/
def isSpace : Group → Bool
  | token (.blank _) | token .newline | token .comment => true
  | _ => false

/-- A given token. -/
def isToken (expected : Token) : Group → Bool
  | token actual => actual = expected
  | _ => false

/-- Leaves out groups of a kind at both ends. -/
def trim (kind : Group → Bool) (groups : List Group) : List Group :=
  (((groups.dropWhile kind).reverse).dropWhile kind).reverse

/-- The parts between the groups of a kind; there is one part more than there are such groups. -/
def splitAt (kind : Group → Bool) : List Group → List (List Group)
  | [] => [[]]
  | group :: rest =>
      if kind group then
        [] :: splitAt kind rest
      else
        match splitAt kind rest with
        | [] => [[group]]
        | part :: parts => (group :: part) :: parts

/-- The parts of a list with commas, of which the last may be empty. -/
def items (groups : List Group) : Option (List (List Group)) :=
  let parts := (splitAt (isToken .comma) groups).map (trim isSpace)
  let parts := if (parts.getLast?.map (·.isEmpty)).getD false then parts.dropLast else parts
  if parts.any (·.isEmpty) then none else some parts

/-- One part of a key. -/
def keyPart? (groups : List Group) : Option String :=
  match trim isBlank groups with
  | [token (.quoted text)] => some text
  | [token (.bare word)] =>
      if word.all fun c => c.isAlphanum || c = '-' || c = '_' then some word else none
  | _ => none

/-- The parts of a key, which are joined by dots. -/
def key? (groups : List Group) : Option (List String) :=
  let parts := splitAt (isToken .dot) groups
  if parts.length ≤ maxDepth then parts.mapM keyPart? else none

/-- The key and the value of an assignment, which the first equals sign divides. -/
def splitAssignment? (groups : List Group) : Option (List Group × List Group) :=
  let isKey := fun group => !isToken .equals group
  match groups.dropWhile isKey with
  | [] => none
  | _ :: value => some (groups.takeWhile isKey, value)

/-- The text of a token that can be a part of a scalar. -/
def scalarText? : Group → Option (List Char)
  | token (.bare text) | token (.blank text) => some text.toList
  | token .dot => some ['.']
  | _ => none

end Group

/-- The value that is written by some groups, when it is nested at most `depth` deep.  Within an
inline table, white space and comments may surround both sides of an assignment. -/
def value? : (depth : Nat) → List Group → Option Value
  | depth, groups =>
      match depth, Group.trim Group.isBlank groups with
      | _, [.token (.quoted text)] | _, [.token (.multiline text)] => some (.string text)
      | depth + 1, [.square content] => do
          let items ← Group.items content
          return .array (← items.mapM (value? depth))
      | depth + 1, [.brace content] => do
          let items ← Group.items content
          return .inline (← items.mapM fun item => do
            let (key, value) ← Group.splitAssignment? item
            return (← Group.key? (Group.trim Group.isSpace key),
              ← value? depth (Group.trim Group.isSpace value)))
      | _, groups => do
          let texts ← groups.mapM Group.scalarText?
          if isScalar texts.flatten then some .scalar else none

/-- The statement of one line, if the line is not empty. -/
def statement? (line : List Group) : Option (Option Statement) :=
  let isEmpty := fun group => group.isBlank || group.isToken .comment
  match Group.trim isEmpty line with
  | [] => some none
  | [.square [.square path]] => (Group.key? path).map fun path => some (.element path)
  | [.square path] => (Group.key? path).map fun path => some (.table path)
  | line => do
      let (key, value) ← Group.splitAssignment? line
      return some (.assign (← Group.key? key) (← value? maxDepth value))

/-- The statements of a document, or nothing if it is not well formed.  A byte order mark at the
start is left out. -/
def statements? (document : String) : Option (List Statement) := do
  let text :=
    match document.toList with
    | '\ufeff' :: text => text
    | text => text
  let groups ← groupTokens (← tokens text) [] []
  let lines ← (Group.splitAt (Group.isToken .newline) groups).mapM statement?
  return lines.filterMap id

end Toml
end OperatorDispatch
