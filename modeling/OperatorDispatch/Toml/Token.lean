/-!
# Tokens of a TOML document

A document is cut into tokens without regard to their meaning.  Strings are decoded on the way.
Line ends are LF or CRLF; control characters other than the tab stand nowhere.  Each scanner
returns the characters after what it has read, and says that they are fewer than before.
-/

namespace OperatorDispatch
namespace Toml

/-- A piece of a document. -/
inductive Token where
  /-- Spaces and tabs. -/
  | blank (text : String)
  /-- A comment, without the line end after it. -/
  | comment
  /-- A line end. -/
  | newline
  | dot
  | equals
  | comma
  | leftBracket
  | rightBracket
  | leftBrace
  | rightBrace
  /-- A word without quotes. -/
  | bare (word : String)
  /-- A string on one line, which may serve as a key. -/
  | quoted (text : String)
  /-- A string over several lines. -/
  | multiline (text : String)
  deriving DecidableEq, Repr

/-- The characters that are left of a text after something was read from it. -/
abbrev Shorter (text : List Char) := { rest : List Char // rest.length < text.length }

/-- Spaces and tabs. -/
def isBlank (c : Char) : Bool :=
  c = ' ' || c = '\t'

/-- Control characters that stand nowhere but, where lines end, as part of the line end. -/
def isControl (c : Char) : Bool :=
  (c.val < 0x20 && c ≠ '\t') || c.val = 0x7f

/-- Characters that end a word.  Quotes do not: they begin a string only where no word has begun. -/
def isSpecial (c : Char) : Bool :=
  [' ', '\t', '\n', '\r', '#', '.', ',', '=', '[', ']', '\x7b', '\x7d'].contains c

/-- The value of a hexadecimal digit. -/
def hexDigit? (c : Char) : Option Nat :=
  if c.isDigit then some (c.toNat - '0'.toNat)
  else if 'a' ≤ c ∧ c ≤ 'f' then some (c.toNat - 'a'.toNat + 10)
  else if 'A' ≤ c ∧ c ≤ 'F' then some (c.toNat - 'A'.toNat + 10)
  else none

/-- The character whose code is written in hexadecimal digits.  Surrogates are no characters. -/
def charOfHex? (digits : List Char) : Option Char := do
  let digits ← digits.mapM hexDigit?
  let code := digits.foldl (fun code digit => 16 * code + digit) 0
  if code.isValidChar then some (Char.ofNat code) else none

theorem length_lt_length_cons_append (c : Char) (read rest : List Char) :
    rest.length < (c :: (read ++ rest)).length := by
  simp only [List.length_cons, List.length_append]
  omega

/-- The character after a backslash. -/
def escape? : (text : List Char) → Option (Char × Shorter text)
  | 'b' :: rest => some ('\x08', ⟨rest, Nat.lt_succ_self _⟩)
  | 't' :: rest => some ('\t', ⟨rest, Nat.lt_succ_self _⟩)
  | 'n' :: rest => some ('\n', ⟨rest, Nat.lt_succ_self _⟩)
  | 'f' :: rest => some ('\x0c', ⟨rest, Nat.lt_succ_self _⟩)
  | 'r' :: rest => some ('\r', ⟨rest, Nat.lt_succ_self _⟩)
  | 'e' :: rest => some ('\x1b', ⟨rest, Nat.lt_succ_self _⟩)
  | '"' :: rest => some ('"', ⟨rest, Nat.lt_succ_self _⟩)
  | '\\' :: rest => some ('\\', ⟨rest, Nat.lt_succ_self _⟩)
  | 'x' :: a :: b :: rest =>
      have shorter := length_lt_length_cons_append 'x' [a, b] rest
      (charOfHex? [a, b]).map fun c => (c, ⟨rest, shorter⟩)
  | 'u' :: a :: b :: c :: d :: rest =>
      have shorter := length_lt_length_cons_append 'u' [a, b, c, d] rest
      (charOfHex? [a, b, c, d]).map fun c => (c, ⟨rest, shorter⟩)
  | 'U' :: a :: b :: c :: d :: e :: f :: g :: h :: rest =>
      have shorter := length_lt_length_cons_append 'U' [a, b, c, d, e, f, g, h] rest
      (charOfHex? [a, b, c, d, e, f, g, h]).map fun c => (c, ⟨rest, shorter⟩)
  | _ => none

/-- The contents of a basic string on one line, and the text after its closing quote. -/
def basicString : List Char → Option (List Char × List Char)
  | [] => none
  | '"' :: rest => some ([], rest)
  | '\\' :: rest =>
      match escape? rest with
      | none => none
      | some (c, ⟨after, _⟩) => (basicString after).map fun (cs, after) => (c :: cs, after)
  | c :: rest =>
      if isControl c then none else (basicString rest).map fun (cs, after) => (c :: cs, after)
termination_by text => text.length

/-- The contents of a literal string on one line, and the text after its closing quote. -/
def literalString : List Char → Option (List Char × List Char)
  | [] => none
  | '\'' :: rest => some ([], rest)
  | c :: rest =>
      if isControl c then none else (literalString rest).map fun (cs, after) => (c :: cs, after)

/-- Leaves out blanks and line ends. -/
def dropSpace : List Char → List Char
  | ' ' :: rest | '\t' :: rest | '\n' :: rest => dropSpace rest
  | '\r' :: '\n' :: rest => dropSpace rest
  | text => text

/-- Leaves out one line end. -/
def dropLineEnd : List Char → List Char
  | '\n' :: rest => rest
  | '\r' :: '\n' :: rest => rest
  | text => text

/-- Whether the text has nothing but blanks before the end of its line. -/
def startsBlankLine (text : List Char) : Bool :=
  match text.dropWhile isBlank with
  | '\n' :: _ => true
  | '\r' :: '\n' :: _ => true
  | _ => false

/-- The quotes that belong to a multi-line string although its three closing quotes have been
read, and the text after them.  There can be two. -/
def trailingQuotes (quote : Char) : List Char → List Char × List Char
  | a :: b :: rest =>
      if a = quote then
        if b = quote then ([quote, quote], rest) else ([quote], b :: rest)
      else
        ([], a :: b :: rest)
  | [a] => if a = quote then ([quote], []) else ([], [a])
  | [] => ([], [])

theorem length_dropSpace_le (text : List Char) : (dropSpace text).length ≤ text.length := by
  fun_induction dropSpace text <;> simp_all <;> omega

/-- The contents of a multi-line basic string, and the text after its closing quotes.  A backslash
at the end of a line hides all white space that follows. -/
def multilineBasic : List Char → Option (List Char × List Char)
  | [] => none
  | '"' :: '"' :: '"' :: rest => some (trailingQuotes '"' rest)
  | '\\' :: rest =>
      if startsBlankLine rest then
        multilineBasic (dropSpace rest)
      else
        match escape? rest with
        | none => none
        | some (c, ⟨after, _⟩) => (multilineBasic after).map fun (cs, after) => (c :: cs, after)
  | '\n' :: rest => (multilineBasic rest).map fun (cs, after) => ('\n' :: cs, after)
  | '\r' :: '\n' :: rest => (multilineBasic rest).map fun (cs, after) => ('\n' :: cs, after)
  | c :: rest =>
      if isControl c then none else (multilineBasic rest).map fun (cs, after) => (c :: cs, after)
termination_by text => text.length
decreasing_by
  all_goals simp only [List.length_cons]
  · have := length_dropSpace_le rest
    omega
  all_goals omega

/-- The contents of a multi-line literal string, and the text after its closing quotes. -/
def multilineLiteral : List Char → Option (List Char × List Char)
  | [] => none
  | '\'' :: '\'' :: '\'' :: rest => some (trailingQuotes '\'' rest)
  | '\n' :: rest => (multilineLiteral rest).map fun (cs, after) => ('\n' :: cs, after)
  | '\r' :: '\n' :: rest => (multilineLiteral rest).map fun (cs, after) => ('\n' :: cs, after)
  | c :: rest =>
      if isControl c then none else (multilineLiteral rest).map fun (cs, after) => (c :: cs, after)

/-- The text after a comment, from the line end on. -/
def afterComment : List Char → Option (List Char)
  | [] => some []
  | '\n' :: rest => some ('\n' :: rest)
  | '\r' :: '\n' :: rest => some ('\r' :: '\n' :: rest)
  | c :: rest => if isControl c then none else afterComment rest

/-- The first token of a text, and the text after it. -/
def nextToken : List Char → Option (Token × List Char)
  | [] => none
  | '\n' :: rest => some (.newline, rest)
  | '\r' :: '\n' :: rest => some (.newline, rest)
  | '#' :: rest => (afterComment rest).map fun after => (.comment, after)
  | '.' :: rest => some (.dot, rest)
  | '=' :: rest => some (.equals, rest)
  | ',' :: rest => some (.comma, rest)
  | '[' :: rest => some (.leftBracket, rest)
  | ']' :: rest => some (.rightBracket, rest)
  | '\x7b' :: rest => some (.leftBrace, rest)
  | '\x7d' :: rest => some (.rightBrace, rest)
  | '"' :: '"' :: '"' :: rest =>
      (multilineBasic (dropLineEnd rest)).map fun (text, after) =>
        (.multiline (String.ofList text), after)
  | '"' :: rest =>
      (basicString rest).map fun (text, after) => (.quoted (String.ofList text), after)
  | '\'' :: '\'' :: '\'' :: rest =>
      (multilineLiteral (dropLineEnd rest)).map fun (text, after) =>
        (.multiline (String.ofList text), after)
  | '\'' :: rest =>
      (literalString rest).map fun (text, after) => (.quoted (String.ofList text), after)
  | c :: rest =>
      if isBlank c then
        some (.blank (String.ofList (c :: rest.takeWhile isBlank)), rest.dropWhile isBlank)
      else if isSpecial c then
        none
      else
        let word := rest.takeWhile fun c => !isSpecial c
        some (.bare (String.ofList (c :: word)), rest.dropWhile fun c => !isSpecial c)

/-- The tokens of a text, or nothing if it cannot be cut into tokens. -/
def tokens : List Char → Option (List Token)
  | [] => some []
  | c :: rest =>
      match nextToken (c :: rest) with
      | none => none
      | some (token, after) =>
          if after.length < (c :: rest).length then
            (tokens after).map (token :: ·)
          else
            none
termination_by text => text.length
decreasing_by assumption

end Toml
end OperatorDispatch
