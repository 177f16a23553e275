import OperatorDispatch.Toml.Token

/-!
# Scalars of a TOML document

Truth values, numbers, dates and times are written without quotes.  No setting has such a value, so
it is enough to know which texts are scalars: a document with any other text in the place of a value
is not well formed.  Dates and times are checked to the last digit.  Of an integer only the form is
checked, as far as it takes to tell it from other values and to find its underscores in order.
-/

namespace OperatorDispatch
namespace Toml
namespace Scalar

/-! ### Numbers -/

/-- Hexadecimal digits. -/
def isHexDigit (c : Char) : Bool :=
  (hexDigit? c).isSome

/-- Digits from zero to another digit. -/
def isDigitUpTo (last : Char) (c : Char) : Bool :=
  '0' ≤ c && c ≤ last

/-- Whether every underscore stands between two digits, the first of which may precede the text. -/
def isSpaced (isDigit : Char → Bool) : (afterDigit : Bool) → List Char → Bool
  | _, [] => true
  | afterDigit, '_' :: rest => afterDigit && rest.head?.any isDigit && isSpaced isDigit false rest
  | _, c :: rest => isSpaced isDigit (isDigit c) rest

/-- The digits of an integer after the mark of its base.  There may be none. -/
def isBased (isDigit : Char → Bool) (text : List Char) : Bool :=
  text.all (fun c => isDigit c || c = '_') && isSpaced isDigit false text

/-- One or more decimal digits. -/
def isDigits (text : List Char) : Bool :=
  !text.isEmpty && text.all Char.isDigit

/-- Leaves out one sign. -/
def dropSign : List Char → List Char
  | '+' :: rest | '-' :: rest => rest
  | text => text

/-- The fraction of a decimal number, which may be missing. -/
def isFraction : List Char → Bool
  | [] => true
  | '.' :: rest => isDigits rest
  | _ => false

/-- The exponent of a decimal number, which may be missing. -/
def isExponent : List Char → Bool
  | [] => true
  | 'e' :: rest | 'E' :: rest => isDigits (dropSign rest)
  | _ => false

/-- The part of a text in front of the first of some marks, and the part from that mark on. -/
def splitBefore (marks : List Char) (text : List Char) : List Char × List Char :=
  text.span fun c => !marks.contains c

/-- A decimal number without a sign.  Its whole part has no zero in front of other digits. -/
def isDecimal (text : List Char) : Bool :=
  let (number, exponent) := splitBefore ['e', 'E'] (text.filter (· ≠ '_'))
  let (whole, fraction) := splitBefore ['.'] number
  isSpaced Char.isDigit false text && isDigits whole && isFraction fraction && isExponent exponent
    && (whole.head? ≠ some '0' || whole = ['0'])

/-- An integer without a sign that is written in groups.  After the first group only the neighbours
of underscores have to be digits, and hexadecimal ones will do; a space, a point or an exponent
would make it another value. -/
def isGrouped (text : List Char) : Bool :=
  (text.dropWhile Char.isDigit).head? = some '_' && text.head? ≠ some '0'
    && !text.any [' ', '.', 'e', 'E'].contains && isSpaced isHexDigit false text

/-- A number without a sign that is not marked with a base. -/
def isUnsigned (text : List Char) : Bool :=
  text = "inf".toList || text = "nan".toList || isDecimal text || isGrouped text

/-- A number.  There is no sign in front of the mark of a base. -/
def isNumber : List Char → Bool
  | '0' :: 'x' :: digits => isBased isHexDigit digits
  | '0' :: 'o' :: digits => isBased (isDigitUpTo '7') digits
  | '0' :: 'b' :: digits => isBased (isDigitUpTo '1') digits
  | text => isUnsigned (dropSign text)

/-! ### Dates and times -/

/-- A number with a given count of decimal digits, and the text after it. -/
def digits? (count : Nat) (text : List Char) : Option (Nat × List Char) :=
  let digits := text.take count
  if digits.length = count ∧ digits.all Char.isDigit then
    let value := digits.foldl (fun value digit => 10 * value + (digit.toNat - '0'.toNat)) 0
    some (value, text.drop count)
  else
    none

/-- The text after a character that has to come first. -/
def after? (expected : Char) : List Char → Option (List Char)
  | c :: rest => if c = expected then some rest else none
  | [] => none

/-- The number of days of a month in the Gregorian calendar. -/
def daysOf (year month : Nat) : Nat :=
  let isLeap := year % 4 = 0 ∧ (year % 100 ≠ 0 ∨ year % 400 = 0)
  match month with
  | 1 | 3 | 5 | 7 | 8 | 10 | 12 => 31
  | 4 | 6 | 9 | 11 => 30
  | 2 => if isLeap then 29 else 28
  | _ => 0

/-- The text after a date. -/
def afterDate? (text : List Char) : Option (List Char) := do
  let (year, rest) ← digits? 4 text
  let (month, rest) ← digits? 2 (← after? '-' rest)
  let (day, rest) ← digits? 2 (← after? '-' rest)
  if 1 ≤ day ∧ day ≤ daysOf year month then some rest else none

/-- The text after an hour and a minute. -/
def afterMinute? (text : List Char) : Option (List Char) := do
  let (hour, rest) ← digits? 2 text
  let (minute, rest) ← digits? 2 (← after? ':' rest)
  if hour ≤ 23 ∧ minute ≤ 59 then some rest else none

/-- The text after the fraction of a second, if there is one. -/
def afterFraction? : List Char → Option (List Char)
  | '.' :: rest => if rest.head?.any Char.isDigit then some (rest.dropWhile Char.isDigit) else none
  | text => some text

/-- The text after a time.  The seconds may be missing; a leap second is the one numbered 60. -/
def afterTime? (text : List Char) : Option (List Char) := do
  match ← afterMinute? text with
  | ':' :: rest =>
      let (second, rest) ← digits? 2 rest
      if second ≤ 60 then afterFraction? rest else none
  | rest => some rest

/-- The offset from universal time, which may be missing. -/
def isOffset : List Char → Bool
  | [] | ['Z'] | ['z'] => true
  | '+' :: rest | '-' :: rest => afterMinute? rest = some []
  | _ => false

/-- A date, a time, or both.  Only a time with a date has an offset. -/
def isDateOrTime (text : List Char) : Bool :=
  match afterDate? text with
  | none => afterTime? text = some []
  | some [] => true
  | some (separator :: rest) =>
      [' ', 'T', 't'].contains separator && ((afterTime? rest).map isOffset).getD false

end Scalar

/-- Whether a text without quotes is a value. -/
def isScalar (text : List Char) : Bool :=
  text = "true".toList || text = "false".toList
    || Scalar.isNumber text || Scalar.isDateOrTime text

end Toml
end OperatorDispatch
