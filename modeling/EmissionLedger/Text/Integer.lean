import EmissionLedger.Decimal.Literal

/-!
Integers as text in JSON data. White space around the text is ignored, and so is a fraction of zeros.
A single underscore may stand between two digits; zeros in front are dropped with any number of
underscores among them. A minus stands before those zeros or right behind them, not in both places.

What is left are the digits of the integer without superfluous zeros. There may be at most 4300 of
them, and this is looked at first: a longer run of digits is too long whatever follows it.
-/

namespace EmissionLedger.Text

/-- What a text says about an integer. -/
inductive IntegerText where
  | value (n : Int)
  | tooLong
  | unreadable
deriving DecidableEq

/-- The most digits that an integer may have. -/
def maxIntegerDigits : Nat := 4300

/-- A zero, or an underscore. -/
def isZeroOrUnderscore (c : Char) : Bool := c == '0' || c == '_'

/-- A text that starts with a digit, without its leading zeros and the underscores among them. The
last of them stays when nothing or a point follows. -/
def dropZeros? : List Char → Option (List Char)
  | '0' :: rest =>
    let zeros := '0' :: rest.takeWhile isZeroOrUnderscore
    match rest.dropWhile isZeroOrUnderscore with
    | [] => some zeros.getLast?.toList
    | '.' :: fraction => some (zeros.getLast?.toList ++ '.' :: fraction)
    | c :: others => if c.isDigit || c == '-' then some (c :: others) else none
  | c :: rest => if c.isDigit then some (c :: rest) else none
  | [] => none

/-- A text without the point and the zeros that end it. -/
def dropZeroFraction (cs : List Char) : List Char :=
  match cs.dropWhile (· ≠ '.') with
  | '.' :: '0' :: zeros => if zeros.all (· == '0') then cs.takeWhile (· ≠ '.') else cs
  | _ => cs

/-- Whether an underscore stands first, last or beside another. -/
def hasStrayUnderscore : List Char → Bool
  | '_' :: _ => true
  | cs => go cs
where
  go : List Char → Bool
    | ['_'] => true
    | '_' :: '_' :: _ => true
    | _ :: rest => go rest
    | [] => false

/-- A text without its underscores, if none of them is stray. -/
def dropUnderscores (cs : List Char) : List Char :=
  if hasStrayUnderscore cs then cs else cs.filter (· ≠ '_')

/-- The integer of a sign and digits without superfluous zeros. -/
def readDigits (negative : Bool) (cs : List Char) : IntegerText :=
  let (digits, others) := Decimal.spanDigits cs
  if digits.head? ≠ some '0' ∧ maxIntegerDigits < digits.length then .tooLong
  else if others = [] ∧ digits ≠ [] ∧ (digits.head? = some '0' → digits = ['0']) then
    let n : Int := Nat.ofDigitChars 10 digits 0
    .value (if negative then -n else n)
  else .unreadable

/-- Reads a text as an integer. -/
def integer (s : String) : IntegerText :=
  let (negative, body) := Decimal.splitSign (trim isWhiteSpace s.toList)
  match (dropZeros? body).map fun cs => dropUnderscores (dropZeroFraction cs) with
  | none => .unreadable
  | some ('-' :: digits) => if negative then .unreadable else readDigits true digits
  | some digits => readDigits negative digits

example : integer " -00_1.00 " = .value (-1) := by decide +kernel
example : integer "0__10" = .value 10 := by decide +kernel
example : integer "0-12_3" = .value (-123) := by decide +kernel
example : integer "-0-1" = .unreadable := by decide +kernel
example : integer "1__0" = .unreadable := by decide +kernel
example : integer "5." = .unreadable := by decide +kernel

end EmissionLedger.Text
