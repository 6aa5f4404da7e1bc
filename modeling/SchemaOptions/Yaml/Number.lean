import SchemaOptions.Yaml.Value

/-!
# Words that look like numbers

A text that a reader could take for a number must not be written as a plain word. Whole numbers
count up to 128 bits, in any of the four bases and with either sign; decimal fractions count if they
are below what the largest double stands for, and so do the words for the infinities and for what is
not a number.
-/

namespace SchemaOptions.Yaml

open SchemaOptions.Text

/-- Whether a word is a whole number of at most 128 bits. -/
def isInteger (word : List Char) : Bool :=
  match word with
  | '-' :: cs => (unsignedOf? ((1 <<< 127) + 1) cs).isSome
  | _ => (unsignedOf? (1 <<< 128) (withoutPlus word)).isSome

/-- A decimal fraction without sign: its digits, how many of them stand behind the point, and the
exponent. -/
structure Decimal where
  digits : List Char
  places : Nat
  exponent : Int

/-- The exponent behind a decimal fraction; zero if there is none. -/
def exponent? (cs : List Char) : Option Int :=
  match cs with
  | [] => some 0
  | c :: cs =>
    if c == 'e' || c == 'E' then
      match cs with
      | '-' :: digits => (digitsOf? 10 digits).map fun n => -(n : Int)
      | _ => (digitsOf? 10 (withoutPlus cs)).map fun n => (n : Int)
    else
      none

/-- The decimal fraction that a word without a sign is: digits with a point among them or at either
end, and an exponent. -/
def Decimal.ofWord? (cs : List Char) : Option Decimal :=
  let whole := cs.takeWhile Char.isDigit
  let rest := cs.dropWhile Char.isDigit
  let (fraction, rest) :=
    match rest with
    | '.' :: rest => (rest.takeWhile Char.isDigit, rest.dropWhile Char.isDigit)
    | _ => ([], rest)
  if whole.isEmpty && fraction.isEmpty then none
  else (exponent? rest).map fun exponent => ⟨whole ++ fraction, fraction.length, exponent⟩

/-- The least number that is rounded to infinity: half a unit above the largest double. -/
def overflow : Nat := (1 <<< 1024) - (1 <<< 970)

/-- Whether a decimal fraction is rounded to a finite double. Only numbers with 309 or 310 digits
before the point need a closer look. -/
def Decimal.isFinite (decimal : Decimal) : Bool :=
  let digits := decimal.digits.dropWhile (· == '0')
  let shift := decimal.exponent - decimal.places
  let size := (digits.length : Int) + shift
  let value := (digitsOf? 10 digits).getD 0
  if digits.isEmpty || size < 309 then true
  else if 310 < size then false
  else if 0 ≤ shift then value * Nat.pow 10 shift.toNat < overflow
  else value < overflow * Nat.pow 10 (-shift).toNat

/-- A word without its sign; a positive sign may not stand before another. -/
def withoutSign? : List Char → Option (List Char)
  | '+' :: '+' :: _ => none
  | '+' :: '-' :: _ => none
  | '+' :: cs => some cs
  | '-' :: cs => some cs
  | cs => some cs

/-- Whether a word is a double, written in decimal or by a name. -/
def isDouble (word : List Char) : Bool :=
  [".inf", ".Inf", ".INF", "+.inf", "+.Inf", "+.INF", "-.inf", "-.Inf", "-.INF", ".nan", ".NaN",
    ".NAN"].contains (String.ofList word) ||
  match withoutSign? word with
  | none => false
  | some cs => ((Decimal.ofWord? cs).map Decimal.isFinite).getD false

/-- Whether a word is a zero with more digits behind it, whatever its sign. -/
def isPaddedNumber (word : List Char) : Bool :=
  match word with
  | '-' :: cs => hasLeadingZero cs
  | _ => hasLeadingZero (withoutPlus word)

/-- Whether a reader could take a word for something else than a text. -/
def isAmbiguous (word : List Char) : Bool :=
  word.isEmpty || isNull word || (boolOf? word).isSome || isInteger word || isPaddedNumber word ||
    isDouble word

end SchemaOptions.Yaml
