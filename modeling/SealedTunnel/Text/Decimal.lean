/-!
# Decimal numbers in texts

* `DecimalFault` — why a text is not a number, with the text shown for it.
* `readNatural` — a natural number below a bound; a plus sign may precede it.
-/

namespace SealedTunnel

namespace Text

/-- Why a text is not a number. -/
inductive DecimalFault where
  /-- there is nothing -/
  | empty
  /-- a character is no digit, or there is only a sign -/
  | invalidDigit
  /-- the number reaches the bound -/
  | tooLarge
  deriving DecidableEq, Repr

/-- The text shown for a fault. -/
def DecimalFault.message : DecimalFault → String
  | empty => "cannot parse integer from empty string"
  | invalidDigit => "invalid digit found in string"
  | tooLarge => "number too large to fit in target type"

/-- Continue a number with more digits. The first character that is no digit or takes the number to
the bound decides the fault. -/
def readDigits (bound : Nat) : (n : Nat) → List Char → Except DecimalFault Nat
  | n, [] => .ok n
  | n, c :: rest =>
    if c.isDigit then
      let next := n * 10 + (c.toNat - 48)
      if next < bound then readDigits bound next rest else .error .tooLarge
    else .error .invalidDigit

/-- The natural number below `bound` that a text shows. -/
def readNatural (bound : Nat) (s : String) : Except DecimalFault Nat :=
  match s.toList with
  | [] => .error .empty
  | ['+'] => .error .invalidDigit
  | '+' :: digits => readDigits bound 0 digits
  | digits => readDigits bound 0 digits

end Text

end SealedTunnel
