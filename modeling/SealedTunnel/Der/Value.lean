import SealedTunnel.Der.Element

/-!
# Values in elements

How the values that only have to be sound are written in the content of an element. The class of a
tag is not looked at.

* `natural?` — a whole number that is not negative.
* `isBitString` — whether an element is a string of bits.
* `isTruth` — whether an element is a truth value.
-/

namespace SealedTunnel

namespace Der

/-- Whether a number is written without a first byte that could be left off. -/
def isShortest : Bytes → Bool
  | [] => false
  | [_] => true
  | first :: second :: _ =>
    !(first == 0 && second < 0x80) && !(first == 0xff && 0x80 ≤ second)

/-- The whole number in an element if it is neither negative nor as large as the bound. -/
def natural? (bound : Nat) (e : Element) : Option Nat :=
  let n := Bytes.toNat e.content
  let isNegative := e.content.head?.any (0x80 ≤ ·)
  if e.tag ≠ Tag.integer ∨ e.constructed ∨ !isShortest e.content ∨ isNegative ∨ bound ≤ n then none
  else some n

/-- The most bits of the last byte that may be unused. -/
def maxUnused : Nat := 8

/-- Whether the first byte of a string of bits fits the rest: it is the number of bits that are not
used, which are the last ones and zero. -/
def isBits : Bytes → Bool
  | [] => false
  | unused :: bits =>
    match bits.getLast? with
    | none => unused == 0
    | some last => unused.toNat ≤ maxUnused && last.toNat % 2 ^ unused.toNat == 0

/-- Whether an element is a string of bits. -/
def isBitString (e : Element) : Bool := e.tag == Tag.bitString && !e.constructed && isBits e.content

/-- Whether an element is a truth value. Every byte stands for one. -/
def isTruth (e : Element) : Bool := e.tag == Tag.boolean && e.content.length == 1

end Der

end SealedTunnel
