import SealedTunnel.Text.Blank

/-!
# Hosts

One host can be written in several ways. Before a request leaves, its host is
put into one of them.

* `Host.v4?` — a name that ends in a number stands for an IPv4 address.
* `Host.v6?` — what is in brackets is an IPv6 address.
* `Host.canonical?` — the one way of writing a host.
-/

namespace SealedTunnel

namespace Host

/-! ## Numbers -/

/-- The value of a digit below `base`. -/
def digit? (base : Nat) (c : Char) : Option Nat :=
  let n :=
    if '0' ≤ c && c ≤ '9' then c.toNat - 48
    else if 'a' ≤ c && c ≤ 'f' then c.toNat - 87
    else if 'A' ≤ c && c ≤ 'F' then c.toNat - 55
    else base
  if n < base then some n else none

/-- The number with these digits; none stand for zero. -/
def number? (base : Nat) (cs : List Char) : Option Nat :=
  cs.foldlM (fun n c => (digit? base c).map (n * base + ·)) 0

/-- The digits of a number, most significant first, at most `width` of them. -/
def hexDigits : (width n : Nat) → List Char
  | 0, _ => []
  | width + 1, n =>
    (if n / 16 = 0 then [] else hexDigits width (n / 16)) ++ [Nat.digitChar (n % 16)]

/-! ## IPv4 -/

/-- A part of an IPv4 address: hexadecimal after `0x`, octal after `0`, decimal otherwise. -/
def v4Part? (part : String) : Option Nat :=
  match part.toList with
  | [] => none
  | '0' :: 'x' :: digits | '0' :: 'X' :: digits => number? 16 digits
  | '0' :: digits => number? 8 digits
  | digits => number? 10 digits

/-- The parts of a name; an empty one at the end does not count. -/
def labels (name : String) : List String :=
  match (name.splitOn ".").reverse with
  | "" :: rest => rest.reverse
  | _ => name.splitOn "."

/-- Whether a name ends in a number, so that it can only be an IPv4 address. -/
def endsInNumber (name : String) : Bool :=
  match (labels name).getLast? with
  | none => false
  | some last =>
    (last ≠ "" && last.all Char.isDigit) ||
      ((last.startsWith "0x" || last.startsWith "0X") && (v4Part? last).isSome)

/-- An IPv4 address in its usual form. -/
def dotted (n : Nat) : String :=
  ".".intercalate ([16777216, 65536, 256, 1].map fun unit => toString (n / unit % 256))

/-- The IPv4 address in a name. The last part stands for all bytes that are left. -/
def v4? (name : String) : Option String := do
  let parts ← (labels name).mapM v4Part?
  match parts.reverse with
  | [] => none
  | last :: front =>
    let front := front.reverse
    if 3 < front.length ∨ front.any (255 < ·) ∨ 256 ^ (4 - front.length) ≤ last then none
    else
      let high := front.zipIdx.map fun (part, i) => part * 256 ^ (3 - i)
      some (dotted (high.sum + last))

/-! ## IPv6 -/

/-- A group of an IPv6 address. -/
def group? (part : String) : Option Nat :=
  if part = "" ∨ 4 < part.length then none else number? 16 part.toList

/-- A byte in an IPv4 address inside an IPv6 address: decimal, without zeros in front. -/
def byte? (part : String) : Option Nat :=
  if part = "" ∨ 3 < part.length ∨ (part ≠ "0" ∧ part.startsWith "0") then none
  else (number? 10 part.toList).filter (· ≤ 255)

/-- The last group, which may be two of them in the form of an IPv4 address. -/
def lastGroups? (part : String) : Option (List Nat) :=
  match (part.splitOn ".").map byte? with
  | [some a, some b, some c, some d] => some [a * 256 + b, c * 256 + d]
  | _ => (group? part).map fun n => [n]

/-- The groups in a part of an address, of which the last one is special if `isEnd`. -/
def groups? (isEnd : Bool) (text : String) : Option (List Nat) :=
  if text = "" then some []
  else
    match (text.splitOn ":").reverse with
    | [] => some []
    | last :: front => do
      let front ← front.reverse.mapM group?
      let last ← if isEnd then lastGroups? last else (group? last).map fun n => [n]
      return front ++ last

/-- The eight groups of an IPv6 address. Two colons stand for as many zeros as are missing. -/
def address? (text : String) : Option (List Nat) :=
  match text.splitOn "::" with
  | [all] => (groups? true all).filter (·.length = 8)
  | [front, back] => do
    let front ← groups? false front
    let back ← groups? true back
    let missing := 8 - (front.length + back.length)
    if missing = 0 then none else return front ++ List.replicate missing 0 ++ back
  | _ => none

/-- The number of zeros at the start. -/
def zeros (groups : List Nat) : Nat := (groups.takeWhile (· = 0)).length

/-- The groups before the longest run of zeros, and those after it, if a run is longer than one. -/
def longestRun (groups : List Nat) : Option (List Nat × List Nat) :=
  let best := (List.range groups.length).foldl (fun best i =>
    if zeros (groups.drop best) < zeros (groups.drop i) then i else best) 0
  let size := zeros (groups.drop best)
  if size ≤ 1 then none else some (groups.take best, groups.drop (best + size))

/-- The groups of an IPv6 address in their shortest form. -/
def v6Text (groups : List Nat) : String :=
  let join := fun (groups : List Nat) =>
    ":".intercalate (groups.map fun n => String.ofList (hexDigits 4 n))
  match longestRun groups with
  | some (front, back) => join front ++ "::" ++ join back
  | none => join groups

/-- The IPv6 address in brackets. -/
def v6? (host : String) : Option String :=
  match host.toList.reverse with
  | ']' :: inner => do
    let groups ← address? (String.ofList inner.reverse.tail)
    return "[" ++ v6Text groups ++ "]"
  | _ => none

/-! ## Hosts -/

/-- The one way of writing a host: an address in its shortest form, or a name in lower case. -/
def canonical? (host : String) : Option String :=
  if host = "" then none
  else if host.startsWith "[" then v6? host
  else if endsInNumber host then v4? host
  else some (Text.lower host)

end Host

end SealedTunnel
