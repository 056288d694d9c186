import SealedTunnel.Uri.Basic

/-!
# Reading identifiers

* `Authority.parse` — an authority at the start of a text, checked character by character.
* `Target.parse`, `Target.ofText` — a path and query. A fragment is cut off.
* `Scheme.parse` — the scheme in front of `://`.
* `Uri.ofText` — an identifier.
-/

namespace SealedTunnel

/-! ## Authorities -/

namespace Authority

/-- What a scan of an authority has seen so far. Colons and percent signs count from the last `@` or
closing bracket on. -/
structure Scan where
  /-- the number of colons -/
  colons : Nat
  /-- an opening bracket -/
  opened : Bool
  /-- a closing bracket -/
  closed : Bool
  /-- a percent sign -/
  percent : Bool
  /-- the last character was `@` -/
  afterAt : Bool
  deriving DecidableEq, Repr

/-- The most colons between two points where counting starts anew. -/
def maxColons : Nat := 8

/-- Whether a character may stand in an authority without a role of its own. -/
def isPlain (c : Char) : Bool := c.isAlphanum || "-._~!$&'()*+,;=".toList.contains c

/-- Scan one more character. -/
def Scan.step (s : Scan) (c : Char) : Except Uri.Fault Scan :=
  let s := { s with afterAt := c = '@' }
  match c with
  | ':' =>
    if maxColons ≤ s.colons then .error .invalidAuthority else .ok { s with colons := s.colons + 1 }
  | '[' =>
    if s.percent || s.opened then .error .invalidAuthority else .ok { s with opened := true }
  | ']' =>
    if !s.opened || s.closed then .error .invalidAuthority
    else .ok { s with closed := true, colons := 0, percent := false }
  | '@' => .ok { s with colons := 0, percent := false }
  | '%' => .ok { s with percent := true }
  | c => if isPlain c then .ok s else .error .invalidCharacter

/-- Whether nothing is left open at the end of an authority. -/
def Scan.complete (s : Scan) : Bool :=
  s.opened == s.closed && s.colons ≤ 1 && !s.afterAt && !s.percent

/-- Whether a character ends an authority. -/
def endsAuthority (c : Char) : Bool := c == '/' || c == '?' || c == '#'

/-- The authority at the start of a text, possibly empty, and what follows it. -/
def parse (cs : List Char) : Except Uri.Fault (List Char × List Char) := do
  if cs = [] then throw .empty
  let text := cs.takeWhile (!endsAuthority ·)
  let scan ← text.foldlM Scan.step ⟨0, false, false, false, false⟩
  if scan.complete then return (text, cs.dropWhile (!endsAuthority ·)) else throw .invalidAuthority

/-- The authority that is a whole text. -/
def ofText (s : String) : Except Uri.Fault Authority := do
  let (text, rest) ← parse s.toList
  if rest = [] then return ⟨String.ofList text⟩ else throw .invalidCharacter

end Authority

/-! ## Targets -/

namespace Target

/-- Whether a character may stand in a path. -/
def isPath (c : Char) : Bool :=
  0x80 ≤ c.toNat || (0x21 ≤ c.toNat && c.toNat ≤ 0x7e && !"#<>?`".toList.contains c)

/-- Whether a character may stand in a query. -/
def isQuery (c : Char) : Bool :=
  0x80 ≤ c.toNat || (0x21 ≤ c.toNat && c.toNat ≤ 0x7e && !"\"#<>".toList.contains c)

/-- The target in a text. What follows a `#` is not looked at. -/
def parse (cs : List Char) : Except Uri.Fault Target :=
  let path := cs.takeWhile isPath
  match cs.dropWhile isPath with
  | [] | '#' :: _ => .ok ⟨String.ofList path, none⟩
  | '?' :: rest =>
    match rest.dropWhile isQuery with
    | [] | '#' :: _ => .ok ⟨String.ofList path, some (String.ofList (rest.takeWhile isQuery))⟩
    | _ => .error .invalidCharacter
  | _ => .error .invalidCharacter

/-- The target that is a whole text: it starts like the end of an authority, or is `*`. -/
def ofText (s : String) : Except Uri.Fault Target :=
  match s.toList with
  | [] => .error .empty
  | ['*'] => .ok ⟨"*", none⟩
  | c :: rest => if Authority.endsAuthority c then parse (c :: rest) else .error .noSlash

end Target

/-! ## Schemes -/

namespace Scheme

/-- Whether a character may stand in a scheme. -/
def isName (c : Char) : Bool := c.isAlphanum || c == '+' || c == '-' || c == '.'

/-- The longest name of a scheme. -/
def maxLength : Nat := 64

/-- The scheme with a name. The two known ones are written in any case. -/
def ofName (name : String) : Scheme :=
  if Text.lower name = "http" then http
  else if Text.lower name = "https" then https
  else other name

/-- The scheme at the start of a text, if there is one, and what follows `://`. -/
def parse (cs : List Char) : Except Uri.Fault (Option (Scheme × List Char)) :=
  let name := cs.takeWhile isName
  match cs.dropWhile isName with
  | ':' :: '/' :: '/' :: rest =>
    if name = [] ∧ rest = [] then .ok none
    else if maxLength < name.length then .error .schemeTooLong
    else .ok (some (ofName (String.ofList name), rest))
  | _ => .ok none

end Scheme

/-! ## Identifiers -/

namespace Uri

/-- The longest identifier, in bytes. -/
def maxLength : Nat := 65534

/-- The identifier in a text. -/
def ofText (s : String) : Except Fault Uri := do
  if maxLength < s.utf8ByteSize then throw .tooLong
  match s.toList with
  | [] => throw .empty
  | '/' :: rest => return relative (← Target.parse ('/' :: rest))
  | ['*'] => return relative ⟨"*", none⟩
  | [c] => return bare (← Authority.ofText (String.ofList [c]))
  | cs =>
    match ← Scheme.parse cs with
    | none =>
      let (authority, rest) ← Authority.parse cs
      if rest = [] then return bare ⟨String.ofList authority⟩ else throw .invalidFormat
    | some (scheme, rest) =>
      let (authority, rest) ← Authority.parse rest
      if authority = [] then throw .invalidFormat
      return absolute scheme ⟨String.ofList authority⟩ (← Target.parse rest)

end Uri

end SealedTunnel
