import SealedTunnel.Text.Blank
import SealedTunnel.Text.Decimal

/-!
# Uniform resource identifiers

* `Scheme`, `Authority`, `Target` — the parts.
* `Uri` — one of three forms: absolute, an authority alone, or a target alone.
* `Uri.text` — the printed form.
* `Uri.Fault` — why a text is no identifier or parts do not fit together.
-/

namespace SealedTunnel

/-- The scheme of an absolute identifier. -/
inductive Scheme where
  /-- `http` -/
  | http
  /-- `https` -/
  | https
  /-- any other, in the case it was written in -/
  | other (name : String)
  deriving DecidableEq, Repr

/-- A scheme as it is printed. -/
def Scheme.text : Scheme → String
  | http => "http"
  | https => "https"
  | other name => name

/-- User information, host and port in one text. -/
structure Authority where
  /-- the text as it was written -/
  text : String
  deriving DecidableEq, Repr

namespace Authority

/-- What follows the user information. -/
def hostPort (a : Authority) : List Char :=
  (a.text.toList.reverse.takeWhile (· ≠ '@')).reverse

/-- The host. One that starts with a bracket goes up to the closing one. -/
def host (a : Authority) : String :=
  let cs := a.hostPort
  String.ofList
    (if cs.head? = some '[' then cs.takeWhile (· ≠ ']') ++ [']'] else cs.takeWhile (· ≠ ':'))

/-- The text after the last colon, if there is one. -/
def portText? (a : Authority) : Option String :=
  if ':' ∈ a.text.toList then
    some (String.ofList (a.text.toList.reverse.takeWhile (· ≠ ':')).reverse)
  else none

/-- The port, if there is one that is a number of 16 bits. -/
def port? (a : Authority) : Option Nat := do
  (Text.readNatural (2 ^ 16) (← a.portText?)).toOption

end Authority

/-- A path and possibly a query. -/
structure Target where
  /-- the path; `*`, empty, or a text that starts with a slash -/
  path : String
  /-- the query without its question mark -/
  query : Option String
  deriving DecidableEq, Repr

namespace Target

/-- The path `/` without a query. -/
def root : Target := ⟨"/", none⟩

/-- A target as it is printed: an empty path shows as a slash. -/
def text (t : Target) : String :=
  (if t.path = "" then "/" else t.path) ++
    match t.query with
    | some query => "?" ++ query
    | none => ""

end Target

/-- A uniform resource identifier. -/
inductive Uri where
  /-- with a scheme, and so with an authority -/
  | absolute (scheme : Scheme) (authority : Authority) (target : Target)
  /-- an authority and nothing else -/
  | bare (authority : Authority)
  /-- a target and nothing else -/
  | relative (target : Target)
  deriving DecidableEq, Repr

namespace Uri

/-- Why a text is no identifier, or parts do not fit together. -/
inductive Fault where
  /-- there is nothing -/
  | empty
  /-- the text is too long -/
  | tooLong
  /-- the scheme is too long -/
  | schemeTooLong
  /-- a character that has to be encoded -/
  | invalidCharacter
  /-- an authority that cannot be taken apart -/
  | invalidAuthority
  /-- parts are missing or left over -/
  | invalidFormat
  /-- an authority and a target without a scheme -/
  | schemeMissing
  /-- a path that starts with something else -/
  | noSlash
  deriving DecidableEq, Repr

/-- The text shown for a fault. -/
def Fault.message : Fault → String
  | empty => "empty string"
  | tooLong => "uri too long"
  | schemeTooLong => "scheme too long"
  | invalidCharacter => "invalid uri character"
  | invalidAuthority => "invalid authority"
  | invalidFormat => "invalid format"
  | schemeMissing => "scheme missing"
  | noSlash => "path does not start with slash"

/-- The printed form. -/
def text : Uri → String
  | absolute scheme authority target => scheme.text ++ "://" ++ authority.text ++ target.text
  | bare authority => authority.text
  | relative target => if target = ⟨"", none⟩ then "" else target.text

/-- Path and query. -/
def target : Uri → Target
  | absolute _ _ target | relative target => target
  | bare _ => ⟨"", none⟩

/-- The identifier with another target. -/
def withTarget (target : Target) : Uri → Except Fault Uri
  | absolute scheme authority _ => .ok (absolute scheme authority target)
  | bare _ => .error .schemeMissing
  | relative _ => .ok (relative target)

end Uri

end SealedTunnel
