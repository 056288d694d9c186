import SealedTunnel.Trust.X509

/-!
# Admissions

A certificate may state for which professions its holder is admitted.

* `ProfessionInfo`, `Admissions` — what is read of the extension. Authorities, registration numbers
  and the like only have to be in their place.
* `Admission.read` — the extension's value.
* `Admission.singleOid` — the profession, if exactly one is stated.
* `checkAdmission` — whether a certificate states exactly one given profession.

Optional parts are told apart by the numbers of their tags, in order: a sequence that comes first in
a `ProfessionInfo` holds its items, and only one after it holds the professions.
-/

namespace SealedTunnel

open Der

/-- One or more professions. -/
structure ProfessionInfo where
  /-- their identifiers, if the part for them is there -/
  oids : Option (List Oid)
  deriving DecidableEq, Repr

/-- Admissions by one authority. -/
structure Admissions where
  /-- what they are for -/
  infos : List ProfessionInfo
  deriving DecidableEq, Repr

/-! ## Reading -/

/-- What follows an element that may be left out and is wrapped in a tag of its own. It has to hold
an element. -/
def skipExplicit (tag : Nat) (input : Bytes) : Option Bytes := do
  match ← optionalPart tag input with
  | (none, rest) => return rest
  | (some e, rest) =>
    if e.tagClass ≠ .context ∨ e.constructed = false then none
    let _ ← Element.read e.content
    return rest

/-- The professions in an element. -/
def ProfessionInfo.ofElement (e : Element) : Option ProfessionInfo := do
  if e.tag ≠ Tag.sequence then none
  let input ← skipExplicit 0 e.content
  let (items, input) ← optionalPart Tag.sequence input
  let _ ← (items.map Element.content).mapM Element.list
  let (oids, input) ← optionalPart Tag.sequence input
  let oids ← oids.mapM fun e => do (← Element.list e.content).mapM Oid.ofPrimitive?
  let input ← if input = [] then some [] else (Element.read input).map (·.2.val)
  let (extra, _) ← optionalPart Tag.octetString input
  if extra.any (·.constructed) then none
  return { oids }

/-- The elements of a sequence that comes next, each read in the same way. -/
def sequenceOf {α : Type} (ofElement : Element → Option α) (input : Bytes) : Option (List α) := do
  let (e, _) ← expect Tag.sequence input
  (← Element.list e.content).mapM ofElement

/-- The admissions in an element. -/
def Admissions.ofElement (e : Element) : Option Admissions := do
  if e.tag ≠ Tag.sequence then none
  let input ← skipExplicit 0 e.content
  let input ← skipExplicit 1 input
  return { infos := ← sequenceOf ProfessionInfo.ofElement input }

namespace Admission

/-- The value of the extension, and what follows it. -/
def read (input : Bytes) : Option (List Admissions × Bytes) := do
  let (e, rest) ← expect Tag.sequence input
  return (← sequenceOf Admissions.ofElement (← skipExplicit 0 e.content), rest)

/-! ## Checks -/

/-- Why a certificate does not state a profession. -/
inductive Fault where
  /-- it is no certificate -/
  | malformedCertificate
  /-- it states nothing -/
  | missing
  /-- what it states cannot be read -/
  | malformed
  /-- not one `Admissions` -/
  | admissions (found : Nat)
  /-- not one `ProfessionInfo` -/
  | infos (found : Nat)
  /-- not one identifier -/
  | oids (found : Nat)
  /-- another profession -/
  | otherProfession (found expected : Oid)
  deriving DecidableEq, Repr

/-- The identifier of the extension. -/
def extensionOid : Oid := ⟨[0x2b, 0x24, 0x08, 0x03, 0x03]⟩

/-- The text shown for a fault. -/
def Fault.message : Fault → String
  | malformedCertificate => "parse certificate: *"
  | missing => s!"Admission extension (OID {extensionOid.text}) not found"
  | malformed => "parse admission: *"
  | admissions found => s!"Expected exactly 1 Admissions, found {found}"
  | infos found => s!"Expected exactly 1 ProfessionInfo, found {found}"
  | oids found => s!"Expected exactly 1 professionOID, found {found}"
  | otherProfession found expected => s!"profession OID {found.text} is not {expected.text}"

/-- The profession, if exactly one is stated. -/
def singleOid : List Admissions → Except Fault Oid
  | [⟨[⟨some [oid]⟩]⟩] => .ok oid
  | [⟨[info]⟩] => .error (.oids (info.oids.getD []).length)
  | [admissions] => .error (.infos admissions.infos.length)
  | list => .error (.admissions list.length)

end Admission

/-- Whether a certificate states exactly one profession, which is `expected`. -/
def checkAdmission (der : Bytes) (expected : Oid) : Except Admission.Fault Unit :=
  match X509.extensions? der with
  | none => .error .malformedCertificate
  | some extensions =>
    match extensions.lookup Admission.extensionOid with
    | none => .error .missing
    | some value =>
      match Admission.read value with
      | none => .error .malformed
      | some (list, _) => do
        let oid ← Admission.singleOid list
        if oid ≠ expected then throw (.otherProfession oid expected)

end SealedTunnel
