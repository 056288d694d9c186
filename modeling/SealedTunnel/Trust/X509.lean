import SealedTunnel.Der.Indefinite
import SealedTunnel.Der.Oid
import SealedTunnel.Der.Time
import SealedTunnel.Der.Value

/-!
# Extensions of certificates

What this library itself reads of a certificate: its extensions. Everything else only has to be in
its place and sound.

* `X509.extensions?` — the extensions of a certificate, in order.

Names may hold anything, and the serial number may be any number in any form, an open length
included. What follows the last part of a sequence is ignored, but not what follows the extensions.
-/

namespace SealedTunnel

namespace X509

open Der

/-! ## Parts of the signed part

Each reader gives what follows the part. -/

/-- The version, if it is stated: a number of 32 bits. -/
def version (input : Bytes) : Option Bytes := do
  match ← optionalPart 0 input with
  | (none, rest) => return rest
  | (some e, rest) =>
    if e.tagClass ≠ .context then none
    let (number, _) ← Element.read e.content
    let _ ← natural? (2 ^ 32) number
    return rest

/-- An algorithm: an identifier, and possibly a parameter. -/
def algorithm (input : Bytes) : Option Bytes := do
  let (e, rest) ← expect Tag.sequence input
  let (id, parameters) ← Element.read e.content
  let _ ← Oid.ofPrimitive? id
  if parameters.val ≠ [] then let _ ← Element.read parameters.val
  return rest

/-- A name. -/
def name (input : Bytes) : Option Bytes := (expect Tag.sequence input).map Prod.snd

/-- Two times between which a certificate is valid. -/
def validity (input : Bytes) : Option Bytes := do
  let (e, rest) ← expect Tag.sequence input
  let (start, more) ← Element.read e.content
  let _ ← timeOf? start
  let (stop, _) ← Element.read more.val
  let _ ← timeOf? stop
  return rest

/-- A string of bits. -/
def bitString (input : Bytes) : Option Bytes := do
  let (e, rest) ← Element.read input
  if isBitString e then some rest.val else none

/-- A public key: its algorithm and its bits. -/
def subjectKey (input : Bytes) : Option Bytes := do
  let (e, rest) ← expect Tag.sequence input
  let _ ← bitString (← algorithm e.content)
  return rest

/-- An identifier of the issuer or of the subject, if there is one with this tag. It is a string of
bits, of which only the number of unused ones has to be there. -/
def uniqueId (tag : Nat) (input : Bytes) : Option Bytes := do
  match ← optionalPart tag input with
  | (none, rest) => return rest
  | (some e, rest) => if e.tagClass ≠ .context ∨ e.content = [] then none else some rest

/-! ## Extensions -/

/-- One extension: an identifier, possibly whether it must be understood, and a value. -/
def extension (e : Element) : Option (Oid × Bytes) := do
  if e.tag ≠ Tag.sequence then none
  let (id, ⟨rest, _⟩) ← Element.read e.content
  let id ← Oid.ofPrimitive? id
  let (next, more) ← Element.read rest
  let (value, _) ← expect Tag.octetString (if isTruth next then more.val else rest)
  if value.constructed then none else some (id, value.content)

/-- The extensions at the end of the signed part. There may be none. They are wrapped in a tag of
their own, whose length does not count. -/
def extensionList (input : Bytes) : Option (List (Oid × Bytes)) :=
  if input = [] then some []
  else do
    let (head, body) ← Head.read input
    if head.tag ≠ 3 then none
    let (list, rest) ← expect Tag.sequence body.val
    if rest ≠ [] then none
    (← Element.list list.content).mapM extension

/-- The extensions in the content of the signed part. -/
def signedExtensions (input : Bytes) : Option (List (Oid × Bytes)) := do
  let input ← version input
  let input ← skipAny Tag.integer input
  let input ← algorithm input
  let input ← name input
  let input ← validity input
  let input ← name input
  let input ← subjectKey input
  let input ← uniqueId 1 input
  let input ← uniqueId 2 input
  extensionList input

/-- The extensions of a certificate, in order. What follows the certificate is ignored. -/
def extensions? (der : Bytes) : Option (List (Oid × Bytes)) := do
  let (certificate, _) ← expect Tag.sequence der
  let (signed, rest) ← expect Tag.sequence certificate.content
  let extensions ← signedExtensions signed.content
  let _ ← bitString (← algorithm rest)
  return extensions

end X509

end SealedTunnel
