import SealedTunnel.Der.Element

/-!
# Indefinite lengths

An element may leave its length open. Its content is then a list of elements with an end mark after
the last one.

* `afterEnd` — what follows a number of end marks.
* `skipAny` — what follows an element, be its length open or not.
-/

namespace SealedTunnel

namespace Der

/-- The byte in place of a length that is left open. -/
def openLength : UInt8 := 0x80

/-- The tag number at the start of an input where a length is left open, and what follows it. Only
an element that is made of others may leave its length open. -/
def openTag? : (input : Bytes) → Option (Nat × Rest input)
  | [] => none
  | identifier :: input =>
    if isConstructed identifier then do
      match ← tagNumber identifier input with
      | (_, ⟨[], _⟩) => none
      | (tag, ⟨b :: body, h⟩) =>
        if b = openLength then
          some (tag, ⟨body, by simp only [List.length_cons] at h ⊢; omega⟩)
        else none
    else none

/-- Whether an element ends the content of an open one: it has the tag number zero and nothing in
it. -/
def Element.isEnd (e : Element) : Bool := e.tag == 0 && e.content.isEmpty

/-- The most elements that are open at a time. -/
def maxOpen : Nat := 49

/-- What follows the end marks of a number of open elements. -/
def afterEnd (opened : Nat) (input : Bytes) : Option Bytes :=
  if opened = 0 then some input
  else if maxOpen < opened then none
  else
    match openTag? input with
    | some (_, ⟨body, _⟩) => afterEnd (opened + 1) body
    | none => do
      let (e, ⟨rest, _⟩) ← Element.read input
      afterEnd (if e.isEnd then opened - 1 else opened) rest
termination_by input.length

/-- What follows an element with a given tag number, whose length may be left open. -/
def skipAny (tag : Nat) (input : Bytes) : Option Bytes :=
  match openTag? input with
  | some (found, ⟨body, _⟩) => if found = tag then afterEnd 1 body else none
  | none => (expect tag input).map Prod.snd

end Der

end SealedTunnel
