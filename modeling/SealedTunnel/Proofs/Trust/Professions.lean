import Mathlib.Data.Option.Basic
import SealedTunnel.Proofs.Der.Writing
import SealedTunnel.Proofs.Trust.Issuer

/-!
# Professions that are stated

An authority writes for which professions it admits the holder of a certificate, and leaves out
what it has nothing to say about. Two of the parts that it may leave out look alike.

* `Admission.Info`, `Admission.Group`, `Admission.Statement` — all that can be stated, and how it
  is written.
* `Statement.read_element` — what is read of it.
* `Admission.valueIn` — where a certificate states it.
* `Admission.checkAdmission_stated` — a certificate passes if it states the expected profession and
  no other, and says next to it what the profession is called.
-/

namespace SealedTunnel

open Der Der.Element

namespace Admission

/-! ## What can be stated -/

/-- A name of any kind. The kinds are told apart by their tags. -/
structure GeneralName where
  /-- the number of the tag -/
  kind : Fin 9
  /-- whether it is made of elements -/
  constructed : Bool
  /-- the name -/
  content : Bytes

/-- The kinds of strings in a directory. -/
inductive StringKind where
  | teletex
  | printable
  | universal
  | utf8
  | bmp

/-- A string in a directory. -/
structure DirectoryString where
  /-- its kind -/
  kind : StringKind
  /-- the encoded text -/
  content : Bytes

/-- One or more professions. -/
structure Info where
  /-- who names them, as elements of a sequence -/
  naming : Option Bytes
  /-- what they are called -/
  items : Option (List DirectoryString)
  /-- their identifiers -/
  oids : Option (List Oid)
  /-- under which number the holder is registered -/
  registration : Option DirectoryString
  /-- anything else -/
  extra : Option Bytes

/-- Admissions by one authority. -/
structure Group where
  /-- who admits -/
  authority : Option GeneralName
  /-- who names the professions, as elements of a sequence -/
  naming : Option Bytes
  /-- the professions -/
  infos : List Info

/-- All that a certificate states. -/
structure Statement where
  /-- who admits -/
  authority : Option GeneralName
  /-- admissions by each authority -/
  groups : List Group

/-! ### How it is written -/

/-- A name in its element. -/
def GeneralName.element (name : GeneralName) : Element :=
  write (UInt8.ofNat (0x80 + (if name.constructed then 0x20 else 0) + name.kind)) name.content

/-- The identifier of a kind of strings. -/
def StringKind.identifier : StringKind → UInt8
  | teletex => 0x14
  | printable => 0x13
  | universal => 0x1c
  | utf8 => 0x0c
  | bmp => 0x1e

/-- A string in its element. -/
def DirectoryString.element (s : DirectoryString) : Element := write s.kind.identifier s.content

/-- An identifier in its element. -/
def oidElement (o : Oid) : Element := write 0x06 o.content

/-- What follows the professions. -/
def Info.tail (i : Info) : List Element :=
  (i.registration.map DirectoryString.element).toList ++ (i.extra.map (write 0x04)).toList

/-- What the professions are called, in an element. -/
def Info.called (i : Info) : Option Element :=
  i.items.map fun items => inSequence (items.map DirectoryString.element)

/-- The identifiers of the professions, in an element. -/
def Info.identified (i : Info) : Option Element :=
  i.oids.map fun oids => inSequence (oids.map oidElement)

/-- The professions, and what follows them. -/
def Info.body (i : Info) : List Element :=
  i.called.toList ++ (i.identified.toList ++ i.tail)

/-- Professions in their element: the parts that are there, in order. -/
def Info.element (i : Info) : Element :=
  inSequence (explicit 0 (i.naming.map (write 0x30)) ++ i.body)

/-- The professions, in an element. -/
def Group.list (g : Group) : Element := inSequence (g.infos.map Info.element)

/-- Who names the professions, and the professions. -/
def Group.body (g : Group) : List Element := explicit 1 (g.naming.map (write 0x30)) ++ [g.list]

/-- Admissions by one authority in their element. -/
def Group.element (g : Group) : Element :=
  inSequence (explicit 0 (g.authority.map GeneralName.element) ++ g.body)

/-- Admissions by each authority, in an element. -/
def Statement.list (s : Statement) : Element := inSequence (s.groups.map Group.element)

/-- A statement in its element. -/
def Statement.element (s : Statement) : Element :=
  inSequence (explicit 0 (s.authority.map GeneralName.element) ++ [s.list])

/-! ## What is read -/

/-- Identifiers are taken from the second sequence. -/
def Info.seen (i : Info) : ProfessionInfo := ⟨i.items.bind fun _ => i.oids⟩

/-- Nothing else counts. -/
def Group.seen (g : Group) : Admissions := ⟨g.infos.map Info.seen⟩

theorem GeneralName.element_written (name : GeneralName) : name.element.Written := by
  refine ⟨_, name.content, ?_, rfl⟩
  have hkind := name.kind.isLt
  rw [UInt8.toNat_ofNat']
  split
  · omega
  · omega

theorem StringKind.tag_spec (kind : StringKind) : kind.identifier.toNat % 32 < 31 ∧
    kind.identifier.toNat % 32 ≠ 0 ∧ kind.identifier.toNat % 32 ≠ Tag.sequence := by
  cases kind <;> decide

theorem DirectoryString.element_written (s : DirectoryString) : s.element.Written :=
  ⟨_, s.content, s.kind.tag_spec.1, rfl⟩

theorem oidElement_written (o : Oid) : (oidElement o).Written := ⟨0x06, o.content, by decide, rfl⟩

theorem forall_mem_toList_map {α : Type} {p : Element → Prop} {f : α → Element} {o : Option α}
    (h : ∀ a, p (f a)) : ∀ e ∈ (o.map f).toList, p e := by
  cases o with
  | none => exact fun e he => nomatch he
  | some a => exact List.forall_mem_singleton.mpr (h a)

theorem Info.mem_tail {i : Info} :
    ∀ e ∈ i.tail, e.Written ∧ e.tag ≠ 0 ∧ e.tag ≠ Tag.sequence := by
  have hextra (content : Bytes) : (write 0x04 content).Written := ⟨_, content, by decide, rfl⟩
  refine List.forall_mem_append.mpr ⟨?_, ?_⟩
  · exact forall_mem_toList_map fun s => ⟨s.element_written, s.kind.tag_spec.2⟩
  · exact forall_mem_toList_map fun content =>
      ⟨hextra content, (by decide : 0x04 % 32 ≠ 0), (by decide : 0x04 % 32 ≠ 16)⟩

theorem Info.mem_body {i : Info} : ∀ e ∈ i.body, e.Written ∧ e.tag ≠ 0 := by
  have hsequence (items : List Element) : (inSequence items).Written ∧ (inSequence items).tag ≠ 0 :=
    ⟨inSequence_written items, (by decide : 0x30 % 32 ≠ 0)⟩
  refine List.forall_mem_append.mpr ⟨?_, List.forall_mem_append.mpr ⟨?_, ?_⟩⟩
  · exact forall_mem_toList_map fun items => hsequence _
  · exact forall_mem_toList_map fun oids => hsequence _
  · exact fun e he => ⟨(mem_tail e he).1, (mem_tail e he).2.1⟩

/-! ### Parts -/

/-- A part in a tag of its own may be there or not. -/
theorem skipExplicit_explicit {tag : Nat} (htag : tag < 31) {part : Option Element}
    {items : List Element} (hpart : ∀ e ∈ part, e.Written)
    (hitems : ∀ e ∈ items, e.Written ∧ e.tag ≠ tag)
    (hsmall : ∀ e ∈ explicit tag part ++ items, e.Small) :
    skipExplicit tag (flat (explicit tag part ++ items)) = some (flat items) := by
  rcases part with _ | e
  · have hother : optionalPart tag (flat items) = some (none, flat items) := by
      refine optionalPart_other fun e he => ?_
      obtain ⟨hwritten, htag'⟩ := hitems e (List.mem_of_head? he)
      exact ⟨hwritten.sound (hsmall e (List.mem_of_head? he)), htag'⟩
    rw [skipExplicit, explicit, Option.map_none, Option.toList_none, List.nil_append, hother]
    rfl
  · have hwrap : (wrap tag e).Small := hsmall _ List.mem_cons_self
    obtain ⟨htag', hclass, hconstructed⟩ := wrap_head htag e
    have hfound : optionalPart tag (flat (wrap tag e :: items)) =
        some (some (wrap tag e), flat items) :=
      optionalPart_cons ((wrap_written htag e).sound hwrap) htag'
    have hsound : e.Sound := (hpart e rfl).sound hwrap.of_wrap
    obtain ⟨_, hread⟩ : ∃ h, Element.read (wrap tag e).content = some (e, ⟨[], h⟩) :=
      outcome_eq_some.mp (read_eq_some.mpr ⟨hsound, (List.append_nil e.raw).symm⟩)
    rw [skipExplicit, explicit, Option.map_some, Option.toList_some, List.singleton_append, hfound]
    simp only [Option.bind_eq_bind, Option.bind_some, hclass, hconstructed, hread]
    rfl

theorem written_of_content (part : Option Bytes) : ∀ e ∈ part.map (write 0x30), e.Written :=
  Option.forall_mem_map.mpr fun content _ => ⟨0x30, content, by decide, rfl⟩

theorem written_of_name (part : Option GeneralName) :
    ∀ e ∈ part.map GeneralName.element, e.Written :=
  Option.forall_mem_map.mpr fun name _ => name.element_written

theorem sequenceOf_inSequence {α : Type} {ofElement : Element → Option α} {items : List Element}
    (hitems : ∀ e ∈ items, e.Written) (hsmall : (inSequence items).Small) :
    sequenceOf ofElement (flat [inSequence items]) = items.mapM ofElement := by
  have hexpect : expect Tag.sequence (flat [inSequence items]) = some (inSequence items, []) :=
    expect_eq_some.mpr ⟨(inSequence_written items).sound hsmall, rfl, rfl⟩
  rw [sequenceOf, hexpect]
  simp only [Option.bind_eq_bind, Option.bind_some, list_inSequence hitems hsmall]

/-- Where elements are made of the members of a list, and the list may be left out. -/
theorem list_of_optional {α : Type} {f : α → Element} (hf : ∀ a, (f a).Written)
    {part : Option (List α)} (h : ∀ e ∈ part.map fun as => inSequence (as.map f), e.Small) :
    ((part.map fun as => inSequence (as.map f)).map Element.content).mapM Element.list =
      some (part.map fun as => as.map f) := by
  rcases part with _ | as
  · rfl
  · have hlist := list_inSequence (List.forall_mem_map.mpr fun a (_ : a ∈ as) => hf a) (h _ rfl)
    simp only [Option.map_some, Option.mapM_some, hlist]
    rfl

/-- Any element may come next, and is passed over. -/
theorem passOver {α : Type} {items : List Element} (h : ∀ e ∈ items, e.Sound)
    (next : Bytes → Option α) :
    (if flat items = [] then next []
      else ((Element.read (flat items)).map (·.2.val)).bind next) = next (flat items.tail) := by
  rcases items with _ | ⟨e, items⟩
  · rfl
  · have hsound := h e List.mem_cons_self
    obtain ⟨_, hread⟩ := read_append hsound (flat items)
    have hnil : flat (e :: items) ≠ [] := List.append_ne_nil_of_left_ne_nil hsound.raw_ne_nil _
    rw [if_neg hnil, flat_cons, hread]
    rfl

/-- A string of bytes may come after a registration number, and is taken for one if it does not. -/
theorem Info.read_tail {i : Info} (h : ∀ e ∈ i.tail, e.Sound) : ∃ extra : Option Element,
    optionalPart Tag.octetString (flat i.tail.tail) = some (extra, []) ∧
      extra.any (·.constructed) = false := by
  obtain ⟨naming, items, oids, registration, extra⟩ := i
  rcases registration with _ | number
  · have hnone : (Info.tail ⟨naming, items, oids, none, extra⟩).tail = [] := by
      cases extra with
      | none => rfl
      | some content => rfl
    rw [hnone]
    exact ⟨none, rfl, rfl⟩
  · rcases extra with _ | content
    · exact ⟨none, rfl, rfl⟩
    · have hsound : (write 0x04 content).Sound := h _ (List.mem_of_mem_tail List.mem_cons_self)
      exact ⟨some (write 0x04 content), optionalPart_cons hsound rfl, rfl⟩

/-! ### Professions

Two sequences may be there. Identifiers are read from the second one. If it is not said what the
professions are called, there is one sequence at most, and it is the first one. -/

section Parts

variable {i : Info}

theorem Info.list_called (h : ∀ e ∈ i.called, e.Small) :
    (i.called.map Element.content).mapM Element.list =
      some (i.items.map fun items => items.map DirectoryString.element) :=
  list_of_optional DirectoryString.element_written h

theorem Info.list_identified (h : ∀ e ∈ i.identified, e.Small) :
    (i.identified.map Element.content).mapM Element.list =
      some (i.oids.map fun oids => oids.map oidElement) :=
  list_of_optional oidElement_written h

theorem Info.oids_identified (h : ∀ e ∈ i.identified, e.Small) :
    (i.identified.mapM fun e => do (← Element.list e.content).mapM Oid.ofPrimitive?) =
      some i.oids := by
  obtain ⟨naming, items, _ | oids, registration, extra⟩ := i
  · rfl
  · have hlist := list_inSequence (List.forall_mem_map.mpr fun o (_ : o ∈ oids) =>
      oidElement_written o) (h _ rfl)
    have hread : ∀ o ∈ oids, Oid.ofPrimitive? (oidElement o) = some (id o) := fun o _ => rfl
    simp only [identified, Option.map_some, Option.mapM_some, hlist, Option.bind_eq_bind,
      Option.bind_some, mapM_map_of_forall hread, List.map_id]
    rfl

theorem Info.part_none (h : ∀ e ∈ i.tail, e.Sound) :
    optionalPart Tag.sequence (flat i.tail) = some (none, flat i.tail) := by
  refine optionalPart_other fun e he => ?_
  have hmem := List.mem_of_head? he
  exact ⟨h e hmem, (mem_tail e hmem).2.2⟩

theorem Info.part_identified (h : ∀ e ∈ i.identified.toList ++ i.tail, e.Sound) :
    optionalPart Tag.sequence (flat (i.identified.toList ++ i.tail)) =
      some (i.identified, flat i.tail) := by
  obtain ⟨hidentified, htail⟩ := List.forall_mem_append.mp h
  refine optionalPart_toList (fun e he => ⟨hidentified e (Option.mem_toList.mpr he), ?_⟩)
    fun e he => ?_
  · obtain ⟨oids, -, rfl⟩ := Option.map_eq_some_iff.mp he
    rfl
  · have hmem := List.mem_of_head? he
    exact ⟨htail e hmem, (mem_tail e hmem).2.2⟩

theorem Info.part_called {items : List DirectoryString} (hitems : i.items = some items)
    (h : ∀ e ∈ i.body, e.Sound) : optionalPart Tag.sequence (flat i.body) =
      some (i.called, flat (i.identified.toList ++ i.tail)) := by
  have hcalled : i.called = some (inSequence (items.map DirectoryString.element)) := by
    rw [called, hitems]
    rfl
  have hmem := List.mem_append_left (i.identified.toList ++ i.tail) (Option.mem_toList.mpr hcalled)
  rw [body, hcalled]
  exact optionalPart_cons (h _ hmem) rfl

theorem Info.ofElement_element (h : i.element.Small) :
    ProfessionInfo.ofElement i.element = some i.seen := by
  have hsmall : ∀ e ∈ explicit 0 (i.naming.map (write 0x30)) ++ i.body, e.Small :=
    fun e he => h.of_mem he
  obtain ⟨-, hbody⟩ := List.forall_mem_append.mp hsmall
  obtain ⟨hcalled, hrest⟩ := List.forall_mem_append.mp hbody
  obtain ⟨hidentified, -⟩ := List.forall_mem_append.mp hrest
  have hsound : ∀ e ∈ i.body, e.Sound := fun e he => (mem_body e he).1.sound (hbody e he)
  obtain ⟨-, hsounds⟩ := List.forall_mem_append.mp hsound
  obtain ⟨-, htail⟩ := List.forall_mem_append.mp hsounds
  have hskip : skipExplicit 0 i.element.content = some (flat i.body) :=
    skipExplicit_explicit (by decide) (written_of_content i.naming) mem_body hsmall
  obtain ⟨extra, hextra, hprimitive⟩ := read_tail htail
  have htag : ¬ i.element.tag ≠ Tag.sequence := not_not_intro rfl
  simp only [Option.mem_toList] at hcalled hidentified
  rcases hitems : i.items with _ | items
  · have hbody' : i.body = i.identified.toList ++ i.tail := by
      rw [body, called, hitems]
      rfl
    have hfirst := part_identified hsounds
    rw [← hbody'] at hfirst
    simp only [ProfessionInfo.ofElement, if_neg htag, hskip, hfirst, list_identified hidentified,
      part_none htail, Option.mapM_none, Option.bind_eq_bind, Option.bind_some]
    refine (passOver htail _).trans ?_
    simp only [hextra, hprimitive, Option.bind_some, Bool.false_eq_true, if_false, seen, hitems]
    rfl
  · simp only [ProfessionInfo.ofElement, if_neg htag, hskip, part_called hitems hsound,
      list_called hcalled, part_identified hsounds, Option.bind_eq_bind, Option.bind_some]
    have hoids := oids_identified hidentified
    rw [Option.bind_eq_bind] at hoids
    rw [hoids]
    refine (passOver htail _).trans ?_
    simp only [hextra, hprimitive, Option.bind_some, Bool.false_eq_true, if_false, seen, hitems]
    rfl

end Parts

/-! ### Statements -/

theorem Info.element_written (i : Info) : i.element.Written := inSequence_written _

theorem Group.element_written (g : Group) : g.element.Written := inSequence_written _

theorem Group.mem_body {g : Group} : ∀ e ∈ g.body, e.Written ∧ e.tag ≠ 0 := by
  have hnaming (e : Element) : (wrap 1 e).Written ∧ (wrap 1 e).tag ≠ 0 := by
    rw [(wrap_head (by decide) e).1]
    exact ⟨wrap_written (by decide) e, by decide⟩
  refine List.forall_mem_append.mpr ⟨forall_mem_toList_map hnaming, ?_⟩
  exact List.forall_mem_singleton.mpr ⟨inSequence_written _, (by decide : 0x30 % 32 ≠ 0)⟩

theorem Group.ofElement_element {g : Group} (h : g.element.Small) :
    Admissions.ofElement g.element = some g.seen := by
  have hsmall : ∀ e ∈ explicit 0 (g.authority.map GeneralName.element) ++ g.body, e.Small :=
    fun e he => h.of_mem he
  obtain ⟨-, hbody⟩ := List.forall_mem_append.mp hsmall
  have hlist : g.list.Small := hbody _ (List.mem_append_right _ List.mem_cons_self)
  have hauthority : skipExplicit 0 g.element.content = some (flat g.body) :=
    skipExplicit_explicit (by decide) (written_of_name g.authority) mem_body hsmall
  have hnaming : skipExplicit 1 (flat g.body) = some (flat [g.list]) :=
    skipExplicit_explicit (by decide) (written_of_content g.naming)
      (List.forall_mem_singleton.mpr ⟨inSequence_written _, (by decide : 0x30 % 32 ≠ 1)⟩) hbody
  have hinfos : sequenceOf ProfessionInfo.ofElement (flat [g.list]) =
      some (g.infos.map Info.seen) := by
    rw [list, sequenceOf_inSequence (List.forall_mem_map.mpr fun i _ => i.element_written) hlist]
    exact mapM_map_of_forall fun i hi =>
      Info.ofElement_element (hlist.of_mem (List.mem_map_of_mem hi))
  have htag : ¬ g.element.tag ≠ Tag.sequence := not_not_intro rfl
  simp only [Admissions.ofElement, if_neg htag, hauthority, hnaming, hinfos, Option.bind_eq_bind,
    Option.bind_some]
  rfl

/-- Whatever is left out, what is stated is read, but for identifiers without names. -/
theorem Statement.read_element {s : Statement} (h : s.element.Small) :
    read s.element.raw = some (s.groups.map Group.seen, []) := by
  have hsmall : ∀ e ∈ explicit 0 (s.authority.map GeneralName.element) ++ [s.list], e.Small :=
    fun e he => h.of_mem he
  have hlist : s.list.Small := hsmall _ (List.mem_append_right _ List.mem_cons_self)
  have hexpect : expect Tag.sequence s.element.raw = some (s.element, []) :=
    expect_eq_some.mpr ⟨(inSequence_written _).sound h, rfl, (List.append_nil _).symm⟩
  have hauthority : skipExplicit 0 s.element.content = some (flat [s.list]) :=
    skipExplicit_explicit (by decide) (written_of_name s.authority)
      (List.forall_mem_singleton.mpr ⟨inSequence_written _, (by decide : 0x30 % 32 ≠ 0)⟩) hsmall
  have hgroups : sequenceOf Admissions.ofElement (flat [s.list]) =
      some (s.groups.map Group.seen) := by
    rw [list, sequenceOf_inSequence (List.forall_mem_map.mpr fun g _ => g.element_written) hlist]
    exact mapM_map_of_forall fun g hg =>
      Group.ofElement_element (hlist.of_mem (List.mem_map_of_mem hg))
  simp only [read, hexpect, hauthority, hgroups, Option.bind_eq_bind, Option.bind_some]
  rfl

end Admission

/-! ## Extensions of a certificate -/

namespace X509

variable {input der : Bytes} {extensions : List (Oid × Bytes)}

theorem extension_length_lt {e : Element} {o : Oid} {value : Bytes}
    (h : extension e = some (o, value)) : value.length < 2 ^ 64 := by
  simp only [extension] at h
  split at h
  · exact nomatch h
  · obtain ⟨⟨id, rest, _⟩, -, h⟩ := Option.bind_eq_some_iff.mp h
    obtain ⟨o', -, h⟩ := Option.bind_eq_some_iff.mp h
    obtain ⟨⟨next, more⟩, -, h⟩ := Option.bind_eq_some_iff.mp h
    obtain ⟨⟨v, last⟩, hv, h⟩ := Option.bind_eq_some_iff.mp h
    obtain ⟨hsound, -, -⟩ := expect_eq_some.mp hv
    dsimp only at h
    split at h
    · exact nomatch h
    · obtain ⟨-, rfl⟩ := Prod.mk.inj (Option.some.inj h)
      exact hsound.content_length_lt

theorem extensionList_length_lt (h : extensionList input = some extensions) :
    ∀ p ∈ extensions, p.2.length < 2 ^ 64 := by
  simp only [extensionList] at h
  split at h
  · obtain rfl := Option.some.inj h
    exact fun p hp => nomatch hp
  · obtain ⟨⟨head, body⟩, -, h⟩ := Option.bind_eq_some_iff.mp h
    dsimp only at h
    split at h
    · exact nomatch h
    · obtain ⟨⟨list, rest⟩, -, h⟩ := Option.bind_eq_some_iff.mp h
      dsimp only at h
      split at h
      · exact nomatch h
      · obtain ⟨items, -, h⟩ := Option.bind_eq_some_iff.mp h
        intro p hp
        obtain ⟨e, -, he⟩ := exists_of_mapM h p hp
        exact extension_length_lt he

theorem exists_extensionList (h : extensions? der = some extensions) :
    ∃ input, extensionList input = some extensions := by
  obtain ⟨⟨certificate, _⟩, -, h⟩ := Option.bind_eq_some_iff.mp h
  obtain ⟨⟨signed, rest⟩, -, h⟩ := Option.bind_eq_some_iff.mp h
  obtain ⟨found, hfound, h⟩ := Option.bind_eq_some_iff.mp h
  obtain ⟨afterAlgorithm, -, h⟩ := Option.bind_eq_some_iff.mp h
  obtain ⟨afterBits, -, h⟩ := Option.bind_eq_some_iff.mp h
  obtain rfl := Option.some.inj h
  -- all parts of the signed part but the last are passed over
  simp only [signedExtensions, Option.bind_eq_bind, Option.bind_eq_some_iff] at hfound
  obtain ⟨_, -, _, -, _, -, _, -, _, -, _, -, _, -, _, -, last, -, hlast⟩ := hfound
  exact ⟨last, hlast⟩

end X509

namespace Admission

/-- What a certificate states in its first extension about admissions. -/
def valueIn (der : Bytes) : Option Bytes := do (← X509.extensions? der).lookup extensionOid

theorem valueIn_length_lt {der value : Bytes} (h : valueIn der = some value) :
    value.length < 2 ^ 64 := by
  obtain ⟨extensions, hextensions, hlookup⟩ := Option.bind_eq_some_iff.mp h
  obtain ⟨input, hinput⟩ := X509.exists_extensionList hextensions
  obtain ⟨before, after, rfl, -⟩ := List.lookup_eq_some_iff.mp hlookup
  exact X509.extensionList_length_lt hinput (extensionOid, value) (by simp)

/-- Whether a certificate passes depends on what it states. -/
theorem checkAdmission_eq {der value : Bytes} {expected : Oid} (h : valueIn der = some value) :
    checkAdmission der expected = match read value with
      | none => .error .malformed
      | some (list, _) => singleOid list >>= fun oid =>
        if oid ≠ expected then .error (.otherProfession oid expected) else .ok () := by
  obtain ⟨extensions, hextensions, hlookup⟩ := Option.bind_eq_some_iff.mp h
  rw [checkAdmission, hextensions]
  dsimp only
  rw [hlookup]
  rfl

/-! ## Certificates that pass -/

theorem singleOid_eq_ok {list : List Admissions} {o : Oid} :
    singleOid list = .ok o ↔ list = [⟨[⟨some [o]⟩]⟩] := by
  constructor
  · intro h
    unfold singleOid at h
    split at h
    · obtain rfl := Except.ok.inj h
      rfl
    · exact nomatch h
    · exact nomatch h
    · exact nomatch h
  · rintro rfl
    rfl

/-- One profession is stated, and it is this one. -/
def Statement.States (s : Statement) (o : Oid) : Prop :=
  ∃ group info, s.groups = [group] ∧ group.infos = [info] ∧ info.oids = some [o]

/-- It is said everywhere what the professions are called. -/
def Statement.Calls (s : Statement) : Prop :=
  ∀ group ∈ s.groups, ∀ info ∈ group.infos, info.items ≠ none

theorem Info.seen_eq {i : Info} {o : Oid} :
    i.seen = ⟨some [o]⟩ ↔ i.oids = some [o] ∧ i.items ≠ none := by
  rw [seen, ProfessionInfo.mk.injEq]
  rcases i.items with _ | items
  · simp
  · simp

theorem Statement.seen_eq {s : Statement} {o : Oid} :
    s.groups.map Group.seen = [⟨[⟨some [o]⟩]⟩] ↔ s.States o ∧ s.Calls := by
  simp only [List.map_eq_singleton_iff, Group.seen, Admissions.mk.injEq]
  constructor
  · rintro ⟨group, hgroups, info, hinfos, hinfo⟩
    obtain ⟨hoids, hitems⟩ := Info.seen_eq.mp hinfo
    refine ⟨⟨group, info, hgroups, hinfos, hoids⟩, ?_⟩
    rw [Calls, hgroups, List.forall_mem_singleton, hinfos, List.forall_mem_singleton]
    exact hitems
  · rintro ⟨⟨group, info, hgroups, hinfos, hoids⟩, hcalls⟩
    rw [Calls, hgroups, List.forall_mem_singleton, hinfos, List.forall_mem_singleton] at hcalls
    exact ⟨group, hgroups, info, hinfos, Info.seen_eq.mpr ⟨hoids, hcalls⟩⟩

/-- A certificate passes exactly if it states the expected profession and no other, and says what it
is called. If it does not say so, the profession is overlooked. -/
theorem checkAdmission_stated {der : Bytes} {s : Statement} (h : valueIn der = some s.element.raw)
    (expected : Oid) :
    (checkAdmission der expected = .ok () ↔ s.States expected ∧ s.Calls) ∧
      (s.States expected → ¬ s.Calls → checkAdmission der expected = .error (.oids 0)) := by
  rw [checkAdmission_eq h, Statement.read_element (valueIn_length_lt h)]
  dsimp only
  refine ⟨?_, ?_⟩
  · rw [← Statement.seen_eq, ← singleOid_eq_ok, bind_eq_ok]
    constructor
    · rintro ⟨o, ho, hsame⟩
      obtain ⟨heq, -⟩ := refuse_eq_ok.mp hsame
      rw [ho, Decidable.not_not.mp heq]
    · intro hsingle
      exact ⟨expected, hsingle, refuse_eq_ok.mpr ⟨not_not_intro rfl, rfl⟩⟩
  · rintro ⟨group, info, hgroups, hinfos, hoids⟩ hcalls
    rw [Statement.Calls, hgroups, List.forall_mem_singleton, hinfos, List.forall_mem_singleton,
      Decidable.not_not] at hcalls
    have hseen : s.groups.map Group.seen = [⟨[⟨none⟩]⟩] := by
      simp only [hgroups, List.map_cons, List.map_nil, Group.seen, hinfos, Info.seen, hcalls]
      rfl
    rw [hseen]
    rfl

/-- A certificate with a statement. -/
def certificateOf (s : Statement) : Bytes :=
  (TwoIssuers.certificate 4 'A' 'L' [TwoIssuers.sequence [TwoIssuers.identifier extensionOid,
    TwoIssuers.octets s.element.raw]]).der

/-- A statement where nothing is left out, but possibly what the profession is called. -/
def statementOf (items : Option (List DirectoryString)) : Statement where
  authority := some { kind := 6, constructed := false, content := [0x61] }
  groups := [{
    authority := some { kind := 4, constructed := true, content := [0x30, 0x00] }
    naming := some [0x06, 0x01, 0x2a]
    infos := [{
      naming := some []
      items
      oids := some [TrustPolicy.responderOid]
      registration := some { kind := .printable, content := [0x31] }
      extra := some [0x00] }] }]

theorem checkAdmission_stated_sample :
    let s := statementOf (some [{ kind := .utf8, content := [0x56, 0x41, 0x55] }])
    valueIn (certificateOf s) = some s.element.raw ∧
      (checkAdmission (certificateOf s) TrustPolicy.responderOid = .ok () ↔
        s.States TrustPolicy.responderOid ∧ s.Calls) ∧
      (s.States TrustPolicy.responderOid → ¬ s.Calls →
        checkAdmission (certificateOf s) TrustPolicy.responderOid = .error (.oids 0)) := by
  have hvalue : valueIn (certificateOf (statementOf (some [⟨.utf8, [0x56, 0x41, 0x55]⟩]))) =
      some (statementOf (some [⟨.utf8, [0x56, 0x41, 0x55]⟩])).element.raw := by decide +kernel
  exact ⟨hvalue, checkAdmission_stated hvalue TrustPolicy.responderOid⟩

/-- What a profession is called may be left out, and then the certificate does not pass. -/
theorem not_checkAdmission_uncalled : ¬ ∀ (der : Bytes) (s : Statement) (expected : Oid),
    valueIn der = some s.element.raw →
      (checkAdmission der expected = .ok () ↔ s.States expected) := by
  intro h
  have hvalue : valueIn (certificateOf (statementOf none)) =
      some (statementOf none).element.raw := by decide +kernel
  have hstates : (statementOf none).States TrustPolicy.responderOid := ⟨_, _, rfl, rfl, rfl⟩
  have hpasses := (h _ _ TrustPolicy.responderOid hvalue).mpr hstates
  have hfails : checkAdmission (certificateOf (statementOf none)) TrustPolicy.responderOid =
      .error (.oids 0) := by decide +kernel
  exact nomatch hpasses.symm.trans hfails

end Admission

end SealedTunnel
