import Mathlib.Data.List.Induction
import Mathlib.Logic.Relation
import SealedTunnel.Proofs.Der.Grammar
import SealedTunnel.Proofs.Trust.GoodAnswer

/-!
# Elements are split off one at a time

The content of an element is read in rounds. Each takes the element that comes next off what is
left, until nothing is.

* `Splitting` — what has been read, and what is left; `Splitting.Round`, `Splitting.Rounds`.
* `Splitting.Partial` — some elements from the start of a byte string, and the rest of it.
* `Splitting.rounds_iff` — these are what the rounds come by.
* `Splitting.exists_last` — the rounds end, and there is one end only.
* `Ocsp.children_splits` — which elements are found, and in which byte strings.
-/

namespace SealedTunnel

open Relation (ReflTransGen)

namespace Der

/-- How far a byte string has been split. -/
structure Splitting where
  /-- the elements so far -/
  items : List Element
  /-- what is left -/
  rest : Bytes

namespace Splitting

variable {input : Bytes} {s t u : Splitting}

/-- Nothing has been split off. -/
def start (input : Bytes) : Splitting where
  items := []
  rest := input

/-- As long as something is left, the element at its start is split off. -/
inductive Round : Splitting → Splitting → Prop
  | mk {items : List Element} {input rest : Bytes} {e : Element} : input ≠ [] →
      outcome (Element.read input) = some (e, rest) → Round ⟨items, input⟩ ⟨items ++ [e], rest⟩

/-- Any number of rounds. -/
abbrev Rounds : Splitting → Splitting → Prop := ReflTransGen Round

/-- There is no next round. -/
def Last (s : Splitting) : Prop := ∀ t, ¬ Round s t

/-- Elements from the start of a byte string, and the rest of it. -/
structure Partial (input : Bytes) (s : Splitting) : Prop where
  /-- each is an element -/
  sound : ∀ e ∈ s.items, e.Sound
  /-- every byte is in one of them, or is left -/
  whole : input = (s.items.map Element.raw).flatten ++ s.rest

/-! ## One round -/

theorem Round.length_rest_lt (h : Round s t) : t.rest.length < s.rest.length := by
  obtain ⟨-, hread⟩ := h
  obtain ⟨hrest, -⟩ := outcome_eq_some.mp hread
  exact hrest

theorem Round.length_items (h : Round s t) : t.items.length = s.items.length + 1 := by
  obtain ⟨-, -⟩ := h
  exact List.length_append

theorem Round.unique (ht : Round s t) (hu : Round s u) : t = u := by
  obtain ⟨-, hread⟩ := ht
  obtain ⟨-, hread'⟩ := hu
  obtain ⟨rfl, rfl⟩ := Prod.mk.inj (Option.some.inj (hread.symm.trans hread'))
  rfl

theorem Partial.round (hs : Partial input s) (h : Round s t) : Partial input t := by
  obtain ⟨-, hread⟩ := h
  obtain ⟨hsound, hleft⟩ := Element.read_eq_some.mp hread
  refine ⟨?_, ?_⟩
  · exact List.forall_mem_append.mpr ⟨hs.sound, List.forall_mem_singleton.mpr hsound⟩
  · have hwhole := hs.whole
    simp only [hleft] at hwhole
    simp [hwhole]

/-- There is a next round as long as there is an element next. -/
theorem round_of_sound {items : List Element} {e : Element} (h : e.Sound) (rest : Bytes) :
    Round ⟨items, e.raw ++ rest⟩ ⟨items ++ [e], rest⟩ :=
  .mk (List.append_ne_nil_of_left_ne_nil h.raw_ne_nil rest) (Element.read_eq_some.mpr ⟨h, rfl⟩)

/-! ## Any number of rounds -/

/-- Elements from the start of a byte string, and the rest of it, is what there is after some
rounds. -/
theorem rounds_iff : Rounds (start input) s ↔ Partial input s := by
  constructor
  · intro h
    induction h with
    | refl => exact ⟨nofun, rfl⟩
    | tail _ hround ih => exact ih.round hround
  · obtain ⟨items, rest⟩ := s
    induction items using List.reverseRecOn generalizing rest with
    | nil =>
      rintro ⟨-, hwhole⟩
      obtain rfl : input = rest := hwhole
      exact .refl
    | append_singleton items e ih =>
      rintro ⟨hsound, hwhole⟩
      obtain ⟨hitems, he⟩ := List.forall_mem_append.mp hsound
      -- the last element is still in the rest before its round
      have hbefore : Partial input ⟨items, e.raw ++ rest⟩ := ⟨hitems, by simpa using hwhole⟩
      exact (ih _ hbefore).tail (round_of_sound (List.forall_mem_singleton.mp he) rest)

/-- Each round uses up a byte, so there are not more rounds than bytes. -/
theorem Rounds.length_le (h : Rounds s t) :
    t.items.length + t.rest.length ≤ s.items.length + s.rest.length := by
  induction h with
  | refl => exact Nat.le_refl _
  | tail _ hround ih =>
    have hrest := hround.length_rest_lt
    have hitems := hround.length_items
    omega

theorem exists_rounds_last (s : Splitting) : ∃ t, Rounds s t ∧ t.Last := by
  induction hsize : s.rest.length using Nat.strong_induction_on generalizing s with
  | _ size ih =>
    by_cases hlast : s.Last
    · exact ⟨s, .refl, hlast⟩
    · obtain ⟨t, hround⟩ := not_forall_not.mp hlast
      obtain ⟨u, hrounds, hu⟩ := ih t.rest.length (hsize ▸ hround.length_rest_lt) t rfl
      exact ⟨u, .head hround hrounds, hu⟩

theorem Last.eq (hs : s.Last) (h : Rounds s t) : t = s := by
  rcases h.cases_head with heq | ⟨u, hround, -⟩
  · exact heq.symm
  · exact absurd hround (hs u)

/-- All rounds lead to the end, since a round has one outcome. -/
theorem Last.of_rounds (ht : t.Last) (hst : Rounds s t) (hsu : Rounds s u) : Rounds u t := by
  have hunique : Relator.RightUnique Round := fun _ _ _ => Round.unique
  rcases ReflTransGen.total_of_right_unique hunique hsu hst with h | h
  · exact h
  · rw [ht.eq h]

/-- The rounds on a byte string have an end, to which all of them lead. What has been split off
there counts if nothing is left. -/
theorem exists_last (input : Bytes) : ∃ last, Rounds (start input) last ∧ last.Last ∧
    (∀ s, Rounds (start input) s → Rounds s last) ∧
    Element.list input = if last.rest = [] then some last.items else none := by
  obtain ⟨last, hrounds, hlast⟩ := exists_rounds_last (start input)
  refine ⟨last, hrounds, hlast, fun s hs => hlast.of_rounds hrounds hs, ?_⟩
  obtain ⟨hsound, hwhole⟩ := rounds_iff.mp hrounds
  split
  · rename_i hnil
    rw [hnil, List.append_nil] at hwhole
    exact Element.list_eq_some.mpr ⟨hsound, hwhole⟩
  · rename_i hrest
    -- another way to split all of the input would be the end as well
    refine Option.eq_none_iff_forall_ne_some.mpr fun items hitems => hrest ?_
    obtain ⟨hsound', hwhole'⟩ := Element.list_eq_some.mp hitems
    have hother : Rounds (start input) ⟨items, []⟩ :=
      rounds_iff.mpr ⟨hsound', by rwa [List.append_nil]⟩
    have hend : Splitting.Last ⟨items, []⟩ := by
      rintro t ⟨hne, -⟩
      exact hne rfl
    rw [hend.eq (hlast.of_rounds hrounds hother)]

end Splitting

/-! ## Byte strings that are elements -/

theorem Element.read_append_of_read {input rest : Bytes} {e : Element}
    (h : outcome (Element.read input) = some (e, rest)) : rest.length < input.length ∧
    input = e.raw ++ rest ∧ ∀ tail, outcome (Element.read (e.raw ++ tail)) = some (e, tail) := by
  obtain ⟨hrest, -⟩ := outcome_eq_some.mp h
  obtain ⟨hsound, hinput⟩ := read_eq_some.mp h
  exact ⟨hrest, hinput, fun tail => read_eq_some.mpr ⟨hsound, rfl⟩⟩

/-- A byte string can be split into elements if it is made of byte strings of their form. -/
theorem exists_holds_iff {b : Bytes} : (∃ items, Element.Holds b items) ↔
    ∃ parts : List Bytes, (∀ p ∈ parts, IsElement p) ∧ b = parts.flatten := by
  constructor
  · rintro ⟨items, hsound, rfl⟩
    refine ⟨items.map Element.raw, ?_, rfl⟩
    intro p hp
    obtain ⟨e, he, rfl⟩ := List.mem_map.mp hp
    exact isElement_iff.mpr ⟨e, hsound e he, rfl⟩
  · rintro ⟨parts, hparts, rfl⟩
    induction parts with
    | nil => exact ⟨[], nofun, rfl⟩
    | cons p parts ih =>
      obtain ⟨hp, hmore⟩ := List.forall_mem_cons.mp hparts
      obtain ⟨e, hsound, rfl⟩ := isElement_iff.mp hp
      obtain ⟨items, hitems, hflat⟩ := ih hmore
      refine ⟨e :: items, List.forall_mem_cons.mpr ⟨hsound, hitems⟩, ?_⟩
      rw [List.flatten_cons, hflat, List.map_cons, List.flatten_cons]

end Der

namespace Ocsp

open Der
open Der.Splitting (Rounds start Partial)

/-- The content of an element is split in rounds. An element is read by its own bytes alone, and
less is left behind it. So there are at most as many rounds as there are bytes, after each of them
the elements so far and the rest are all of the content, and one end is reached, which is good if
nothing is left. This is so exactly for contents that are made of byte strings of the form of
elements, and then all bytes are in the elements that are found, in order, each of which is found
again in its own bytes. -/
theorem children_splits (what : String) (data : Bytes) :
    (∀ input e rest, outcome (Element.read input) = some (e, rest) →
      rest.length < input.length ∧ input = e.raw ++ rest ∧
        ∀ tail, outcome (Element.read (e.raw ++ tail)) = some (e, tail)) ∧
    (∀ s, Rounds (start data) s ↔ Partial data s) ∧
    (∀ s, Rounds (start data) s → s.items.length + s.rest.length ≤ data.length) ∧
    (∃ last, Rounds (start data) last ∧ last.Last ∧
      (∀ s, Rounds (start data) s → Rounds s last) ∧
      children what data = if last.rest = [] then .ok last.items else malformed (what ++ ": *")) ∧
    ((∃ items, children what data = .ok items) ↔
      ∃ parts : List Bytes, (∀ p ∈ parts, IsElement p) ∧ data = parts.flatten) ∧
    ∀ items, children what data = .ok items → data = (items.map Element.raw).flatten ∧
      ∀ e ∈ items, ∀ part, single part e.raw = .ok e := by
  refine ⟨fun _ _ _ => Element.read_append_of_read, fun _ => Splitting.rounds_iff, ?bound, ?last,
    ?parts, ?items⟩
  case bound =>
    intro s hs
    simpa [start] using hs.length_le
  case last =>
    obtain ⟨last, hrounds, hlast, hall, hlist⟩ := Splitting.exists_last data
    refine ⟨last, hrounds, hlast, hall, ?_⟩
    rw [children, hlist]
    split
    · rfl
    · rfl
  case parts =>
    simp only [children_eq_ok]
    exact exists_holds_iff
  case items =>
    intro items hitems
    obtain ⟨hsound, hdata⟩ := children_eq_ok.mp hitems
    exact ⟨hdata, fun e he part => single_eq_ok.mpr ⟨hsound e he, rfl⟩⟩

end Ocsp

end SealedTunnel
