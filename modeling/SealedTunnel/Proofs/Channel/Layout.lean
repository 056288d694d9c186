import Mathlib.Data.List.Induction
import Mathlib.Logic.Equiv.Defs
import Mathlib.Tactic.Choose
import SealedTunnel.Proofs.Channel.Delivery

/-!
# The layout of frames

Every byte string of the smallest size or more is one frame, and no other byte string is any. So
nothing gets lost between the bytes that arrive and the fields that are checked, and what the
payload is authenticated with are the bytes that arrived.

* `Bytes.ofNat_toNat`, `Bytes.ofUInt64_toUInt64` — numbers of a fixed width are written again as
  they were read.
* `Frame.IsWhole` — a frame that has its place in bytes; `Frame.parse_eq_ok`.
* `Frame.header_of_parse`, `Frame.payload_of_parse` — where its parts stand.
* `Frame.objection?`, `Frame.decrypt_eq_objection` — what is found without the primitives.
* `Frame.layout_bijective` — reading and writing undo each other.
-/

namespace SealedTunnel

/-! ## Numbers of a fixed width -/

namespace Bytes

/-- Digits are written again as they were read. -/
theorem ofNat_toNat (b : Bytes) : ofNat b.length (toNat b) = b := by
  induction b using List.reverseRecOn with
  | nil => rfl
  | append_singleton b x ih =>
    have hx := x.toNat_lt
    have hlast : UInt8.ofNat (toNat b * 256 + x.toNat) = x := by
      apply UInt8.toNat_inj.mp
      rw [UInt8.toNat_ofNat']
      omega
    have hrest : (toNat b * 256 + x.toNat) / 256 = toNat b := by omega
    rw [List.length_append, List.length_singleton, toNat_append_singleton, ofNat, hrest, ih, hlast]

theorem toNat_lt (b : Bytes) : toNat b < 256 ^ b.length := by
  induction b using List.reverseRecOn with
  | nil => exact Nat.one_pos
  | append_singleton b x ih =>
    have hx := x.toNat_lt
    rw [List.length_append, List.length_singleton, toNat_append_singleton, Nat.pow_succ]
    omega

theorem ofUInt64_toUInt64 {b : Bytes} (h : b.length = 8) : ofUInt64 (toUInt64 b) = b := by
  have hlt := toNat_lt b
  rw [h] at hlt
  have hvalue : (UInt64.ofNat (toNat b)).toNat = toNat b := by
    rw [UInt64.toNat_ofNat']
    exact Nat.mod_eq_of_lt hlt
  have hwritten := ofNat_toNat b
  rw [h] at hwritten
  rw [ofUInt64, toUInt64, hvalue, hwritten]

end Bytes

namespace Frame

variable {b : Bytes} {f : Frame}

/-! ## Reading and writing -/

/-- A frame that has its place in bytes: its keys are named in 32 of them, and its payload is not
empty. -/
structure IsWhole (f : Frame) : Prop where
  /-- the size of a key identifier in a frame -/
  keyId : f.keyId.length = 32
  /-- at least one byte and the tag -/
  payload : tagSize + 1 ≤ f.ciphertext.length

theorem IsWhole.length_header (h : f.IsWhole) : f.header.length = headerSize := by
  rw [Frame.length_header, h.keyId, headerSize]

theorem IsWhole.le_length (h : f.IsWhole) : minSize ≤ f.toBytes.length := by
  have hpayload := h.payload
  rw [length_toBytes, h.keyId]
  simp only [minSize, headerSize, ivSize, tagSize] at hpayload ⊢
  omega

/-- What is read is written again, byte for byte. -/
theorem isWhole_of_parse (h : parse b = .ok f) : f.IsWhole ∧ f.toBytes = b := by
  rcases b with _ | ⟨version, _ | ⟨environment, _ | ⟨direction, rest⟩⟩⟩
  case cons.cons.cons =>
    by_cases hshort : rest.length + 3 < minSize
    · rw [parse, if_pos hshort] at h
      cases h
    obtain ⟨iv, hiv, hparse⟩ := parse_of_length version environment direction hshort
    obtain rfl := Except.ok.inj (hparse.symm.trans h)
    simp only [minSize, headerSize, ivSize, tagSize] at hshort
    have hcounter : (rest.take 8).length = 8 := by
      rw [List.length_take]
      omega
    refine ⟨⟨?_, ?_⟩, ?_⟩
    · show ((rest.drop 8).take 32).length = 32
      rw [List.length_take, List.length_drop]
      omega
    · show tagSize + 1 ≤ (rest.drop 52).length
      rw [List.length_drop, tagSize]
      omega
    · -- the four parts of the rest, one after the other
      have hparts : rest.take 8 ++ ((rest.drop 8).take 32 ++
          ((rest.drop 40).take 12 ++ rest.drop 52)) = rest := by
        have h40 : rest.drop 40 = (rest.drop 8).drop 32 := by rw [List.drop_drop]
        have h52 : rest.drop 52 = (rest.drop 40).drop 12 := by rw [List.drop_drop]
        rw [h52, List.take_append_drop, h40, List.take_append_drop, List.take_append_drop]
      rw [toBytes_eq, tail, Bytes.ofUInt64_toUInt64 hcounter, hiv, hparts]
  all_goals cases h

/-- A byte string is read as a frame exactly if it is that frame, written out. -/
theorem parse_eq_ok : parse b = .ok f ↔ f.IsWhole ∧ f.toBytes = b := by
  refine ⟨isWhole_of_parse, ?_⟩
  rintro ⟨hwhole, rfl⟩
  exact parse_toBytes hwhole.keyId hwhole.payload

/-- It is read as some frame exactly if it has the smallest size. -/
theorem exists_parse : (∃ f, parse b = .ok f) ↔ minSize ≤ b.length := by
  constructor
  · rintro ⟨f, h⟩
    obtain ⟨hwhole, rfl⟩ := parse_eq_ok.mp h
    exact hwhole.le_length
  · intro h
    rcases b with _ | ⟨version, _ | ⟨environment, _ | ⟨direction, rest⟩⟩⟩
    case cons.cons.cons =>
      have hlong : ¬ rest.length + 3 < minSize := Nat.not_lt.mpr h
      obtain ⟨iv, -, hparse⟩ := parse_of_length version environment direction hlong
      exact ⟨_, hparse⟩
    all_goals exact absurd h (by simp [minSize, headerSize, ivSize, tagSize])

/-! ## Where the parts stand -/

/-- The clear part is the start of the bytes. -/
theorem header_of_parse (h : parse b = .ok f) : f.header = b.take headerSize := by
  obtain ⟨hwhole, rfl⟩ := parse_eq_ok.mp h
  rw [toBytes, List.append_assoc]
  exact (List.take_left' hwhole.length_header).symm

/-- The IV and the payload follow it. -/
theorem payload_of_parse (h : parse b = .ok f) :
    f.iv.toList = (b.drop headerSize).take ivSize ∧
      f.ciphertext = b.drop (headerSize + ivSize) := by
  obtain ⟨hwhole, rfl⟩ := parse_eq_ok.mp h
  have hdrop : f.toBytes.drop headerSize = f.iv.toList ++ f.ciphertext := by
    rw [toBytes, List.append_assoc]
    exact List.drop_left' hwhole.length_header
  have hiv : f.iv.toList.length = ivSize := f.iv.length_toList
  rw [← List.drop_drop, hdrop]
  exact ⟨(List.take_left' hiv).symm, (List.drop_left' hiv).symm⟩

/-! ## What is authenticated -/

/-- What is wrong with a frame, as far as this can be told without the primitives. -/
def objection? (keyId : Bytes) (environment : Environment) (direction : Direction) (f : Frame) :
    Option ChannelError :=
  if f.version ≠ currentVersion then some (.malformedFrame s!"unsupported version {f.version}")
  else if f.environment ≠ environment.byte then
    some (.malformedFrame
      s!"PU flag mismatch: expected {environment.byte}, got {f.environment}")
  else if f.direction ≠ direction.byte then
    some (.malformedFrame s!"direction mismatch: expected {direction.byte}, got {f.direction}")
  else if f.keyId ≠ keyId then some .keyIdMismatch
  else if f.ciphertext.length < tagSize then some (.malformedFrame "ciphertext too short")
  else none

/-- The primitives are asked one question at most, and whether they are does not depend on them. -/
theorem decrypt_eq_objection {ρ : Type} (S : Suite ρ) (key keyId : Bytes)
    (environment : Environment) (direction : Direction) (f : Frame) :
    f.decrypt S key keyId environment direction =
      match f.objection? keyId environment direction with
      | some e => .error e
      | none =>
        match S.decrypt? key f.iv.toList f.header f.ciphertext with
        | some plain => .ok plain
        | none => .error (.authentication "application data") := by
  rw [decrypt_eq, objection?]
  split_ifs <;> rfl

/-- Reading and writing are bijections between the byte strings of the smallest size or more and the
frames that have their place in bytes, and undo each other. The clear part of a frame that was read
is the start of the bytes it was read from; and it is these bytes that the payload is authenticated
with, whatever key and primitives it is opened with. -/
theorem layout_bijective :
    (minSize = 72 ∧ headerSize = 43 ∧ tagSize + 1 = 17) ∧
    (∀ b : Bytes, (∃ f, parse b = .ok f) ↔ minSize ≤ b.length) ∧
    (∀ b : Bytes, b.length < minSize →
      parse b = .error (.malformedFrame s!"frame too short: {b.length} bytes")) ∧
    (∀ (b : Bytes) (f : Frame), parse b = .ok f ↔ f.IsWhole ∧ f.toBytes = b) ∧
    (∃ layout : { f : Frame // f.IsWhole } ≃ { b : Bytes // minSize ≤ b.length },
      (∀ f, (layout f).val = f.val.toBytes) ∧
      ∀ b, parse b.val = .ok (layout.symm b).val) ∧
    ∀ (b : Bytes) (f : Frame), parse b = .ok f → f.header = b.take headerSize ∧
      ∀ (ρ : Type) (S : Suite ρ) (key keyId : Bytes) (environment : Environment)
        (direction : Direction), f.decrypt S key keyId environment direction =
          match f.objection? keyId environment direction with
          | some e => .error e
          | none =>
            match S.decrypt? key ((b.drop headerSize).take ivSize) (b.take headerSize)
              (b.drop (headerSize + ivSize)) with
            | some plain => .ok plain
            | none => .error (.authentication "application data") := by
  refine ⟨by decide, fun b => exists_parse, fun b => parse_of_short, fun b f => parse_eq_ok, ?_, ?_⟩
  · have hread : ∀ b : { b : Bytes // minSize ≤ b.length }, ∃ f : { f : Frame // f.IsWhole },
        parse b.val = .ok f.val := by
      intro b
      obtain ⟨f, h⟩ := exists_parse.mpr b.property
      exact ⟨⟨f, (parse_eq_ok.mp h).1⟩, h⟩
    choose read hread using hread
    refine ⟨{
      toFun := fun f => ⟨f.val.toBytes, f.property.le_length⟩
      invFun := read
      left_inv := fun f => ?_
      right_inv := fun b => Subtype.ext (parse_eq_ok.mp (hread b)).2 }, fun f => rfl, hread⟩
    have hagain := parse_eq_ok.mpr ⟨f.property, rfl⟩
    exact Subtype.ext (Except.ok.inj ((hread _).symm.trans hagain))
  · intro b f h
    obtain ⟨hiv, hciphertext⟩ := payload_of_parse h
    refine ⟨header_of_parse h, fun ρ S key keyId environment direction => ?_⟩
    rw [decrypt_eq_objection, header_of_parse h, hiv, hciphertext]

end Frame

end SealedTunnel
