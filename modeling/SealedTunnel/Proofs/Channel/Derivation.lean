import SealedTunnel.Proofs.Channel.Completion

/-!
# What keys are derived from

A derivation is fed with all of its secrets, one after the other and without anything between them.
Their sizes are checked first, and that alone is why they can be told apart in there.

* `FirstMisfit`, `objection?` — what is wrong with the first secret that does not have its size.
* `together`, `together_inj` — secrets in a row, and that those of the right size can be told apart.
* `combine` — both in one; `Encapsulation.secrets_eq`, `combine_append`.
* `HandshakeKeys.sources`, `SessionKeys.sources` — what the two derivations are fed with;
  `HandshakeKeys.derive_eq`, `SessionKeys.derive_eq`.
* `Derived` — what a derivation returns, and `Derived.of_cut` for everything that cuts its keys out
  of key material.
* `key_derivation` — both derivations, and that no two of them are fed with the same.
-/

namespace SealedTunnel

variable {ρ : Type} {S : Suite ρ}

/-! ## Secrets in a row -/

/-- What is wrong with the size of a secret, if anything is. -/
def misfit? (what : String) (secret : Bytes) : Option ChannelError :=
  if secret = [] then some (.missingSecret what)
  else if secret.length ≠ 32 then some (.invalidSecretLength what secret.length)
  else none

/-- The error is about the first of these secrets that does not have its size. Each secret stands
with the name that an error has for it. -/
def FirstMisfit (secrets : List (String × Bytes)) (e : ChannelError) : Prop :=
  ∃ before what secret after, secrets = before ++ (what, secret) :: after ∧
    (∀ x ∈ before, x.2.length = 32) ∧ misfit? what secret = some e

/-- What is wrong with the first of these secrets that does not have its size, if one does not. -/
def objection? (secrets : List (String × Bytes)) : Option ChannelError :=
  secrets.findSome? fun (what, secret) => misfit? what secret

/-- The secrets, one after the other. -/
def together (secrets : List (String × Bytes)) : Bytes := secrets.flatMap Prod.snd

/-- The same, if nothing is wrong with any of them. -/
def combine (secrets : List (String × Bytes)) : Except ChannelError Bytes :=
  match objection? secrets with
  | some e => .error e
  | none => .ok (together secrets)

variable {secrets secrets' : List (String × Bytes)}

theorem misfit?_eq_none {what : String} {secret : Bytes} :
    misfit? what secret = none ↔ secret.length = 32 := by
  simp only [misfit?]
  split
  · rename_i hempty
    rw [hempty]
    exact ⟨fun h => (nomatch h), fun h => (nomatch h)⟩
  · split
    · rename_i hlength
      exact ⟨fun h => (nomatch h), fun h => absurd h hlength⟩
    · rename_i hlength
      exact ⟨fun _ => Decidable.not_not.mp hlength, fun _ => rfl⟩

theorem objection?_eq_none : objection? secrets = none ↔ ∀ x ∈ secrets, x.2.length = 32 := by
  simp only [objection?, List.findSome?_eq_none_iff, misfit?_eq_none]

theorem objection?_eq_some {e : ChannelError} :
    objection? secrets = some e ↔ FirstMisfit secrets e := by
  rw [objection?, List.findSome?_eq_some_iff]
  constructor
  · rintro ⟨before, ⟨what, secret⟩, after, heq, hmisfit, hbefore⟩
    exact ⟨before, what, secret, after, heq, fun x hx => misfit?_eq_none.mp (hbefore x hx), hmisfit⟩
  · rintro ⟨before, what, secret, after, heq, hbefore, hmisfit⟩
    exact ⟨before, (what, secret), after, heq, hmisfit, fun x hx =>
      misfit?_eq_none.mpr (hbefore x hx)⟩

theorem combine_eq_error {e : ChannelError} :
    combine secrets = .error e ↔ FirstMisfit secrets e := by
  rw [← objection?_eq_some]
  simp only [combine]
  cases objection? secrets with
  | some e' => simp
  | none => simp

theorem combine_eq_ok {b : Bytes} :
    combine secrets = .ok b ↔ (∀ x ∈ secrets, x.2.length = 32) ∧ together secrets = b := by
  simp only [combine, ← objection?_eq_none]
  cases objection? secrets with
  | some e => simp
  | none => simp

/-- Secrets may be combined in parts. -/
theorem combine_append {α : Type} (f : Bytes → Except ChannelError α) :
    (do let b ← combine secrets; let b' ← combine secrets'; f (b ++ b')) =
      combine (secrets ++ secrets') >>= f := by
  have htogether : together (secrets ++ secrets') = together secrets ++ together secrets' :=
    List.flatMap_append
  have hobjection : objection? (secrets ++ secrets') =
      (objection? secrets).or (objection? secrets') := List.findSome?_append
  simp only [combine, htogether, hobjection]
  cases objection? secrets with
  | some e => rfl
  | none => cases objection? secrets' <;> rfl

/-- Secrets of the right size can be told apart again. -/
theorem together_inj (h : ∀ x ∈ secrets, x.2.length = 32) (h' : ∀ x ∈ secrets', x.2.length = 32)
    (heq : together secrets = together secrets') :
    secrets.map Prod.snd = secrets'.map Prod.snd := by
  induction secrets generalizing secrets' with
  | nil =>
    cases secrets' with
    | nil => rfl
    | cons x' secrets' =>
      have hempty : x'.2 = [] := (List.append_eq_nil_iff.mp heq.symm).1
      exact absurd (h' x' List.mem_cons_self) (by simp [hempty])
  | cons x secrets ih =>
    have hx := h x List.mem_cons_self
    cases secrets' with
    | nil =>
      have hempty : x.2 = [] := (List.append_eq_nil_iff.mp heq).1
      exact absurd hx (by simp [hempty])
    | cons x' secrets' =>
      have hx' := h' x' List.mem_cons_self
      obtain ⟨hfirst, hrest⟩ := List.append_inj heq (hx.trans hx'.symm)
      rw [List.map_cons, List.map_cons, hfirst, ih (fun y hy => h y (List.mem_cons_of_mem _ hy))
        (fun y hy => h' y (List.mem_cons_of_mem _ hy)) hrest]

/-! ## What is fed to the derivations -/

theorem checkedSecret_eq (secret : Bytes) (what : String) :
    checkedSecret secret what = combine [(what, secret)] := by
  simp only [checkedSecret, combine, objection?, together, List.findSome?_cons,
    List.findSome?_nil, misfit?]
  split
  · rfl
  · split
    · rfl
    · simp

theorem Encapsulation.secrets_eq (e : Encapsulation) (which : String) :
    e.secrets which =
      combine [(s!"{which} ECDH secret", e.agreed), (s!"{which} Kyber secret", e.kyber)] := by
  simp only [Encapsulation.secrets, checkedSecret_eq, pure, Except.pure]
  rw [combine_append]
  exact bind_pure _

/-- The secrets that the keys of a handshake are derived from. -/
def HandshakeKeys.sources (first : Encapsulation) : List (String × Bytes) :=
  [("first ECDH secret", first.agreed), ("first Kyber secret", first.kyber)]

/-- The secrets that the keys of a channel are derived from. -/
def SessionKeys.sources (first second : Encapsulation) : List (String × Bytes) :=
  [("first ECDH secret", first.agreed), ("first Kyber secret", first.kyber),
    ("second ECDH secret", second.agreed), ("second Kyber secret", second.kyber)]

theorem HandshakeKeys.derive_eq (first : Encapsulation) : derive S first = (do
    let material ← expand S (← combine (sources first)) 64
    return { toResponder := material.take 32, toInitiator := material.drop 32 }) := by
  rw [derive, Encapsulation.secrets_eq]
  rfl

theorem SessionKeys.derive_eq (first second : Encapsulation) : derive S first second = (do
    let material ← expand S (← combine (sources first second)) 160
    ofMaterial material) := by
  rw [derive, Encapsulation.secrets_eq, Encapsulation.secrets_eq]
  exact combine_append fun secret => expand S secret 160 >>= ofMaterial

/-! ## What comes out -/

/-- The keys of a handshake, in the order of the key material. -/
def HandshakeKeys.inOrder (keys : HandshakeKeys) : List Bytes :=
  [keys.toResponder, keys.toInitiator]

/-- The keys of a channel, in the order of the key material. -/
def SessionKeys.inOrder (keys : SessionKeys) : List Bytes :=
  [keys.confirmToResponder, keys.requests, keys.confirmToInitiator, keys.responses, keys.keyId]

/-- This is the result of a derivation from these secrets: keys that are all of the key material if
every secret has its size, and otherwise an error about the first that does not. -/
structure Derived {α : Type} (result : Except ChannelError α) (secrets : List (String × Bytes))
    (inOrder : α → List Bytes) (material : Bytes) : Prop where
  /-- whether there are keys -/
  accepted : (∃ keys, result = .ok keys) ↔ ∀ x ∈ secrets, x.2.length = 32
  /-- why there are none -/
  refused : ∀ e, result = .error e ↔ FirstMisfit secrets e
  /-- every key has 32 bytes -/
  sized : ∀ keys, result = .ok keys → ∀ key ∈ inOrder keys, key.length = 32
  /-- nothing is left over, and nothing is used twice -/
  whole : ∀ keys, result = .ok keys → (inOrder keys).flatten = material

/-- However the keys are cut out of the key material, if only that never fails and leaves nothing
over. -/
theorem Derived.of_cut {α : Type} (cut : Bytes → Except ChannelError α)
    {inOrder : α → List Bytes} {length : Nat}
    (hlength : ∀ secret, (S.derive secret length).length = length)
    (hcut : ∀ material : Bytes, material.length = length → ∃ keys, cut material = .ok keys ∧
      (∀ key ∈ inOrder keys, key.length = 32) ∧ (inOrder keys).flatten = material) :
    Derived (do let material ← expand S (← combine secrets) length; cut material) secrets inOrder
      (S.derive (together secrets) length) := by
  obtain ⟨keys, hkeys, hsized, hwhole⟩ := hcut _ (hlength (together secrets))
  cases hcombine : combine secrets with
  | error e =>
    have hmisfit := combine_eq_error.mp hcombine
    have hnot : ¬ ∀ x ∈ secrets, x.2.length = 32 := fun h =>
      nomatch hcombine.symm.trans (combine_eq_ok.mpr ⟨h, rfl⟩)
    refine ⟨⟨fun ⟨_, hok⟩ => (nomatch hok), fun h => absurd h hnot⟩, fun e' => ?_,
      fun _ hok => (nomatch hok), fun _ hok => (nomatch hok)⟩
    rw [← combine_eq_error, hcombine]
    exact ⟨fun herror => congrArg _ (Except.error.inj herror),
      fun herror => congrArg _ (Except.error.inj herror)⟩
  | ok secret =>
    obtain ⟨hsizes, rfl⟩ := combine_eq_ok.mp hcombine
    have hresult : (do
        let material ← expand S (← (.ok (together secrets) : Except ChannelError Bytes)) length
        cut material) = .ok keys :=
      bind_eq_ok.mpr ⟨_, rfl, bind_eq_ok.mpr ⟨_, expand_eq (hlength _), hkeys⟩⟩
    rw [hresult]
    refine ⟨⟨fun _ => hsizes, fun _ => ⟨keys, rfl⟩⟩, fun e => ?_, fun _ hok => ?_, fun _ hok => ?_⟩
    · rw [← combine_eq_error, hcombine]
      exact ⟨fun herror => (nomatch herror), fun herror => (nomatch herror)⟩
    · obtain rfl := Except.ok.inj hok
      exact hsized
    · obtain rfl := Except.ok.inj hok
      exact hwhole

theorem HandshakeKeys.derived (hderive : ∀ secret, (S.derive secret 64).length = 64)
    (first : Encapsulation) :
    Derived (derive S first) (sources first) inOrder (S.derive (together (sources first)) 64) := by
  rw [derive_eq]
  refine Derived.of_cut
    (fun material => .ok (HandshakeKeys.mk (material.take 32) (material.drop 32)))
    hderive fun material hlength => ⟨_, rfl, ?_, ?_⟩
  · simp [inOrder, hlength]
  · simp only [inOrder, List.flatten_cons, List.flatten_nil, List.append_nil,
      List.take_append_drop]

theorem SessionKeys.derived (hderive : ∀ secret, (S.derive secret 160).length = 160)
    (first second : Encapsulation) :
    Derived (derive S first second) (sources first second) inOrder
      (S.derive (together (sources first second)) 160) := by
  rw [derive_eq]
  refine Derived.of_cut ofMaterial hderive fun material hlength => ?_
  obtain ⟨keys, hkeys, hsized, hwhole⟩ := exists_ofMaterial hlength
  refine ⟨keys, hkeys, ?_, ?_⟩
  · simp only [inOrder, List.forall_mem_cons]
    exact ⟨hsized.confirmToResponder, hsized.requests, hsized.confirmToInitiator,
      hsized.responses, hsized.keyId, nofun⟩
  · simpa only [inOrder, List.flatten_cons, List.flatten_nil, List.append_nil] using hwhole

/-! ## Both derivations -/

/-- The keys of a handshake are derived from the two secrets of its first encapsulation, and the
keys of a channel from the four of both encapsulations. All secrets have 32 bytes, or the first that
does not is named; the keys are the key material, cut into pieces of 32 bytes. Accepted secrets can
be read off what is fed to the derivation: other secrets of a channel are fed as something else, and
so are those of a handshake. -/
theorem key_derivation (S : Suite ρ)
    (hS : ∀ secret length, length ≤ 255 * 32 → (S.derive secret length).length = length) :
    (∀ first, Derived (HandshakeKeys.derive S first) (HandshakeKeys.sources first)
      HandshakeKeys.inOrder (S.derive (together (HandshakeKeys.sources first)) 64)) ∧
    (∀ first second, Derived (SessionKeys.derive S first second) (SessionKeys.sources first second)
      SessionKeys.inOrder (S.derive (together (SessionKeys.sources first second)) 160)) ∧
    (∀ first second first' second' keys keys', SessionKeys.derive S first second = .ok keys →
      SessionKeys.derive S first' second' = .ok keys' →
      together (SessionKeys.sources first second) =
        together (SessionKeys.sources first' second') →
      first.agreed = first'.agreed ∧ first.kyber = first'.kyber ∧
        second.agreed = second'.agreed ∧ second.kyber = second'.kyber) ∧
    ∀ first second first' keys keys', SessionKeys.derive S first second = .ok keys →
      HandshakeKeys.derive S first' = .ok keys' →
      together (SessionKeys.sources first second) ≠ together (HandshakeKeys.sources first') := by
  have hhandshake := HandshakeKeys.derived (hS · 64 (by decide))
  have hchannel := SessionKeys.derived (hS · 160 (by decide))
  refine ⟨hhandshake, hchannel, ?_, ?_⟩
  · intro first second first' second' keys keys' hkeys hkeys' hsame
    have heq := together_inj ((hchannel first second).accepted.mp ⟨keys, hkeys⟩)
      ((hchannel first' second').accepted.mp ⟨keys', hkeys'⟩) hsame
    simpa only [SessionKeys.sources, List.map_cons, List.map_nil, List.cons.injEq, and_true]
      using heq
  · intro first second first' keys keys' hkeys hkeys' hsame
    have heq := together_inj ((hchannel first second).accepted.mp ⟨keys, hkeys⟩)
      ((hhandshake first').accepted.mp ⟨keys', hkeys'⟩) hsame
    exact absurd (congrArg List.length heq) (by simp [SessionKeys.sources, HandshakeKeys.sources])

theorem key_derivation_sample :
    let secrets (agreed kyber : Bytes) : Encapsulation := {
      agreed := agreed, kyber := kyber, point := CurvePoint.ofBytes [], ciphertext := [] }
    let first := secrets (List.replicate 32 1) (List.replicate 32 2)
    let second := secrets (List.replicate 32 3) (List.replicate 32 4)
    let short := secrets (List.replicate 31 3) []
    (∃ keys, SessionKeys.derive .standard first second = .ok keys ∧
      keys.inOrder.flatten = Hkdf.derive (List.replicate 32 1 ++ List.replicate 32 2 ++
        List.replicate 32 3 ++ List.replicate 32 4) 160) ∧
    SessionKeys.derive .standard first short =
      .error (.invalidSecretLength "second ECDH secret" 31) ∧
    HandshakeKeys.derive .standard (secrets (List.replicate 32 1) []) =
      .error (.missingSecret "first Kyber secret") := by
  intro secrets first second short
  obtain ⟨hhandshake, hchannel, -, -⟩ :=
    key_derivation .standard fun secret length _ => Hkdf.length_derive secret length
  refine ⟨?_, ?_, ?_⟩
  · obtain ⟨keys, hkeys⟩ := (hchannel first second).accepted.mpr (by decide)
    exact ⟨keys, hkeys, (hchannel first second).whole keys hkeys⟩
  · refine ((hchannel first short).refused _).mpr ?_
    exact ⟨[("first ECDH secret", first.agreed), ("first Kyber secret", first.kyber)], _, _,
      [("second Kyber secret", [])], rfl, by decide, by decide⟩
  · refine ((hhandshake (secrets (List.replicate 32 1) [])).refused _).mpr ?_
    exact ⟨[("first ECDH secret", List.replicate 32 1)], _, _, [], rfl, by decide, by decide⟩

end SealedTunnel
