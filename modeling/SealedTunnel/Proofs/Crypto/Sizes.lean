import SealedTunnel.Crypto.Kyber
import SealedTunnel.Crypto.P256
import SealedTunnel.Crypto.Sha2

/-!
# Sizes of what the primitives return

* `Keccak.length_sponge` — as many bytes as were asked for.
* `Kyber.length_generate` — a public key of 1184 bytes.
* `Kyber.length_encapsulate`, `Kyber.length_decapsulate` — a ciphertext of 1088 bytes and a secret
  of 32.
* `P256.length_publicKey`, `P256.length_agree?` — points of 64 bytes.
* `Hkdf.length_derive` — as much key material as was asked for.
-/

namespace SealedTunnel

/-- Pieces of one size are so many times as long together. -/
theorem length_flatMap_eq {α : Type} {f : α → Bytes} {l : List α} {n : Nat}
    (h : ∀ a ∈ l, (f a).length = n) : (l.flatMap f).length = l.length * n := by
  rw [List.length_flatMap, List.map_congr_left h, List.map_const', List.sum_replicate_nat]

/-! ## Keccak -/

namespace Keccak

variable {s : State}

theorem size_round (s : State) (constant : UInt64) : (round s constant).size = 25 := by
  simp [round]

theorem size_permute (h : s.size = 25) : (permute s).size = 25 := by
  simp only [permute]
  generalize roundConstants = constants
  induction constants generalizing s with
  | nil => exact h
  | cons constant constants ih =>
    rw [List.foldl_cons]
    exact ih (size_round s constant)

theorem size_foldl_modify {α : Type} (f : α → Nat) (g : α → UInt64 → UInt64) (l : List α)
    (s : State) : (l.foldl (fun s i => s.modify (f i) (g i)) s).size = s.size := by
  induction l generalizing s with
  | nil => rfl
  | cons i l ih => rw [List.foldl_cons, ih, Array.size_modify]

theorem size_absorb (rate : Nat) (b : Bytes) (h : s.size = 25) : (absorb rate s b).size = 25 := by
  fun_induction absorb rate s b with
  | case1 => exact h
  | case2 s b hlong block s' ih =>
    refine ih (size_permute ?_)
    exact (size_foldl_modify (fun i => i) (fun i x => x ^^^ block.getD i 0) _ s).trans h

theorem length_squeeze {rate : Nat} (hrate : rate ≤ 200) (h : s.size = 25) (count : Nat) :
    (squeeze rate s count).length = rate * count := by
  induction count generalizing s with
  | zero => rfl
  | succ count ih =>
    have hlane : ∀ x, (laneBytes x).length = 8 := fun x => by
      rw [laneBytes, List.length_map, List.length_range]
    have hlanes : (s.toList.flatMap laneBytes).length = 200 := by
      rw [length_flatMap_eq fun x _ => hlane x, Array.length_toList, h]
    rw [squeeze, List.length_append, List.length_take, hlanes, Nat.min_eq_left hrate,
      ih (size_permute h), Nat.mul_succ, Nat.add_comm]

theorem length_sponge {rate : Nat} (hpos : 0 < rate) (hrate : rate ≤ 200) (domain : UInt8)
    (message : Bytes) (length : Nat) : (sponge rate domain message length).length = length := by
  have hstart : (Array.replicate 25 0 : State).size = 25 := Array.size_replicate
  have henough : length ≤ rate * ((length + rate - 1) / rate) := by
    have hdiv := Nat.div_add_mod (length + rate - 1) rate
    have hmod := Nat.mod_lt (length + rate - 1) hpos
    omega
  simp only [sponge]
  rw [List.length_take, length_squeeze hrate (size_absorb rate _ hstart)]
  exact Nat.min_eq_left henough

end Keccak

/-! ## Kyber -/

namespace Kyber

theorem size_mul (f g : Poly) : (mul f g).size = 256 := Array.size_ofFn

theorem size_add {f g : Poly} (hf : f.size = 256) (hg : g.size = 256) : (add f g).size = 256 := by
  rw [add, Array.size_zipWith, hf, hg]
  rfl

theorem size_dot (f g : Vec) : (dot f g).size = 256 := by
  have hproducts : ∀ h ∈ f.zipWith mul g, h.size = 256 := by
    intro h hmem
    obtain ⟨i, hi, rfl⟩ := List.mem_iff_getElem.mp hmem
    rw [List.getElem_zipWith]
    exact size_mul _ _
  have hzero : zero.size = 256 := Array.size_replicate
  simp only [dot]
  generalize f.zipWith mul g = products at hproducts
  generalize zero = start at hzero
  induction products generalizing start with
  | nil => exact hzero
  | cons h products ih =>
    obtain ⟨hh, hproducts⟩ := List.forall_mem_cons.mp hproducts
    exact ih hproducts _ (size_add hzero hh)

theorem size_inverseLayer (f : Poly) (len : Nat) : (inverseLayer f len).size = 256 :=
  Array.size_ofFn

theorem size_untransform (f : Poly) : (untransform f).size = 256 := by
  rw [untransform, Array.size_map]
  simp only [List.foldl_cons, List.foldl_nil]
  exact size_inverseLayer _ _

theorem length_pieces {α : Type} (d : Nat) (xs : List α) :
    (pieces d xs).length = xs.length / d := by
  have hfold : ∀ (l : List Nat) (xs : List α), (l.foldr
      (fun _ k (rest : List α) => rest.take d :: k (rest.drop d)) (fun _ => []) xs).length =
        l.length := by
    intro l
    induction l with
    | nil => exact fun _ => rfl
    | cons n l ih => exact fun xs => congrArg (· + 1) (ih (xs.drop d))
  rw [pieces, hfold, List.length_range]

theorem length_bits (b : Bytes) : (b.flatMap fun x => bits 8 x.toNat).length = 8 * b.length := by
  simp [List.length_flatMap, bits, List.map_const', Nat.mul_comm]

theorem size_noise (seed : Bytes) (nonce : Nat) : (noise seed nonce).size = 256 := by
  have hbytes := Keccak.length_sponge (by decide : 0 < 136) (by decide) 0x1f
    (seed ++ [UInt8.ofNat nonce]) 128
  simp only [noise, shake256]
  rw [List.size_toArray, List.length_map, length_pieces, length_bits, hbytes]

theorem size_compress (d : Nat) (f : Poly) : (compress d f).size = f.size := Array.size_map

theorem size_decompress (d : Nat) (f : Poly) : (decompress d f).size = f.size := Array.size_map

theorem size_unpack (d : Nat) (b : Bytes) : (unpack d b).size = 8 * b.length / d := by
  rw [unpack, List.size_toArray, List.length_map, length_pieces, length_bits]

theorem length_pack (d : Nat) {f : Poly} (hf : f.size = 256) : (pack d f).length = 32 * d := by
  have hbits : (f.toList.flatMap (bits d)).length = 256 * d := by
    rw [List.length_flatMap, List.map_congr_left (g := fun _ => d) fun n _ => by simp [bits],
      List.map_const', List.sum_replicate_nat, Array.length_toList, hf]
  rw [pack, List.length_map, length_pieces, hbits]
  omega

theorem length_encrypt (publicKey coins : Bytes) {message : Bytes} (h : message.length = 32) :
    (encrypt publicKey message coins).length = 1088 := by
  unfold encrypt
  extract_lets t rho r u v
  have hmessage : (decompress 1 (unpack 1 message)).size = 256 := by
    rw [size_decompress, size_unpack, h]
  have hv : v.size = 256 :=
    size_add (size_add (size_untransform _) (size_noise coins 6)) hmessage
  have hu : ∀ f ∈ u, f.size = 256 := by
    intro f hf
    obtain ⟨i, hi, rfl⟩ := List.mem_iff_getElem.mp hf
    have hnoise : ∀ e ∈ noiseVec coins 3, e.size = 256 := by
      intro e he
      obtain ⟨i, -, rfl⟩ := List.mem_map.mp he
      exact size_noise coins _
    rw [List.getElem_zipWith]
    exact size_add (size_untransform _) (hnoise _ (List.getElem_mem _))
  have hlength : u.length = 3 := by
    simp [u, columns, noiseVec]
  rw [List.length_append, length_pack 4 ((size_compress 4 v).trans hv)]
  rw [length_flatMap_eq fun f hf => length_pack 10 ((size_compress 10 f).trans (hu f hf)), hlength]

theorem size_forwardLayer (f : Poly) (len : Nat) : (forwardLayer f len).size = 256 :=
  Array.size_ofFn

theorem size_transform (f : Poly) : (transform f).size = 256 := by
  simp only [transform, List.foldl_cons, List.foldl_nil]
  exact size_forwardLayer _ _

theorem length_generate (random : Bytes) : (generate random).1.length = 1184 := by
  unfold generate generatePair
  extract_lets expanded rho sigma s e t
  have hexpanded : expanded.length = 64 := Keccak.length_sponge (by decide) (by decide) _ _ _
  have hrho : rho.length = 32 := by
    rw [List.length_take, hexpanded]
    rfl
  have ht : ∀ f ∈ t, f.size = 256 := by
    intro f hf
    obtain ⟨i, hi, rfl⟩ := List.mem_iff_getElem.mp hf
    rw [List.getElem_zipWith, List.getElem_map]
    exact size_add (size_dot _ _) (size_transform _)
  have hlength : t.length = 3 := by
    simp [t, e, rows, noiseVec]
  show (t.flatMap (pack 12) ++ rho).length = 1184
  rw [List.length_append, length_flatMap_eq fun f hf => length_pack 12 (ht f hf), hlength, hrho]

theorem length_encapsulate (publicKey random : Bytes) :
    (encapsulate publicKey random).1.length = 1088 ∧
      (encapsulate publicKey random).2.length = 32 := by
  unfold encapsulate
  extract_lets message expanded ciphertext
  refine ⟨length_encrypt publicKey _ ?_, ?_⟩
  · exact Keccak.length_sponge (by decide) (by decide) _ _ _
  · exact Keccak.length_sponge (by decide) (by decide) _ _ _

theorem length_decapsulate (secretKey ciphertext : Bytes) :
    (decapsulate secretKey ciphertext).length = 32 := by
  unfold decapsulate
  extract_lets publicKey hash message expanded
  split
  · exact Keccak.length_sponge (by decide) (by decide) _ _ _
  · exact Keccak.length_sponge (by decide) (by decide) _ _ _

end Kyber

/-! ## P-256 -/

namespace P256

theorem length_encode (r : Nat × Nat) : (encode r).length = 64 := by
  rw [encode, List.length_append, Bytes.length_ofNat, Bytes.length_ofNat]

theorem length_publicKey (scalar : Bytes) : (publicKey scalar).length = 64 := by
  simp only [publicKey]
  split
  · exact length_encode _
  · exact length_encode _

theorem length_agree? {scalar point shared : Bytes} (h : agree? scalar point = some shared) :
    shared.length = 64 := by
  unfold agree? at h
  dsimp only at h
  split at h
  · obtain ⟨r, -, rfl⟩ := Option.map_eq_some_iff.mp h
    exact length_encode r
  · exact nomatch h

end P256

/-! ## Key derivation -/

namespace Hkdf

theorem length_blocks (key : Bytes) (count number : Nat) (previous : Bytes) :
    (blocks key count number previous).length = 32 * count := by
  induction count generalizing number previous with
  | zero => rfl
  | succ count ih =>
    rw [blocks, List.length_append, ih, Hmac.mac, Sha256.length_digest]
    omega

theorem length_derive (secret : Bytes) (length : Nat) : (derive secret length).length = length := by
  rw [derive, List.length_take, length_blocks]
  omega

end Hkdf

end SealedTunnel
