import SealedTunnel.Crypto.Aes

/-!
# Authenticated encryption is undone by decryption

* `Bytes.xor_xor` — the same key stream twice gives the text back.
* `Aes.length_encryptBlock` — a block stays a block under a 32-byte key.
* `Gcm.length_encrypt` — a ciphertext is longer than its plaintext by the tag.
* `Gcm.decrypt?_encrypt` — what was encrypted decrypts to what it was.

Nothing is said here about an attacker: that is an assumption wherever it is needed.
-/

namespace SealedTunnel

/-! ## Exclusive or -/

namespace Bytes

theorem length_xor (a b : Bytes) : (xor a b).length = min a.length b.length := by
  simp [xor]

theorem xor_xor {a b : Bytes} (h : a.length ≤ b.length) : xor (xor a b) b = a := by
  simp only [xor]
  induction a generalizing b with
  | nil => rfl
  | cons x a ih =>
    cases b with
    | nil => exact absurd h (by simp)
    | cons y b =>
      simp only [List.zipWith_cons_cons]
      rw [ih (Nat.le_of_succ_le_succ h), UInt8.xor_assoc, UInt8.xor_self, UInt8.xor_zero]

end Bytes

namespace Aes

/-! ## The key schedule -/

/-- Every word has four bytes. -/
def Words (ws : List Bytes) : Prop := ∀ w ∈ ws, w.length = 4

theorem Words.getD {ws : List Bytes} (h : Words ws) {i : Nat} (hi : i < ws.length) :
    (ws.getD i []).length = 4 := by
  rw [List.getD_eq_getElem?_getD, List.getElem?_eq_getElem hi]
  exact h _ (List.getElem_mem hi)

theorem length_xor_eq_four {a b : Bytes} (ha : a.length = 4) (hb : b.length = 4) :
    (Bytes.xor a b).length = 4 := by
  rw [Bytes.length_xor, ha, hb]
  rfl

/-- The next eight words have the size of the last eight. -/
theorem nextWords_words {constant : UInt8} {last : List Bytes} (h : Words last)
    (hlength : last.length = 8) : Words (nextWords constant last) := by
  have hlast : ∀ i < 8, (last.getD i []).length = 4 := fun i hi => h.getD (hlength ▸ hi)
  unfold nextWords
  extract_lets final turned w0 w1 w2 w3 w4 w5 w6 w7
  have hfinal : final.length = 4 := hlast 7 (by decide)
  have hturned : turned.length = 4 := by
    have hmap : ((final.drop 1 ++ final.take 1).map sub).length = 4 := by
      rw [List.length_map, List.length_append, List.length_drop, List.length_take, hfinal]
      rfl
    simp only [turned]
    split
    · rename_i heq
      rw [heq] at hmap
      exact hmap
    · rename_i x rest heq
      rw [heq] at hmap
      exact hmap
  -- every word is made from the one before it
  have h0 : w0.length = 4 := length_xor_eq_four (hlast 0 (by decide)) hturned
  have h1 : w1.length = 4 := length_xor_eq_four (hlast 1 (by decide)) h0
  have h2 : w2.length = 4 := length_xor_eq_four (hlast 2 (by decide)) h1
  have h3 : w3.length = 4 := length_xor_eq_four (hlast 3 (by decide)) h2
  have h4 : w4.length = 4 :=
    length_xor_eq_four (hlast 4 (by decide)) (List.length_map sub |>.trans h3)
  have h5 : w5.length = 4 := length_xor_eq_four (hlast 5 (by decide)) h4
  have h6 : w6.length = 4 := length_xor_eq_four (hlast 6 (by decide)) h5
  have h7 : w7.length = 4 := length_xor_eq_four (hlast 7 (by decide)) h6
  intro w hw
  simp only [List.mem_cons, List.not_mem_nil, or_false] at hw
  rcases hw with rfl | rfl | rfl | rfl | rfl | rfl | rfl | rfl <;> assumption

theorem expandFrom_words {last : List Bytes} (h : Words last) (hlength : last.length = 8)
    (constants : List UInt8) :
    Words (expandFrom last constants) ∧
      (expandFrom last constants).length = 8 * constants.length := by
  induction constants generalizing last with
  | nil => exact ⟨fun _ hw => (nomatch hw), rfl⟩
  | cons constant constants ih =>
    have hnext : Words (nextWords constant last) := nextWords_words h hlength
    obtain ⟨hrest, hrestLength⟩ := ih hnext rfl
    constructor
    · intro w hw
      rcases List.mem_append.mp hw with hw | hw
      · exact hnext w hw
      · exact hrest w hw
    · rw [expandFrom, List.length_append, hrestLength, List.length_cons]
      show 8 + _ = _
      omega

theorem flatten_length {ws : List Bytes} (h : Words ws) : ws.flatten.length = 4 * ws.length := by
  induction ws with
  | nil => rfl
  | cons w ws ih =>
    rw [List.flatten_cons, List.length_append, h w List.mem_cons_self,
      ih fun w hw => h w (List.mem_cons_of_mem _ hw), List.length_cons]
    omega

/-- Every round key of a 32-byte key has sixteen bytes. -/
theorem size_of_mem_roundKeys {key : Bytes} (hkey : key.length = 32) :
    ∀ k ∈ roundKeys key, k.size = 16 := by
  have hfirst : Words ((List.range 8).map fun i => (key.drop (4 * i)).take 4) := by
    intro w hw
    obtain ⟨i, hi, rfl⟩ := List.mem_map.mp hw
    rw [List.mem_range] at hi
    rw [List.length_take, List.length_drop, hkey]
    omega
  obtain ⟨hrest, hlength⟩ := expandFrom_words hfirst (by simp) roundBytes
  intro k hk
  simp only [roundKeys] at hk
  obtain ⟨i, hi, rfl⟩ := List.mem_map.mp hk
  rw [List.mem_range] at hi
  have hwords : ∀ w ∈ ((((List.range 8).map fun i => (key.drop (4 * i)).take 4) ++
      expandFrom ((List.range 8).map fun i => (key.drop (4 * i)).take 4)
        roundBytes).drop (4 * i)).take 4, w.length = 4 := by
    intro w hw
    rcases List.mem_append.mp (List.mem_of_mem_drop (List.mem_of_mem_take hw)) with hw | hw
    · exact hfirst w hw
    · exact hrest w hw
  rw [List.size_toArray, flatten_length hwords, List.length_take, List.length_drop,
    List.length_append, hlength, List.length_map, List.length_range]
  have hconstants : roundBytes.length = 7 := rfl
  omega

/-! ## Blocks -/

theorem size_addKey {s k : Array UInt8} (hs : s.size = 16) (hk : k.size = 16) :
    (addKey s k).size = 16 := by
  rw [addKey, Array.size_zipWith, hs, hk]
  rfl

theorem size_rounds {s : Array UInt8} {keys : List (Array UInt8)} (hs : s.size = 16)
    (hkeys : ∀ k ∈ keys, k.size = 16) : (rounds s keys).size = 16 := by
  fun_induction rounds s keys with
  | case1 s => exact hs
  | case2 s k => exact size_addKey (by simp [subAndShift]) (hkeys k List.mem_cons_self)
  | case3 s k rest _ ih =>
    refine ih ?_ fun k hk => hkeys k (List.mem_cons_of_mem _ hk)
    exact size_addKey (by simp [mixColumns]) (hkeys k List.mem_cons_self)

theorem length_encryptBlock {key block : Bytes} (hkey : key.length = 32)
    (hblock : block.length = 16) : (encryptBlock (roundKeys key) block).length = 16 := by
  have hkeys := size_of_mem_roundKeys hkey
  simp only [encryptBlock]
  split
  · exact hblock
  · rename_i k rest heq
    rw [heq] at hkeys
    rw [Array.length_toList]
    refine size_rounds ?_ fun k hk => hkeys k (List.mem_cons_of_mem _ hk)
    exact size_addKey (by simpa using hblock) (hkeys k List.mem_cons_self)

end Aes

namespace Gcm

variable {key iv : Bytes}

/-! ## The key stream -/

theorem length_streamBlock (hkey : key.length = 32) (hiv : iv.length = 12) (counter : Nat) :
    (Aes.encryptBlock (Aes.roundKeys key) (iv ++ Bytes.ofNat 4 counter)).length = 16 := by
  refine Aes.length_encryptBlock hkey ?_
  rw [List.length_append, hiv, Bytes.length_ofNat]

theorem length_stream (hkey : key.length = 32) (hiv : iv.length = 12) (counter : Nat) (b : Bytes) :
    (stream (Aes.roundKeys key) iv counter b).length = b.length := by
  fun_induction stream (Aes.roundKeys key) iv counter b with
  | case1 counter => rfl
  | case2 counter b hne ih =>
    rw [List.length_append, ih, Bytes.length_xor, length_streamBlock hkey hiv, List.length_take,
      List.length_drop]
    omega

/-- A first block of up to sixteen bytes, less than that only if nothing follows, is the first block
of the whole. -/
theorem split_block (block rest : Bytes) (hblock : block.length ≤ 16)
    (hrest : block.length < 16 → rest = []) :
    (block ++ rest).take 16 = block ∧ (block ++ rest).drop 16 = rest := by
  rcases Nat.lt_or_eq_of_le hblock with hlt | heq
  · obtain rfl := hrest hlt
    rw [List.append_nil]
    exact ⟨List.take_of_length_le hblock, List.drop_eq_nil_of_le hblock⟩
  · exact ⟨List.take_left' heq, List.drop_left' heq⟩

/-- The key stream twice gives the text back. -/
theorem stream_stream (hkey : key.length = 32) (hiv : iv.length = 12) (counter : Nat) (b : Bytes) :
    stream (Aes.roundKeys key) iv counter (stream (Aes.roundKeys key) iv counter b) = b := by
  fun_induction stream (Aes.roundKeys key) iv counter b with
  | case1 counter => rw [stream, if_pos rfl]
  | case2 counter b hne ih =>
    -- both passes meet the same block of the key stream
    have hpad := length_streamBlock hkey hiv counter
    generalize hstream : Aes.encryptBlock (Aes.roundKeys key) (iv ++ Bytes.ofNat 4 counter) = pad
      at hpad ⊢
    have hblock : (Bytes.xor (b.take 16) pad).length = min b.length 16 := by
      rw [Bytes.length_xor, hpad, List.length_take]
      omega
    have hpos := List.length_pos_iff.mpr hne
    -- a block that is cut short is the last one, so the second pass splits the text as the first
    obtain ⟨htake, hdrop⟩ := split_block (Bytes.xor (b.take 16) pad)
      (stream (Aes.roundKeys key) iv (counter + 1) (b.drop 16)) (by omega) fun hlt => by
        refine List.eq_nil_of_length_eq_zero ?_
        rw [length_stream hkey hiv, List.length_drop]
        omega
    have hne' : Bytes.xor (b.take 16) pad ++
        stream (Aes.roundKeys key) iv (counter + 1) (b.drop 16) ≠ [] := by
      refine List.append_ne_nil_of_left_ne_nil (List.ne_nil_of_length_pos ?_) _
      omega
    rw [stream, if_neg hne', htake, hdrop, ih, hstream, Bytes.xor_xor, List.take_append_drop]
    rw [hpad, List.length_take]
    exact Nat.min_le_left _ _

/-! ## Tags -/

theorem length_tag (hkey : key.length = 32) (hiv : iv.length = 12) (aad ciphertext : Bytes) :
    (tag (Aes.roundKeys key) iv aad ciphertext).length = 16 := by
  simp only [tag]
  rw [Bytes.length_xor, Bytes.length_ofNat, length_streamBlock hkey hiv]
  rfl

theorem length_encrypt (hkey : key.length = 32) (hiv : iv.length = 12) (aad plain : Bytes) :
    (encrypt key iv aad plain).length = plain.length + 16 := by
  simp only [encrypt]
  rw [List.length_append, length_stream hkey hiv, length_tag hkey hiv]

/-- What was encrypted decrypts to what it was. -/
theorem decrypt?_encrypt (hkey : key.length = 32) (hiv : iv.length = 12) (aad plain : Bytes) :
    decrypt? key iv aad (encrypt key iv aad plain) = some plain := by
  simp only [decrypt?]
  have hlength := length_encrypt hkey hiv aad plain
  have hstream := length_stream hkey hiv 2 plain
  simp only [hlength, Nat.add_sub_cancel]
  have htake : (encrypt key iv aad plain).take plain.length =
      stream (Aes.roundKeys key) iv 2 plain := List.take_left' hstream
  have hdrop : (encrypt key iv aad plain).drop plain.length =
      tag (Aes.roundKeys key) iv aad (stream (Aes.roundKeys key) iv 2 plain) :=
    List.drop_left' hstream
  rw [htake, hdrop, if_neg, stream_stream hkey hiv]
  simp

end Gcm

end SealedTunnel
