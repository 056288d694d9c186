import SealedTunnel.Proofs.Cbor.Locality
import SealedTunnel.Proofs.Text.Utf8

/-!
# What is written is read back

Everything that is written is taken by the reader for it, whatever follows and
however deep it stands, as long as its length fits the eight bytes there are
for it.

* `Head.takes_write` — heads.
* `Reader.takes_bytes`, `Reader.takes_text`, `Reader.takes_natural`, `Reader.takes_boolean` —
  values.
* `Fields.Written` — the entries of a record, field by field; `Fields.takes_record` — records.
* `Reader.takes_skip_record`, … — what is written may also be skipped.
-/

namespace SealedTunnel

namespace Cbor

variable {α : Type}

/-- The longest length that a head can hold is below this one. -/
def sizeLimit : Nat := 2 ^ 64

/-- The length of a byte string can be written. -/
def Fits (b : Bytes) : Prop := b.length < sizeLimit

instance (b : Bytes) : Decidable (Fits b) := inferInstanceAs (Decidable (_ < _))

theorem Fits.of_length_le {b : Bytes} {n : Nat} (h : b.length ≤ n) (hn : n < 2 ^ 64) : Fits b :=
  Nat.lt_of_le_of_lt h hn

theorem Fits.of_writeBytes {b : Bytes} (h : Fits (writeBytes b)) : Fits b := by
  simp only [Fits, writeBytes] at *
  rw [List.length_append] at h
  omega

theorem Fits.of_writeText {s : String} (h : Fits (writeText s)) : Fits (Bytes.ofString s) := by
  simp only [Fits, writeText] at *
  rw [List.length_append] at h
  omega

/-- The entries of a record as they are written. -/
theorem writeRecord_eq (entries : List (String × Bytes)) : writeRecord entries =
    Head.write 5 entries.length ++ (entries.map fun e => writeText e.1 ++ e.2).flatten := by
  simp only [writeRecord]
  rw [List.flatMap_def]

theorem Fits.of_writeRecord {entries : List (String × Bytes)} (h : Fits (writeRecord entries)) :
    ∀ e ∈ entries, Fits e.2 := by
  intro e he
  have hmem : writeText e.1 ++ e.2 ∈ entries.map fun e => writeText e.1 ++ e.2 :=
    List.mem_map_of_mem he
  have hpart := (List.sublist_flatten_of_mem hmem).length_le
  simp only [Fits] at *
  rw [writeRecord_eq, List.length_append] at h
  rw [List.length_append] at hpart
  omega

/-! ## Heads -/

namespace Head

theorem takes_argument_small {n : Nat} (hn : n < 24) : Takes (view (argument n)) [] n := by
  unfold argument
  simp only [if_pos hn]
  exact takes_pure n

theorem takes_argument_sized (size : Nat) {n : Nat} (hsize : size < 4) (hn : n < 256 ^ (2 ^ size)) :
    Takes (view (argument (24 + size))) (Bytes.ofNat (2 ^ size) n) n := by
  have hlarge : ¬ 24 + size < 24 := by omega
  have hsmall : 24 + size < 28 := by omega
  have htake := takes_take? (Bytes.ofNat (2 ^ size) n)
  rw [Bytes.length_ofNat] at htake
  unfold argument
  simp only [if_neg hlarge, if_pos hsmall, Nat.add_sub_cancel_left]
  refine takes_bind_pure htake fun _ rest => ?_
  show some (Bytes.toNat (Bytes.ofNat (2 ^ size) n), rest.val) = _
  rw [Bytes.toNat_ofNat _ _ hn]

theorem takes_sized {major low n : Nat} {p : Bytes} (hmajor : major < 7) (hlow : low < 31)
    (h : Takes (view (argument low)) p n) :
    Takes (view read) (UInt8.ofNat (major * 32 + low) :: p) (sized major n) := by
  have hfirst : (UInt8.ofNat (major * 32 + low)).toNat = major * 32 + low :=
    UInt8.toNat_ofNat_of_lt (show _ < 256 by omega)
  have hdiv : (major * 32 + low) / 32 = major := by omega
  have hmod : (major * 32 + low) % 32 = low := by omega
  refine takes_cons ?_
  simp only [view, read]
  simp only [hfirst, hdiv, hmod, if_neg (Nat.ne_of_lt hmajor), if_neg (Nat.ne_of_lt hlow)]
  exact takes_bind_pure h fun _ _ => rfl

/-- A head is written in the shortest of five forms, and read back from any. -/
theorem takes_write {major n : Nat} (hmajor : major < 7) (hn : n < sizeLimit) :
    Takes (view read) (write major n) (sized major n) := by
  simp only [sizeLimit] at hn
  simp only [write]
  split
  · rename_i h
    exact takes_sized hmajor (by omega) (takes_argument_small h)
  split
  · rename_i h
    exact takes_sized hmajor (by omega) (takes_argument_sized 0 (by omega) h)
  split
  · rename_i h
    exact takes_sized hmajor (by omega) (takes_argument_sized 1 (by omega) h)
  split
  · rename_i h
    exact takes_sized hmajor (by omega) (takes_argument_sized 2 (by omega) h)
  · exact takes_sized hmajor (by omega) (takes_argument_sized 3 (by omega) hn)

/-- The first byte of a head shows its major type. -/
theorem write_eq_cons (major n : Nat) :
    ∃ low p, low < 32 ∧ write major n = UInt8.ofNat (major * 32 + low) :: p := by
  simp only [write]
  split
  · rename_i h
    exact ⟨n, [], by omega, rfl⟩
  split
  · exact ⟨24, _, by decide, rfl⟩
  split
  · exact ⟨25, _, by decide, rfl⟩
  split
  · exact ⟨26, _, by decide, rfl⟩
  · exact ⟨27, _, by decide, rfl⟩

/-- Only major type 6 is that of a tag. -/
theorem sized_ne_tag {major : Nat} (hmajor : major < 6) (n m : Nat) : sized major n ≠ .tag m := by
  match major with
  | 0 | 1 | 2 | 3 | 4 | 5 => exact nofun

end Head

namespace Reader

variable {depth : Nat} {p q : Bytes}

theorem takes_head {head : Head} (h : Takes (view Head.read) p head) (hne : ∀ n, head ≠ .tag n)
    (depth : Nat) : Takes (view (Reader.head depth)) p (head, depth) := by
  cases depth <;> cases head
  case zero.tag n | succ.tag n => exact absurd rfl (hne n)
  all_goals exact takes_bind_pure h fun _ _ => rfl

/-- What follows a head is taken after it. -/
theorem takes_behind {β : Type} {r : (input : Bytes) → Except Fault (α × Rest input)} {a : α}
    (hr : Takes (view r) p a)
    {body : (input : Bytes) → Except Fault (β × Remaining input)} {b : β}
    (hbody : Takes (view body) q b)
    {k : (input : Bytes) → α × Rest input → Except Fault (β × Rest input)}
    (hk : ∀ input rest, k input (a, rest) = behind rest body) :
    Takes (view fun input => r input >>= k input) (p ++ q) b :=
  takes_bind hr (fun input rest => by rw [hk, outcome_behind]) hbody

/-- A head with an argument is taken. -/
theorem takes_head_write {major n : Nat} (hmajor : major < 6) (hn : n < sizeLimit) (depth : Nat) :
    Takes (view (Reader.head depth)) (Head.write major n) (Head.sized major n, depth) :=
  takes_head (Head.takes_write (by omega) hn) (Head.sized_ne_tag hmajor n) depth

/-! ## Values of one kind -/

theorem takes_natural {bound n : Nat} (hn : n < bound) (hsize : n < sizeLimit) (depth : Nat) :
    Takes (view (natural bound depth)) (writeNatural n) n := by
  refine takes_bind_pure (takes_head_write (by decide) hsize depth) fun _ rest => ?_
  show outcome (if n < bound then pure (n, rest) else .error .malformed) = _
  rw [if_pos hn]
  rfl

theorem takes_uint64 (n : UInt64) (depth : Nat) :
    Takes (view (uint64 depth)) (writeNatural n.toNat) n := by
  refine takes_bind_pure (takes_natural n.toNat_lt n.toNat_lt depth) fun _ rest => ?_
  show some (UInt64.ofNat n.toNat, rest.val) = _
  rw [UInt64.ofNat_toNat]

theorem takes_boolean (value : Bool) (depth : Nat) :
    Takes (view (boolean depth)) (writeBoolean value) value := by
  have hread : Takes (view Head.read) (writeBoolean value) (.flag value) := by
    cases value <;> exact fun _ => rfl
  exact takes_bind_pure (takes_head hread nofun depth) fun _ _ => rfl

theorem takes_bytes {b : Bytes} (hb : Fits (writeBytes b)) (depth : Nat) :
    Takes (view (bytes depth)) (writeBytes b) b :=
  takes_behind (takes_head_write (by decide) hb.of_writeBytes depth) (Head.takes_take? b)
    fun _ _ => rfl

/-- A string that has to be a text is one. -/
theorem takes_bind_utf8 (s : String) (use : Bytes → String → α) :
    Takes (view fun input => do
      let (b, rest) ← Head.take? (Bytes.ofString s).length input
      let s ← utf8 b
      return (use b s, rest)) (Bytes.ofString s) (use (Bytes.ofString s) s) := by
  refine takes_bind_pure (Head.takes_take? _) fun input rest => ?_
  dsimp only
  rw [utf8, Bytes.toString?_ofString]
  rfl

theorem takes_text {s : String} (hs : Fits (writeText s)) (depth : Nat) :
    Takes (view (text depth)) (writeText s) s :=
  takes_behind (takes_head_write (by decide) hs.of_writeText depth)
    (takes_bind_utf8 s fun _ s => s) fun _ _ => rfl

/-- A value that does not start with the byte of null is seen to be there. -/
theorem takes_optional {r : Reader α} {x : UInt8} {a : α} (hx : x ≠ 0xf6)
    (h : Takes (view (r depth)) (x :: p) a) :
    Takes (view (optional r depth)) (x :: p) (some a) := by
  have hmap : Takes (view (r.map some depth)) (x :: p) (some a) :=
    takes_bind_pure h fun _ _ => rfl
  intro tail
  show outcome (if _ then _ else _) = _
  rw [if_neg hx]
  exact hmap tail

theorem takes_optional_text {s : String} (hs : Fits (writeText s)) (depth : Nat) :
    Takes (view (optional text depth)) (writeText s) (some s) := by
  have htext := takes_text hs depth
  obtain ⟨low, p, hlow, hwrite⟩ := Head.write_eq_cons 3 (Bytes.ofString s).length
  have hne : UInt8.ofNat (3 * 32 + low) ≠ 0xf6 := by
    intro heq
    have hfirst : (UInt8.ofNat (3 * 32 + low)).toNat = 3 * 32 + low :=
      UInt8.toNat_ofNat_of_lt (show _ < 256 by omega)
    rw [heq] at hfirst
    have hnull : (0xf6 : UInt8).toNat = 246 := rfl
    omega
  unfold writeText at htext ⊢
  dsimp only at htext ⊢
  rw [hwrite] at htext ⊢
  exact takes_optional hne htext

end Reader

/-! ## Repetition -/

namespace Count

variable {σ : Type} {step : σ → (input : Bytes) → Except Fault (σ × Rest input)}

theorem takes_fold_zero (s : σ) : Takes (view ((exactly 0).fold step s)) [] s := by
  intro tail
  have hfinished : (exactly 0).finished? tail = .ok (some ⟨tail, Nat.le_refl _⟩) := rfl
  exact view_fold_finished hfinished

theorem takes_fold_succ {n : Nat} {s s' : σ} {p q : Bytes} {a : σ}
    (hstep : Takes (view (step s)) p s') (h : Takes (view ((exactly n).fold step s')) q a) :
    Takes (view ((exactly (n + 1)).fold step s)) (p ++ q) a := by
  intro tail
  rw [List.append_assoc, view_fold_next rfl (hstep (q ++ tail))]
  exact h tail

/-- Items that leave the state alone are all taken. -/
theorem takes_fold_same {s : σ} {items : List Bytes} (h : ∀ p ∈ items, Takes (view (step s)) p s) :
    Takes (view ((exactly items.length).fold step s)) items.flatten s := by
  induction items with
  | nil => exact takes_fold_zero s
  | cons p items ih =>
    obtain ⟨hp, hitems⟩ := List.forall_mem_cons.mp h
    exact takes_fold_succ hp (ih hitems)

end Count

/-! ## Skipping -/

namespace Reader

variable {inner : Option ((input : Bytes) → Except Fault (Unit × Rest input))} {depth : Nat}

theorem takes_skip_natural {n : Nat} (hn : n < sizeLimit) (depth : Nat) :
    Takes (view (skip depth)) (writeNatural n) () := by
  have hread : Takes (view Head.read) (writeNatural n) (.unsigned n) :=
    Head.takes_write (by decide) hn
  cases depth <;> exact takes_bind_pure hread fun _ _ => rfl

theorem takes_skip_bytes {b : Bytes} (hb : Fits (writeBytes b)) (depth : Nat) :
    Takes (view (skip depth)) (writeBytes b) () := by
  have hread : Takes (view Head.read) (Head.write 2 b.length) (.bytes b.length) :=
    Head.takes_write (by decide) hb.of_writeBytes
  have hbody : Takes (view fun input => do
      let (_, rest) ← Head.take? b.length input
      return ((), rest)) b () := takes_bind_pure (Head.takes_take? b) fun _ _ => rfl
  cases depth <;> exact takes_behind hread hbody fun _ _ => rfl

theorem takes_skip_text {s : String} (hs : Fits (Bytes.ofString s)) (depth : Nat) :
    Takes (view (skip depth)) (writeText s) () := by
  have hread : Takes (view Head.read) (Head.write 3 (Bytes.ofString s).length)
    (.text (Bytes.ofString s).length) := Head.takes_write (by decide) hs
  have hbody := takes_bind_utf8 s fun _ _ => ()
  cases depth <;> exact takes_behind hread hbody fun _ _ => rfl

theorem takes_skip_record {entries : List (String × Bytes)} (hcount : entries.length < sizeLimit)
    (hnames : ∀ e ∈ entries, Fits (Bytes.ofString e.1))
    (h : ∀ e ∈ entries, Takes (view (skip depth)) e.2 ()) :
    Takes (view (skip (depth + 1))) (writeRecord entries) () := by
  have hread : Takes (view Head.read) (Head.write 5 entries.length) (.map entries.length) :=
    Head.takes_write (by decide) hcount
  have hlength : entries.length = (entries.map fun e => writeText e.1 ++ e.2).length :=
    (List.length_map _).symm
  rw [writeRecord_eq]
  refine takes_behind hread ?_ fun _ _ => rfl
  rw [hlength]
  refine Count.takes_fold_same fun p hp => ?_
  obtain ⟨e, he, rfl⟩ := List.mem_map.mp hp
  exact takes_bind (takes_skip_text (hnames e he) depth)
    (fun _ _ => outcome_bind fun _ _ => rfl) (h e he)

end Reader

/-! ## Records -/

namespace Fields

variable {αs βs : List Type} {depth : Nat}

/-- The names of the fields. -/
def names : {αs : List Type} → Fields αs → List String
  | _, nil => []
  | _, cons name _ _ _ rest => name :: rest.names

/-- The names are different, and none is too long to be written. -/
def WellNamed (fields : Fields αs) : Prop := fields.names.Nodup ∧ fields.names.length < sizeLimit ∧
  ∀ name ∈ fields.names, Fits (Bytes.ofString name)

instance (fields : Fields αs) : Decidable fields.WellNamed :=
  inferInstanceAs (Decidable (_ ∧ _ ∧ _))

/-- Every value found. -/
def full : {αs : List Type} → Values αs → Slots αs
  | [], () => ()
  | _ :: _, (a, values) => (some a, full values)

/-- These entries are the fields in order, each with its value as it is taken. -/
def Written (depth : Nat) : {αs : List Type} → Fields αs → List (String × Bytes) → Values αs → Prop
  | _, nil, [], () => True
  | _, cons name _ _ read rest, (name', p) :: entries, (a, values) =>
    name' = name ∧ Takes (view (read depth)) p a ∧ rest.Written depth entries values
  | _, _, _, _ => False

theorem Written.length_eq {fields : Fields αs} {entries : List (String × Bytes)}
    {values : Values αs} (h : fields.Written depth entries values) :
    entries.length = fields.names.length := by
  induction fields generalizing entries with
  | nil =>
    match entries, values with
    | [], () => rfl
  | cons name absent beyond read rest ih =>
    match entries, values with
    | _ :: _, (_, _) => exact congrArg (· + 1) (ih h.2.2)

theorem close_full (fields : Fields αs) (values : Values αs) :
    fields.close (full values) = .ok values := by
  induction fields with
  | nil => rfl
  | cons name absent beyond read rest ih =>
    obtain ⟨a, values⟩ := values
    exact bind_eq_ok.mpr ⟨values, ih values, rfl⟩

theorem takes_key (fields : Fields αs) {name : String}
    (hname : Fits (Bytes.ofString name)) (depth : Nat) :
    Takes (view (fields.key depth)) (writeText name) (fields.indexOf (Bytes.ofString name)) :=
  Reader.takes_behind (Reader.takes_head_write (by decide) hname depth)
    (Reader.takes_bind_utf8 name fun b _ => fields.indexOf b) fun _ _ => rfl

/-- One entry of a map. -/
theorem takes_entry {fields : Fields αs} {name : String} {p : Bytes} {slots slots' : Slots αs}
    (hname : Fits (Bytes.ofString name))
    (hput : Takes (view (fields.put (fields.indexOf (Bytes.ofString name)) slots depth)) p slots') :
    Takes (view ((fields.key.andThen (fields.put · slots)) depth)) (writeText name ++ p)
      slots' := by
  exact takes_bind (takes_key fields hname depth) (fun _ _ => outcome_bind fun _ _ => rfl) hput

/-- The entries of the last fields of a record, when the slots of the first ones are filled. The
fields are in place in the whole record `whole`, `offset` fields after its first one, and `embed`
puts their slots beside those of the first ones. -/
theorem takes_entries {whole : Fields βs} {fields : Fields αs} {entries : List (String × Bytes)}
    {values : Values αs} (hwritten : fields.Written depth entries values)
    (hnodup : fields.names.Nodup)
    (hnames : ∀ name ∈ fields.names, Fits (Bytes.ofString name))
    (offset : Nat) (embed : Slots αs → Slots βs)
    (hindex : ∀ name ∈ fields.names, whole.indexOf (Bytes.ofString name) =
      offset + fields.indexOf (Bytes.ofString name))
    (hput : ∀ i slots p slots', Takes (view (fields.put i slots depth)) p slots' →
      Takes (view (whole.put (offset + i) (embed slots) depth)) p (embed slots')) :
    Takes (view ((Count.exactly entries.length).fold
        (fun slots => (whole.key.andThen (whole.put · slots)) depth) (embed fields.empty)))
      (entries.map fun e => writeText e.1 ++ e.2).flatten (embed (full values)) := by
  -- on the fields that are left; the slots filled so far move into `embed`
  induction fields generalizing entries offset with
  | nil =>
    match entries, values with
    | [], () => exact Count.takes_fold_zero _
  | cons name absent beyond read rest ih =>
    match entries, values with
    | (name', p) :: entries, (a, values) =>
      obtain ⟨rfl, hp, hrest⟩ := hwritten
      obtain ⟨hfresh, hnodup⟩ := List.nodup_cons.mp hnodup
      obtain ⟨hname, hnames⟩ := List.forall_mem_cons.mp hnames
      obtain ⟨hhere, hthere⟩ := List.forall_mem_cons.mp hindex
      refine Count.takes_fold_succ (takes_entry hname ?_)
        (ih hrest hnodup hnames (offset + 1) (fun slots => embed (some a, slots)) ?_ ?_)
      · -- the entry fills the first slot that is left
        rw [hhere, indexOf, if_pos rfl]
        refine hput 0 _ p _ ?_
        exact takes_bind_pure hp fun _ _ => rfl
      · -- the other names are found one place further on
        intro other hother
        have hne : Bytes.ofString name' ≠ Bytes.ofString other := by
          intro heq
          obtain rfl := Bytes.ofString_injective heq
          exact hfresh hother
        rw [hthere other hother, indexOf, if_neg hne]
        omega
      · -- and their slots stand behind the one that is filled
        intro i slots q slots' hq
        have hstep := hput (i + 1) (some a, slots) q (some a, slots') ?_
        · rwa [Nat.add_assoc, Nat.add_comm 1 i]
        · exact takes_bind_pure hq fun _ _ => rfl

/-- A record is read once the entries of its map are. -/
theorem takes_map {fields : Fields αs} {entries : List (String × Bytes)} {values : Values αs}
    (hcount : entries.length < sizeLimit)
    (h : Takes (view ((Count.exactly entries.length).fold
        (fun slots => (fields.key.andThen (fields.put · slots)) depth) fields.empty))
      (entries.map fun e => writeText e.1 ++ e.2).flatten (full values)) :
    Takes (view (fields.read (depth + 1))) (writeRecord entries) values := by
  rw [writeRecord_eq]
  refine Reader.takes_behind (Reader.takes_head_write (by decide) hcount _) ?_ fun _ _ => rfl
  refine takes_bind_pure h fun input rest => ?_
  show outcome (fields.close (full values) >>= fun values => pure (values, rest)) = _
  rw [close_full]
  rfl

/-- A record that was written is read. -/
theorem takes_record {fields : Fields αs} {make : Values αs → α} {entries : List (String × Bytes)}
    (values : Values αs) {a : α} (ha : make values = a) (hnames : fields.WellNamed)
    (hwritten : fields.Written depth entries values) :
    Takes (view (fields.read.map make (depth + 1))) (writeRecord entries) a := by
  obtain ⟨hnodup, hcount, hnames⟩ := hnames
  rw [← hwritten.length_eq] at hcount
  have hentries := takes_entries hwritten hnodup hnames 0 (fun slots => slots)
    (fun name _ => (Nat.zero_add _).symm) fun i slots p slots' h => by rwa [Nat.zero_add]
  exact takes_bind_pure (takes_map hcount hentries) fun _ rest => by rw [← ha]; rfl

/-- One field is read from a record that has more. -/
theorem takes_read_one {name : String} {absent beyond : Option α} {read : Reader α} {p : Bytes}
    {a : α} {others : List (String × Bytes)} (hp : Takes (view (read depth)) p a)
    (hname : Fits (Bytes.ofString name)) (hcount : others.length + 1 < sizeLimit)
    (hothers : ∀ e ∈ others, e.1 ≠ name ∧ Fits (Bytes.ofString e.1) ∧
      Takes (view (Reader.skip depth)) e.2 ()) :
    Takes (view ((cons name absent beyond read nil).read (depth + 1)))
      (writeRecord ((name, p) :: others)) (a, ()) := by
  refine takes_map hcount ?_
  have hrest := @Count.takes_fold_same _
    (fun slots => ((cons name absent beyond read nil).key.andThen
      ((cons name absent beyond read nil).put · slots)) depth) (some a, ())
    (others.map fun e => writeText e.1 ++ e.2) fun q hq => by
    obtain ⟨e, he, rfl⟩ := List.mem_map.mp hq
    obtain ⟨hne, hsize, hskip⟩ := hothers e he
    have hne' : Bytes.ofString name ≠ Bytes.ofString e.1 := fun heq =>
      hne (Bytes.ofString_injective heq).symm
    refine takes_entry hsize ?_
    rw [indexOf, if_neg hne']
    exact takes_bind_pure hskip fun _ _ => rfl
  rw [List.length_map] at hrest
  -- the field comes first and fills its slot, which no other entry touches
  refine Count.takes_fold_succ (takes_entry hname ?_) hrest
  rw [indexOf, if_pos rfl]
  exact takes_bind_pure hp fun _ _ => rfl

end Fields

/-! ## Sizes of what is written -/

theorem Head.length_write_le (major n : Nat) : (Head.write major n).length ≤ 9 := by
  simp only [Head.write]
  repeat' split
  all_goals simp

theorem length_writeBytes_le (b : Bytes) : (writeBytes b).length ≤ 9 + b.length := by
  rw [writeBytes, List.length_append]
  exact Nat.add_le_add_right (Head.length_write_le _ _) _

theorem length_writeText_le (s : String) :
    (writeText s).length ≤ 9 + (Bytes.ofString s).length := by
  rw [writeText, List.length_append]
  exact Nat.add_le_add_right (Head.length_write_le _ _) _

/-- A record is not much longer than its values are. -/
theorem length_writeRecord_le {entries : List (String × Bytes)}
    (hnames : ∀ e ∈ entries, (Bytes.ofString e.1).length ≤ 32) : (writeRecord entries).length ≤
      9 + (entries.map fun e => 41 + e.2.length).sum := by
  rw [writeRecord_eq, List.length_append]
  refine Nat.add_le_add (Head.length_write_le _ _) ?_
  induction entries with
  | nil => exact Nat.le_refl _
  | cons e entries ih =>
    obtain ⟨hname, hnames⟩ := List.forall_mem_cons.mp hnames
    have htext := length_writeText_le e.1
    have hrest := ih hnames
    simp only [List.map_cons, List.flatten_cons, List.length_append, List.sum_cons]
    omega

theorem Head.length_write_pos (major n : Nat) : 0 < (Head.write major n).length := by
  obtain ⟨_, _, -, heq⟩ := Head.write_eq_cons major n
  rw [heq]
  exact Nat.succ_pos _

/-- A record is longer than its names and values are together. -/
theorem lt_length_writeRecord (entries : List (String × Bytes)) :
    (entries.map fun e => 1 + (Bytes.ofString e.1).length + e.2.length).sum <
      (writeRecord entries).length := by
  have hsum : (entries.map fun e => 1 + (Bytes.ofString e.1).length + e.2.length).sum ≤
      (entries.map fun e => writeText e.1 ++ e.2).flatten.length := by
    induction entries with
    | nil => exact Nat.le_refl _
    | cons e entries ih =>
      have hname : 1 + (Bytes.ofString e.1).length ≤ (writeText e.1).length := by
        rw [writeText, List.length_append]
        exact Nat.add_le_add_right (Head.length_write_pos _ _) _
      simp only [List.map_cons, List.flatten_cons, List.length_append, List.sum_cons]
      omega
  have hhead := Head.length_write_pos 5 entries.length
  rw [writeRecord_eq, List.length_append]
  omega

end Cbor

end SealedTunnel
