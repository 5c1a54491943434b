import CertBroker.Der

namespace CertBroker.Der

/-- A length that can be written. -/
def Sized (bs : Bytes) : Prop := bs.length < 18446744073709551616

instance (bs : Bytes) : Decidable (Sized bs) := inferInstanceAs (Decidable (_ < _))

/-- A length in the fewest bytes. -/
def lengthBytes (n : Nat) : Bytes :=
  if n < 128 then [UInt8.ofNat n]
  else UInt8.ofNat (128 + (n.log2 / 8 + 1)) :: Bytes.toBigEndian (n.log2 / 8 + 1) n

theorem lt_pow_log2 (n : Nat) : n < Nat.pow 256 (n.log2 / 8 + 1) := by
  have hlog : n < 2 ^ (n.log2 + 1) := Nat.lt_log2_self
  have hpow : 2 ^ (n.log2 + 1) ≤ 2 ^ (8 * (n.log2 / 8 + 1)) :=
    Nat.pow_le_pow_right (by decide) (by omega)
  have hbytes : 2 ^ (8 * (n.log2 / 8 + 1)) = Nat.pow 256 (n.log2 / 8 + 1) := Nat.pow_mul 2 8 _
  omega

theorem length?_lengthBytes {n : Nat} (h : n < 18446744073709551616) (rest : Bytes) :
    length? (lengthBytes n ++ rest) = some (n, rest) := by
  unfold lengthBytes
  split
  next hsmall =>
    have hn : (UInt8.ofNat n).toNat = n := by
      simp only [UInt8.toNat_ofNat']
      omega
    simp [length?, hn, hsmall]
  next hlarge =>
    -- At most eight bytes are counted, so the count is none of those that are refused.
    have hlog : n.log2 < 64 := (Nat.log2_lt (by omega)).mpr h
    have hcount : (UInt8.ofNat (128 + (n.log2 / 8 + 1))).toNat = 128 + (n.log2 / 8 + 1) := by
      simp only [UInt8.toNat_ofNat']
      omega
    have htake : (Bytes.toBigEndian (n.log2 / 8 + 1) n ++ rest).take (n.log2 / 8 + 1) =
        Bytes.toBigEndian (n.log2 / 8 + 1) n := List.take_left' (Bytes.toBigEndian_length ..)
    have hdrop : (Bytes.toBigEndian (n.log2 / 8 + 1) n ++ rest).drop (n.log2 / 8 + 1) = rest :=
      List.drop_left' (Bytes.toBigEndian_length ..)
    have hvalue := Bytes.ofBigEndian_toBigEndian (lt_pow_log2 n)
    rw [List.cons_append, length?, hcount, if_neg (by omega), Nat.add_sub_cancel_left]
    simp only [htake, hdrop, hvalue]
    rw [if_neg]
    simp only [List.length_append, Bytes.toBigEndian_length, Bool.or_eq_true, decide_eq_true_eq]
    omega

/-- An element with this first byte. -/
def bytesOf (first : UInt8) (contents : Bytes) : Bytes :=
  first :: lengthBytes contents.length ++ contents

/-- The element that is read of these contents behind this first byte. -/
def elementOf (first : UInt8) (contents : Bytes) : Element where
  tagClass := first.toNat / 64
  constructed := first.toNat / 32 % 2 = 1
  tag := first.toNat % 32
  contents := contents

/-- A reader takes a value from the front of every text that begins with these bytes. -/
def Reads {α : Type} (r : Reader α) (bs : Bytes) (a : α) : Prop :=
  ∀ rest, (r.run (bs ++ rest) : Option (α × Bytes)) = some (a, rest)

section Reads

variable {α β : Type} {r : Reader α} {next : α → Reader β} {bs bs' : Bytes} {a : α} {b : β}

theorem run_bind (h : (r.run bs : Option (α × Bytes)) = some (a, bs')) :
    ((r >>= next).run bs : Option (β × Bytes)) = (next a).run bs' := by
  rw [StateT.run_bind, h]
  rfl

theorem Reads.all (h : Reads r bs a) : (r.run bs : Option (α × Bytes)) = some (a, []) := by
  have hrest := h []
  rwa [List.append_nil] at hrest

theorem Reads.bind (h : Reads r bs a) (h' : Reads (next a) bs' b) :
    Reads (r >>= next) (bs ++ bs') b := by
  intro rest
  rw [List.append_assoc, run_bind (h _), h']

theorem Reads.last (h : Reads r bs a) (h' : next a = pure b) : Reads (r >>= next) bs b := by
  intro rest
  rw [run_bind (h rest), h']
  rfl

end Reads

section Elements

variable {first : UInt8} {bs : Bytes}

theorem reads_header (first : UInt8) (hfirst : first.toNat % 32 ≠ 31) (h : Sized bs) :
    Reads header (first :: lengthBytes bs.length)
      ⟨first.toNat / 64, first.toNat / 32 % 2 = 1, first.toNat % 32, bs.length⟩ := by
  intro rest
  change header? (first :: lengthBytes bs.length ++ rest) = _
  rw [List.cons_append, header?, tag?, if_neg hfirst]
  simp only [length?_lengthBytes h]

theorem reads_take (bs : Bytes) : Reads (take bs.length) bs bs := by
  intro rest
  change take bs.length (bs ++ rest) = _
  simp [take]

theorem reads_element (hfirst : first.toNat % 32 ≠ 31) (h : Sized bs) :
    Reads element (bytesOf first bs) (elementOf first bs) :=
  (reads_header first hfirst h).bind ((reads_take bs).last rfl)

theorem reads_contents {tag : Nat} (hfirst : first.toNat % 32 ≠ 31)
    (htag : first.toNat % 32 = tag) (h : Sized bs) : Reads (contents tag) (bytesOf first bs) bs :=
  (reads_element hfirst h).last (if_pos htag)

theorem reads_oid (h : Sized bs) : Reads oid (bytesOf 0x06 bs) bs :=
  (reads_element (by decide) h).last rfl

/-- A bit string without unused bits. -/
theorem reads_bitString (h : Sized (0 :: bs)) : Reads bitString (bytesOf 0x03 (0 :: bs)) bs := by
  have hbits : bits? (0 :: bs) = some bs := by
    unfold bits?
    cases hlast : bs.getLast? with
    | none => simp [List.getLast?_eq_none_iff.mp hlast]
    | some last => simp [hlast]
  refine (reads_element (by decide) h).last ?_
  change (liftM (bits? (0 :: bs)) : Reader Bytes) = _
  rw [hbits]
  rfl

theorem length_lt_bytesOf (first : UInt8) (bs : Bytes) : bs.length < (bytesOf first bs).length := by
  rw [bytesOf, List.length_append, List.length_cons]
  omega

theorem Sized.contents (h : Sized (bytesOf first bs)) : Sized bs :=
  Nat.lt_trans (length_lt_bytesOf first bs) h

end Elements

section Within

variable {α β : Type} {r : Reader α} {inner : Bytes} {a : α} {l : List β} {write : β → Bytes}
  {value : β → α}

theorem reads_within (first : UInt8) (tag : Nat) (hfirst : first.toNat % 32 ≠ 31)
    (htag : first.toNat % 32 = tag) (hs : Sized inner)
    (h : (r.run inner : Option (α × Bytes)) = some (a, [])) :
    Reads (within tag r) (bytesOf first inner) (a, bytesOf first inner) := by
  intro rest
  have hcontents := reads_contents hfirst htag hs rest
  have htaken : (bytesOf first inner ++ rest).take
      ((bytesOf first inner ++ rest).length - rest.length - ([] : Bytes).length) =
      bytesOf first inner := by
    simp
  change ((contents tag).run _ >>= fun p => r.run p.1 >>= fun q =>
    some ((q.1, (bytesOf first inner ++ rest).take
      ((bytesOf first inner ++ rest).length - p.2.length - q.2.length)), p.2)) = _
  rw [hcontents, Option.bind_eq_bind, Option.bind_some, h, Option.bind_eq_bind, Option.bind_some,
    htaken]

theorem reads_inSequence (hs : Sized inner)
    (h : (r.run inner : Option (α × Bytes)) = some (a, [])) :
    Reads (inSequence r) (bytesOf 0x30 inner) a :=
  (reads_within 0x30 sequenceTag (by decide) rfl hs h).last rfl

theorem reads_inSet (hs : Sized inner)
    (h : (r.run inner : Option (α × Bytes)) = some (a, [])) :
    Reads (inSet r) (bytesOf 0x31 inner) a :=
  (reads_within 0x31 setTag (by decide) rfl hs h).last rfl

theorem run_whole (h : (r.run inner : Option (α × Bytes)) = some (a, [])) :
    ((whole r).run inner : Option (α × Bytes)) = some (a, []) :=
  (run_bind h).trans rfl

theorem manyFrom_nil (r : Reader α) : manyFrom r [] = ([], []) := by
  rw [manyFrom]
  split
  next => exact dif_neg (Nat.not_lt_zero _)
  next => rfl

/-- Things that are written one after the other are all read. -/
theorem run_many (h : ∀ b ∈ l, Reads r (write b) (value b)) (hne : ∀ b ∈ l, write b ≠ []) :
    ((many r).run (l.flatMap write) : Option (List α × Bytes)) = some (l.map value, []) := by
  have hall : manyFrom r (l.flatMap write) = (l.map value, []) := by
    induction l with
    | nil => exact manyFrom_nil r
    | cons b l ih =>
      obtain ⟨hb, hl⟩ := List.forall_mem_cons.mp h
      obtain ⟨hbne, hlne⟩ := List.forall_mem_cons.mp hne
      -- Reading goes on only after something was used up.
      have hpos := List.length_pos_iff.mpr hbne
      rw [List.flatMap_cons, manyFrom, hb]
      simp only [List.length_append]
      rw [dif_pos (by omega), ih hl hlne]
      rfl
  exact congrArg some hall

theorem run_many_one {bs : Bytes} (h : Reads r bs a) (hne : bs ≠ []) :
    ((many r).run bs : Option (List α × Bytes)) = some ([a], []) := by
  have hpos := List.length_pos_iff.mpr hne
  have hone : manyFrom r bs = ([a], []) := by
    rw [manyFrom, h.all]
    simp only [List.length_nil, dif_pos hpos, manyFrom_nil]
  exact congrArg some hone

theorem run_many1 (hl : l ≠ []) (h : ∀ b ∈ l, Reads r (write b) (value b))
    (hne : ∀ b ∈ l, write b ≠ []) :
    ((many1 r).run (l.flatMap write) : Option (List α × Bytes)) = some (l.map value, []) := by
  have hempty : (l.map value).isEmpty = false := by
    cases l with
    | nil => exact absurd rfl hl
    | cons b l => rfl
  refine (run_bind (run_many h hne)).trans ?_
  rw [hempty]
  rfl

theorem Sized.of_mem_flatMap {b : β} (h : Sized (l.flatMap write)) (hb : b ∈ l) :
    Sized (write b) := by
  obtain ⟨first, last, rfl⟩ := List.append_of_mem hb
  unfold Sized at h ⊢
  rw [List.flatMap_append, List.flatMap_cons, List.length_append, List.length_append] at h
  omega

end Within

theorem Sized.left {bs bs' : Bytes} (h : Sized (bs ++ bs')) : Sized bs := by
  unfold Sized at h ⊢
  rw [List.length_append] at h
  omega

theorem Sized.right {bs bs' : Bytes} (h : Sized (bs ++ bs')) : Sized bs' := by
  unfold Sized at h ⊢
  rw [List.length_append] at h
  omega

theorem bytesOf_ne_nil (first : UInt8) (bs : Bytes) : bytesOf first bs ≠ [] :=
  List.cons_ne_nil _ _

end CertBroker.Der
