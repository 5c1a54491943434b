import CertBroker.Net.PercentCode
import CertBroker.Proofs.Text.Utf8

namespace CertBroker.PercentCode

/-- The bytes of characters. -/
def bytesOf (cs : List Char) : Bytes := cs.flatMap String.utf8EncodeChar

variable {b : UInt8} {bs rest : Bytes} {c : Char} {cs : List Char} {isCoded : Char → Bool}

@[simp] theorem bytesOf_nil : bytesOf [] = [] := rfl

@[simp] theorem bytesOf_cons (c : Char) (cs : List Char) :
    bytesOf (c :: cs) = String.utf8EncodeChar c ++ bytesOf cs := rfl

@[simp] theorem bytesOf_append (cs ds : List Char) :
    bytesOf (cs ++ ds) = bytesOf cs ++ bytesOf ds :=
  List.flatMap_append

theorem bytesOf_toList (s : String) : bytesOf s.toList = Utf8.encode s := rfl

theorem bytesOf_injective {ds : List Char} (h : bytesOf cs = bytesOf ds) : cs = ds := by
  have hdecoded : Utf8.decode (Utf8.encode (String.ofList cs)) =
      Utf8.decode (Utf8.encode (String.ofList ds)) := by
    rw [← bytesOf_toList, ← bytesOf_toList, String.toList_ofList, String.toList_ofList, h]
  rw [Utf8.decode_encode, Utf8.decode_encode] at hdecoded
  exact String.ofList_injective (Except.ok.inj hdecoded)

theorem utf8EncodeChar_length_pos (c : Char) : 0 < (String.utf8EncodeChar c).length := by
  obtain ⟨a, tail, htail, -⟩ := Utf8.front_utf8EncodeChar c
  simp [htail]

theorem length_bytesOf_le {ds : List Char} (h : cs.Sublist ds) :
    (bytesOf cs).length ≤ (bytesOf ds).length := by
  induction h with
  | slnil => exact Nat.le_refl _
  | cons c h ih =>
    rw [bytesOf_cons, List.length_append]
    omega
  | cons_cons c h ih =>
    rw [bytesOf_cons, bytesOf_cons, List.length_append, List.length_append]
    omega

/-- Characters that are left out are missing in the bytes. -/
theorem eq_of_sublist {ds : List Char} (h : cs.Sublist ds)
    (hle : (bytesOf ds).length ≤ (bytesOf cs).length) : cs = ds := by
  induction h with
  | slnil => rfl
  | cons c h ih =>
    have hpos := utf8EncodeChar_length_pos c
    have hshort := length_bytesOf_le h
    rw [bytesOf_cons, List.length_append] at hle
    omega
  | cons_cons c h ih =>
    rw [bytesOf_cons, bytesOf_cons, List.length_append, List.length_append] at hle
    rw [ih (by omega)]

theorem bytesOf_asciiChars (h : ∀ b ∈ bs, b.toNat < 0x80) : bytesOf (asciiChars bs) = bs := by
  induction bs with
  | nil => rfl
  | cons b bs ih =>
    have hb := h b List.mem_cons_self
    have hbs := ih fun b hb => h b (List.mem_cons_of_mem _ hb)
    simp only [asciiChars, List.map_cons] at hbs ⊢
    rw [bytesOf_cons, hbs, Utf8.encode_one hb]
    rfl

theorem decode_cons_of_ne (h : b ≠ 37) (rest : Bytes) : decode (b :: rest) = b :: decode rest := by
  cases rest with
  | nil => rfl
  | cons x rest =>
    cases rest with
    | nil => rfl
    | cons y rest =>
      have hbyte : byte? b x y = none := by simp [byte?, h]
      simp [decode, hbyte]

/-- Bytes that are no percent sign stand for themselves. -/
theorem decode_append_of_ne (h : ∀ b ∈ bs, b ≠ 37) (rest : Bytes) :
    decode (bs ++ rest) = bs ++ decode rest := by
  induction bs with
  | nil => rfl
  | cons b bs ih =>
    rw [List.cons_append, decode_cons_of_ne (h b List.mem_cons_self),
      ih fun b hb => h b (List.mem_cons_of_mem _ hb), List.cons_append]

/-- A percent sign stands for itself if no digit follows. -/
theorem decode_sign (h : rest.head?.bind value? = none) :
    decode (37 :: rest) = 37 :: decode rest := by
  cases rest with
  | nil => rfl
  | cons x rest =>
    cases rest with
    | nil => rfl
    | cons y rest =>
      have hx : value? x = none := h
      have hbyte : byte? 37 x y = none := by simp [byte?, hx]
      simp [decode, hbyte]

theorem decode_sign_digit {x : UInt8} (h : rest.head?.bind value? = none) :
    decode (37 :: x :: rest) = 37 :: decode (x :: rest) := by
  cases rest with
  | nil => rfl
  | cons y rest =>
    have hy : value? y = none := h
    have hbyte : byte? 37 x y = none := by simp [byte?, hy]
    simp [decode, hbyte]

theorem decode_sign_digits {x y : UInt8} {m n : Nat} (hx : value? x = some m)
    (hy : value? y = some n) (rest : Bytes) :
    decode (37 :: x :: y :: rest) = UInt8.ofNat (m * 16 + n) :: decode rest := by
  have hbyte : byte? 37 x y = some (UInt8.ofNat (m * 16 + n)) := by simp [byte?, hx, hy]
  simp [decode, hbyte]

theorem length_decode_le (bs : Bytes) : (decode bs).length ≤ bs.length := by
  fun_induction decode bs with
  | case1 a x y rest b hb ih =>
    simp only [List.length_cons]
    omega
  | case2 a x y rest hb ih =>
    simp only [List.length_cons] at ih ⊢
    omega
  | case3 => exact Nat.le_refl _

/-- A byte at the end that is no digit is read as itself. -/
theorem decode_concat (h : value? b = none) (bs : Bytes) :
    decode (bs ++ [b]) = decode bs ++ [b] := by
  fun_induction decode bs with
  | case1 a x y rest byte hbyte ih => simp [decode, hbyte, ih]
  | case2 a x y rest hbyte ih => simpa [decode, hbyte] using ih
  | case3 bs hshort =>
    rcases bs with _ | ⟨a, _ | ⟨x, _ | ⟨y, rest⟩⟩⟩
    · rfl
    · rfl
    · have hbyte : byte? a x b = none := by
        unfold byte?
        split
        next => cases value? x <;> simp [h]
        next => rfl
      simp [decode, hbyte]
    · exact absurd rfl (hshort a x y rest)

/-- A set that leaves percent signs and digits as they are, and of ASCII alone leaves any. -/
structure Sparing (isCoded : Char → Bool) : Prop where
  ascii : ∀ c, isCoded c = false → c.toNat < 0x80
  sign : isCoded '%' = false
  digit : ∀ c, (String.utf8EncodeChar c).head?.bind value? ≠ none → isCoded c = false

theorem value?_eq_none (h : 0x80 ≤ b.toNat) : value? b = none := by
  unfold value?
  rw [if_neg (by simp; omega), if_neg (by simp; omega), if_neg (by simp; omega)]

theorem utf8EncodeChar_ne_sign (hc : c ≠ '%') : ∀ b ∈ String.utf8EncodeChar c, b ≠ 37 := by
  rintro b hb rfl
  have hmem := (Utf8.mem_utf8EncodeChar_iff (b := 37) (by decide)).mp hb
  exact hc (by rw [hmem]; decide)

/-- A character that begins like a digit is one. -/
theorem toNat_lt_of_digit (h : (String.utf8EncodeChar c).head?.bind value? ≠ none) :
    c.toNat < 0x80 := by
  refine Nat.lt_of_not_le fun hge => ?_
  obtain ⟨a, tail, htail, -⟩ := Utf8.front_utf8EncodeChar c
  have ha : a ∈ String.utf8EncodeChar c := by simp [htail]
  rw [htail] at h
  exact h (value?_eq_none (Utf8.le_of_mem_utf8EncodeChar hge ha))

theorem sparing_inPath : Sparing inPath := by
  constructor
  · intro c h
    simp only [inPath, inFragment, isControl, Bool.or_eq_false_iff, decide_eq_false_iff_not] at h
    omega
  · decide
  · intro c h
    have hlt := toNat_lt_of_digit h
    rw [Utf8.utf8EncodeChar_of_lt hlt] at h
    have hall : ∀ n ∈ List.range 0x80, value? (UInt8.ofNat n) ≠ none →
        inPath (Char.ofNat n) = false := by decide +kernel
    simpa using hall c.toNat (List.mem_range.mpr hlt) h

/-- What holds of the sign and of the digits holds of a code. -/
theorem of_mem_codeOf {p : UInt8 → Prop} {b x : UInt8} (hx : x ∈ codeOf b) (hsign : p 37)
    (hdigit : ∀ n ∈ List.range 16, p (digit n)) : p x := by
  have hb := b.toNat_lt
  simp only [codeOf, List.mem_cons, List.not_mem_nil, or_false] at hx
  rcases hx with rfl | rfl | rfl
  · exact hsign
  · exact hdigit _ (List.mem_range.mpr (by omega))
  · exact hdigit _ (List.mem_range.mpr (by omega))

theorem bytesOf_encodeChar (c : Char) : bytesOf (encodeChar isCoded c) =
    if isCoded c then (String.utf8EncodeChar c).flatMap codeOf else String.utf8EncodeChar c := by
  unfold encodeChar
  split
  next =>
    refine bytesOf_asciiChars fun x hx => ?_
    obtain ⟨b, -, hb⟩ := List.mem_flatMap.mp hx
    exact of_mem_codeOf (p := (·.toNat < 0x80)) hb (by decide) (by decide)
  next => simp

theorem decode_codes (bs rest : Bytes) :
    decode (bs.flatMap codeOf ++ rest) = bs ++ decode rest := by
  induction bs with
  | nil => rfl
  | cons b bs ih =>
    rw [List.flatMap_cons, List.append_assoc, decode_codeOf, ih, List.cons_append]

theorem encodeChar_length_pos (c : Char) : 0 < (encodeChar isCoded c).length := by
  obtain ⟨a, tail, htail, -⟩ := Utf8.front_utf8EncodeChar c
  unfold encodeChar
  split
  next => simp [htail, asciiChars, codeOf]
  next => exact Nat.one_pos

theorem encode_cons (c : Char) (cs : List Char) :
    encode isCoded (c :: cs) = encodeChar isCoded c ++ encode isCoded cs := rfl

@[simp] theorem encode_append (cs ds : List Char) :
    encode isCoded (cs ++ ds) = encode isCoded cs ++ encode isCoded ds := List.flatMap_append

/-- What is coded begins with a digit where the text does, and then with the same. -/
theorem head_encode (h : Sparing isCoded) (cs : List Char) :
    ((bytesOf (encode isCoded cs)).head?.bind value? = none ∧
      (bytesOf cs).head?.bind value? = none) ∨
    ∃ c rest b n, cs = c :: rest ∧ value? b = some n ∧ String.utf8EncodeChar c = [b] ∧
      bytesOf (encode isCoded cs) = b :: bytesOf (encode isCoded rest) := by
  cases cs with
  | nil => exact .inl ⟨rfl, rfl⟩
  | cons c rest =>
    obtain ⟨a, tail, htail, -⟩ := Utf8.front_utf8EncodeChar c
    cases hvalue : (String.utf8EncodeChar c).head?.bind value? with
    | some n =>
      have hc : (String.utf8EncodeChar c).head?.bind value? ≠ none := by simp [hvalue]
      have hone := Utf8.utf8EncodeChar_of_lt (toNat_lt_of_digit hc)
      refine .inr ⟨c, rest, _, n, rfl, ?_, hone, ?_⟩
      · simpa [hone] using hvalue
      · rw [encode_cons, bytesOf_append, bytesOf_encodeChar, h.digit c hc, hone]
        rfl
    | none =>
      refine .inl ⟨?_, ?_⟩
      · rw [encode_cons, bytesOf_append, bytesOf_encodeChar]
        split
        next =>
          have hsign : value? 37 = none := by decide
          simp [htail, codeOf, hsign]
        next => simpa [htail] using hvalue
      · simpa [htail] using hvalue

/-- Reading what was coded gives what reading the text gives. -/
theorem decode_encode (h : Sparing isCoded) (cs : List Char) :
    decode (bytesOf (encode isCoded cs)) = decode (bytesOf cs) := by
  match cs with
  | [] => rfl
  | c :: rest =>
    have ih := decode_encode h rest
    rw [encode_cons, bytesOf_append, bytesOf_encodeChar, bytesOf_cons]
    by_cases hc : c = '%'
    · subst hc
      have hsign : String.utf8EncodeChar '%' = [37] := by decide
      rw [h.sign, if_neg Bool.false_ne_true, hsign, List.singleton_append, List.singleton_append]
      rcases head_encode h rest with ⟨hcoded, hplain⟩ | ⟨d, later, x, m, rfl, hx, hd, hcoded⟩
      · rw [decode_sign hcoded, decode_sign hplain, ih]
      rw [bytesOf_cons, hd, List.singleton_append, hcoded] at ih ⊢
      rcases head_encode h later with ⟨hcoded', hplain'⟩ | ⟨e, last, y, n, rfl, hy, he, hcoded'⟩
      · rw [decode_sign_digit hcoded', decode_sign_digit hplain', ih]
      · rw [bytesOf_cons, he, hcoded', List.singleton_append, decode_sign_digits hx hy,
          decode_sign_digits hx hy, decode_encode h last]
    · have hplain := decode_append_of_ne (utf8EncodeChar_ne_sign hc) (bytesOf rest)
      rw [hplain]
      split
      next => rw [decode_codes, ih]
      next => rw [decode_append_of_ne (utf8EncodeChar_ne_sign hc), ih]
termination_by cs.length

end CertBroker.PercentCode
