import CertBroker.Text.Utf8

namespace CertBroker.Utf8

variable {a b c d : UInt8} {rest : Bytes} {ch : Char} {n : Nat}

theorem isTail_iff : isTail b = true ↔ 0x80 ≤ b.toNat ∧ b.toNat ≤ 0xbf := by
  simp [isTail, UInt8.le_iff_toNat_le]

/-- The second byte rules out encodings that are too long, surrogates, and numbers too large. -/
theorem secondIn_bounds (h : secondIn a b = true) :
    0x80 ≤ b.toNat ∧ b.toNat ≤ 0xbf ∧ (a.toNat = 0xe0 → 0xa0 ≤ b.toNat) ∧
      (a.toNat = 0xed → b.toNat ≤ 0x9f) ∧ (a.toNat = 0xf0 → 0x90 ≤ b.toNat) ∧
      (a.toNat = 0xf4 → b.toNat ≤ 0x8f) := by
  have hlead (n : UInt8) : (a == n) = true ↔ a.toNat = n.toNat := by
    rw [beq_iff_eq, UInt8.toNat_inj]
  simp only [secondIn, hlead] at h
  repeat' split at h
  all_goals
    simp [isTail_iff, UInt8.le_iff_toNat_le] at *
    omega

theorem utf8EncodeChar_ofNat (h : n.isValidChar) : String.utf8EncodeChar (Char.ofNat n) =
    if n ≤ 0x7f then [UInt8.ofNat n]
    else if n ≤ 0x7ff then [UInt8.ofNat (n / 64 % 32 + 192), UInt8.ofNat (n % 64 + 128)]
    else if n ≤ 0xffff then
      [UInt8.ofNat (n / 4096 % 16 + 224), UInt8.ofNat (n / 64 % 64 + 128),
        UInt8.ofNat (n % 64 + 128)]
    else
      [UInt8.ofNat (n / 262144 % 8 + 240), UInt8.ofNat (n / 4096 % 64 + 128),
        UInt8.ofNat (n / 64 % 64 + 128), UInt8.ofNat (n % 64 + 128)] := by
  have hn : (Char.ofNat n).val.toNat = n := by
    rw [Char.ofNat, dif_pos h]
    rfl
  rw [String.utf8EncodeChar, hn]

theorem ofNat_eq (h : n = b.toNat) : UInt8.ofNat n = b := by
  rw [h, UInt8.ofNat_toNat]

theorem encode_one (ha : a.toNat < 0x80) : String.utf8EncodeChar (Char.ofNat a.toNat) = [a] := by
  rw [utf8EncodeChar_ofNat (Or.inl (by omega)), if_pos (by omega), UInt8.ofNat_toNat]

theorem encode_two (ha : 0xc2 ≤ a.toNat ∧ a.toNat ≤ 0xdf) (hb : isTail b = true) :
    String.utf8EncodeChar (Char.ofNat (a.toNat % 32 * 64 + low b)) = [a, b] := by
  have hb := isTail_iff.mp hb
  rw [low, utf8EncodeChar_ofNat (Or.inl (by omega)), if_neg (by omega), if_pos (by omega)]
  simp only [List.cons.injEq, and_true]
  exact ⟨ofNat_eq (by omega), ofNat_eq (by omega)⟩

theorem encode_three (ha : 0xe0 ≤ a.toNat ∧ a.toNat ≤ 0xef) (hb : secondIn a b = true)
    (hc : isTail c = true) :
    String.utf8EncodeChar (Char.ofNat (a.toNat % 16 * 4096 + low b * 64 + low c)) =
      [a, b, c] := by
  obtain ⟨hlow, hhigh, hlong, hsurrogate, -⟩ := secondIn_bounds hb
  have hc := isTail_iff.mp hc
  rw [low, low]
  generalize hn : a.toNat % 16 * 4096 + b.toNat % 64 * 64 + c.toNat % 64 = n
  have hvalid : n.isValidChar := by
    rw [Nat.isValidChar]
    omega
  rw [utf8EncodeChar_ofNat hvalid, if_neg (by omega), if_neg (by omega), if_pos (by omega)]
  simp only [List.cons.injEq, and_true]
  exact ⟨ofNat_eq (by omega), ofNat_eq (by omega), ofNat_eq (by omega)⟩

theorem encode_four (ha : 0xf0 ≤ a.toNat ∧ a.toNat ≤ 0xf4) (hb : secondIn a b = true)
    (hc : isTail c = true) (hd : isTail d = true) :
    String.utf8EncodeChar
      (Char.ofNat (a.toNat % 8 * 262144 + low b * 4096 + low c * 64 + low d)) = [a, b, c, d] := by
  obtain ⟨hlow, hhigh, -, -, hlong, hlarge⟩ := secondIn_bounds hb
  have hc := isTail_iff.mp hc
  have hd := isTail_iff.mp hd
  rw [low, low, low]
  generalize hn : a.toNat % 8 * 262144 + b.toNat % 64 * 4096 + c.toNat % 64 * 64 + d.toNat % 64 = n
  have hvalid : n.isValidChar := by
    rw [Nat.isValidChar]
    omega
  rw [utf8EncodeChar_ofNat hvalid, if_neg (by omega), if_neg (by omega), if_neg (by omega)]
  simp only [List.cons.injEq, and_true]
  exact ⟨ofNat_eq (by omega), ofNat_eq (by omega), ofNat_eq (by omega), ofNat_eq (by omega)⟩

/-- A character that is read stands in the bytes as it is encoded. -/
theorem front_eq_char (h : front a rest = .char ch n) :
    String.utf8EncodeChar ch ++ rest.drop (n - 1) = a :: rest := by
  simp only [front, Bool.and_eq_true, decide_eq_true_eq, UInt8.lt_iff_toNat_lt,
    UInt8.le_iff_toNat_le] at h
  repeat' split at h
  -- Without the faults, the four widths of a character are left.
  all_goals try contradiction
  all_goals cases h
  next ha =>
    rw [encode_one ha]
    rfl
  next ha _ b _ hb =>
    rw [encode_two ha hb]
    rfl
  next ha _ b hb _ c _ hc =>
    rw [encode_three ha (by simpa using hb) hc]
    rfl
  next ha _ b hb _ c hc _ d _ hd =>
    rw [encode_four ha (by simpa using hb) (by simpa using hc) hd]
    rfl

/-- The text that is read encodes to the bytes. -/
theorem encode_of_decodeFrom {start : Nat} {bs : Bytes} {cs : List Char}
    (h : decodeFrom start bs = .ok cs) : cs.flatMap String.utf8EncodeChar = bs := by
  induction start, bs using decodeFrom.induct generalizing cs with
  | case1 =>
    rw [decodeFrom] at h
    cases h
    rfl
  | case2 start a rest ch n hfront ih =>
    rw [decodeFrom, hfront] at h
    cases hlater : decodeFrom (start + n) (rest.drop (n - 1)) with
    | error => simp [hlater, Except.map] at h
    | ok later =>
      simp only [hlater, Except.map, Except.ok.injEq] at h
      rw [← h, List.flatMap_cons, ih hlater, front_eq_char hfront]
  | case3 start a rest n hfront =>
    rw [decodeFrom, hfront] at h
    exact absurd h (by simp)
  | case4 start a rest hfront =>
    rw [decodeFrom, hfront] at h
    exact absurd h (by simp)

theorem encode_of_decode {bs : Bytes} {s : String} (h : decode bs = .ok s) : encode s = bs := by
  unfold decode at h
  cases hread : decodeFrom 0 bs with
  | error => simp [hread, Except.map] at h
  | ok cs =>
    simp only [hread, Except.map, Except.ok.injEq] at h
    rw [← h, encode, String.toList_ofList, encode_of_decodeFrom hread]

theorem front_one (ha : a.toNat < 0x80) : front a rest = .char (Char.ofNat a.toNat) 1 := by
  have hone : a < 0x80 := UInt8.lt_iff_toNat_lt.mpr ha
  simp [front, hone]

theorem front_two (ha : 0xc2 ≤ a.toNat ∧ a.toNat ≤ 0xdf) (hb : isTail b = true) :
    front a (b :: rest) = .char (Char.ofNat (a.toNat % 32 * 64 + low b)) 2 := by
  have hone : ¬ a < 0x80 := by
    simp only [UInt8.lt_iff_toNat_lt, UInt8.toNat_ofNat]
    omega
  have htwo : (0xc2 ≤ a && a ≤ 0xdf) = true := by
    simp [UInt8.le_iff_toNat_le, ha]
  simp [front, hone, htwo, hb]

theorem front_three (ha : 0xe0 ≤ a.toNat ∧ a.toNat ≤ 0xef) (hb : secondIn a b = true)
    (hc : isTail c = true) : front a (b :: c :: rest) =
      .char (Char.ofNat (a.toNat % 16 * 4096 + low b * 64 + low c)) 3 := by
  have hone : ¬ a < 0x80 := by
    simp only [UInt8.lt_iff_toNat_lt, UInt8.toNat_ofNat]
    omega
  have htwo : (0xc2 ≤ a && a ≤ 0xdf) = false := by
    simp [UInt8.le_iff_toNat_le]
    omega
  have hthree : (0xe0 ≤ a && a ≤ 0xef) = true := by
    simp [UInt8.le_iff_toNat_le, ha]
  simp [front, hone, htwo, hthree, hb, hc]

theorem front_four (ha : 0xf0 ≤ a.toNat ∧ a.toNat ≤ 0xf4) (hb : secondIn a b = true)
    (hc : isTail c = true) (hd : isTail d = true) : front a (b :: c :: d :: rest) =
      .char (Char.ofNat (a.toNat % 8 * 262144 + low b * 4096 + low c * 64 + low d)) 4 := by
  have hone : ¬ a < 0x80 := by
    simp only [UInt8.lt_iff_toNat_lt, UInt8.toNat_ofNat]
    omega
  have htwo : (0xc2 ≤ a && a ≤ 0xdf) = false := by
    simp [UInt8.le_iff_toNat_le]
    omega
  have hthree : (0xe0 ≤ a && a ≤ 0xef) = false := by
    simp [UInt8.le_iff_toNat_le]
    omega
  have hfour : (0xf0 ≤ a && a ≤ 0xf4) = true := by
    simp [UInt8.le_iff_toNat_le, ha]
  simp [front, hone, htwo, hthree, hfour, hb, hc, hd]

theorem secondIn_of_bounds (hb : 0x80 ≤ b.toNat ∧ b.toNat ≤ 0xbf)
    (hlong : a.toNat = 0xe0 → 0xa0 ≤ b.toNat) (hsurrogate : a.toNat = 0xed → b.toNat ≤ 0x9f)
    (hplane : a.toNat = 0xf0 → 0x90 ≤ b.toNat) (hlarge : a.toNat = 0xf4 → b.toNat ≤ 0x8f) :
    secondIn a b = true := by
  have hlead (n : UInt8) : (a == n) = true ↔ a.toNat = n.toNat := by
    rw [beq_iff_eq, UInt8.toNat_inj]
  simp only [secondIn, hlead]
  repeat' split
  all_goals
    simp [isTail_iff, UInt8.le_iff_toNat_le] at *
    omega

/-- The bytes of a character are read as this character, whatever follows them. -/
theorem front_utf8EncodeChar (ch : Char) : ∃ a tail, String.utf8EncodeChar ch = a :: tail ∧
    ∀ rest, front a (tail ++ rest) = .char ch (tail.length + 1) := by
  obtain ⟨n, hn, rfl⟩ : ∃ n, n.isValidChar ∧ ch = Char.ofNat n :=
    ⟨ch.toNat, ch.valid, (Char.ofNat_toNat ch).symm⟩
  have hbounds : n < 0xd800 ∨ 0xdfff < n ∧ n < 0x110000 := hn
  have hread (m : Nat) (h : m < 256) : (UInt8.ofNat m).toNat = m := UInt8.toNat_ofNat_of_lt h
  rw [utf8EncodeChar_ofNat hn]
  by_cases hone : n ≤ 0x7f
  · have ha := hread n (by omega)
    rw [if_pos hone]
    refine ⟨_, _, rfl, fun rest => ?_⟩
    rw [List.nil_append, front_one (by omega), ha]
    rfl
  rw [if_neg hone]
  have hz := hread (n % 64 + 128) (by omega)
  by_cases htwo : n ≤ 0x7ff
  · have ha := hread (n / 64 % 32 + 192) (by omega)
    rw [if_pos htwo]
    refine ⟨_, _, rfl, fun rest => ?_⟩
    rw [List.cons_append, front_two (by omega) (isTail_iff.mpr (by omega)), low, ha, hz]
    congr 2
    omega
  rw [if_neg htwo]
  have hy := hread (n / 64 % 64 + 128) (by omega)
  by_cases hthree : n ≤ 0xffff
  · have ha := hread (n / 4096 % 16 + 224) (by omega)
    rw [if_pos hthree]
    refine ⟨_, _, rfl, fun rest => ?_⟩
    have hsecond := secondIn_of_bounds (a := UInt8.ofNat (n / 4096 % 16 + 224))
      (b := UInt8.ofNat (n / 64 % 64 + 128)) (by omega) (by omega) (by omega) (by omega) (by omega)
    rw [List.cons_append, List.cons_append, front_three (by omega) hsecond
      (isTail_iff.mpr (by omega)), low, low, ha, hy, hz]
    congr 2
    omega
  · have ha := hread (n / 262144 % 8 + 240) (by omega)
    have hx := hread (n / 4096 % 64 + 128) (by omega)
    rw [if_neg hthree]
    refine ⟨_, _, rfl, fun rest => ?_⟩
    have hsecond := secondIn_of_bounds (a := UInt8.ofNat (n / 262144 % 8 + 240))
      (b := UInt8.ofNat (n / 4096 % 64 + 128)) (by omega) (by omega) (by omega) (by omega)
      (by omega)
    rw [List.cons_append, List.cons_append, List.cons_append, front_four (by omega) hsecond
      (isTail_iff.mpr (by omega)) (isTail_iff.mpr (by omega)), low, low, low, ha, hx, hy, hz]
    congr 2
    omega

theorem decodeFrom_flatMap (cs : List Char) (start : Nat) :
    decodeFrom start (cs.flatMap String.utf8EncodeChar) = .ok cs := by
  induction cs generalizing start with
  | nil => simp [decodeFrom]
  | cons ch rest ih =>
    obtain ⟨a, tail, hbytes, hfront⟩ := front_utf8EncodeChar ch
    rw [List.flatMap_cons, hbytes, List.cons_append, decodeFrom, hfront]
    simp [ih, Except.map]

theorem decode_encode (s : String) : decode (encode s) = .ok s := by
  rw [decode, encode, decodeFrom_flatMap, Except.map, String.ofList_toList]

theorem lossyChars_flatMap (cs : List Char) :
    lossyChars (cs.flatMap String.utf8EncodeChar) = cs := by
  induction cs with
  | nil => simp [lossyChars]
  | cons ch rest ih =>
    obtain ⟨a, tail, hbytes, hfront⟩ := front_utf8EncodeChar ch
    rw [List.flatMap_cons, hbytes, List.cons_append, lossyChars, hfront]
    simp [ih]

theorem lossy_encode (s : String) : lossy (encode s) = s := by
  rw [lossy, encode, lossyChars_flatMap, String.ofList_toList]

theorem encode_eq_nil_iff {s : String} : encode s = [] ↔ s = "" := by
  constructor
  · intro h
    rw [encode, List.flatMap_eq_nil_iff] at h
    have hnil : s.toList = [] := by
      cases hs : s.toList with
      | nil => rfl
      | cons c rest =>
        have hc := h c (by simp [hs])
        exact absurd hc (by simp)
    simpa using hnil
  · rintro rfl
    rfl

@[simp] theorem encode_append (s t : String) : encode (s ++ t) = encode s ++ encode t := by
  simp [encode]

/-- The bytes of a character beyond ASCII are no ASCII bytes. -/
theorem le_of_mem_utf8EncodeChar (hch : 0x80 ≤ ch.toNat) (h : a ∈ String.utf8EncodeChar ch) :
    0x80 ≤ a.toNat := by
  have hvalid : ch.toNat.isValidChar := ch.valid
  have hlead (m : Nat) (hm : m < 256) (hhigh : 0x80 ≤ m) : 0x80 ≤ (UInt8.ofNat m).toNat := by
    have hread : (UInt8.ofNat m).toNat = m := UInt8.toNat_ofNat_of_lt hm
    omega
  have hall : ∀ b ∈ String.utf8EncodeChar ch, 0x80 ≤ b.toNat := by
    rw [← Char.ofNat_toNat ch, utf8EncodeChar_ofNat hvalid, if_neg (by omega)]
    repeat' split
    all_goals
      simp only [List.forall_mem_cons, List.not_mem_nil, false_implies, implies_true, and_true]
      refine ⟨hlead _ (by omega) (by omega), ?_⟩
    · exact hlead _ (by omega) (by omega)
    · exact ⟨hlead _ (by omega) (by omega), hlead _ (by omega) (by omega)⟩
    · exact ⟨hlead _ (by omega) (by omega), hlead _ (by omega) (by omega),
        hlead _ (by omega) (by omega)⟩
  exact hall a h

theorem utf8EncodeChar_of_lt (hch : ch.toNat < 0x80) :
    String.utf8EncodeChar ch = [UInt8.ofNat ch.toNat] := by
  have hvalid : ch.toNat.isValidChar := ch.valid
  rw [← Char.ofNat_toNat ch, utf8EncodeChar_ofNat hvalid, if_pos (by omega), Char.ofNat_toNat]

/-- An ASCII byte stands for its character, and for no part of another. -/
theorem mem_utf8EncodeChar_iff (hb : b.toNat < 0x80) :
    b ∈ String.utf8EncodeChar ch ↔ ch = Char.ofNat b.toNat := by
  constructor
  · intro h
    have hch : ch.toNat < 0x80 := Nat.lt_of_not_le fun hle =>
      Nat.not_lt.mpr (le_of_mem_utf8EncodeChar hle h) hb
    rw [utf8EncodeChar_of_lt hch, List.mem_singleton] at h
    have hread : (UInt8.ofNat ch.toNat).toNat = ch.toNat :=
      UInt8.toNat_ofNat_of_lt (Nat.lt_trans hch (by decide))
    rw [h, hread, Char.ofNat_toNat]
  · rintro rfl
    simp [encode_one hb]

theorem mem_encode_iff {s : String} (hb : b.toNat < 0x80) :
    b ∈ encode s ↔ Char.ofNat b.toNat ∈ s.toList := by
  simp [encode, List.mem_flatMap, mem_utf8EncodeChar_iff hb]

end CertBroker.Utf8
