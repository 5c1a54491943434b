import CertBroker.Base64
import CertBroker.Text.Blank
import CertBroker.Proofs.Text.Utf8

namespace CertBroker.Base64

variable {n offset : Nat} {bs : Bytes}

theorem readSymbol_symbol (h : n < 64) (offset : Nat) : readSymbol offset (symbol n) = .ok n := by
  rw [readSymbol, value?_symbol h]

theorem symbol_ne_pad (h : n < 64) : symbol n ≠ pad := by
  have hall : ∀ m ∈ List.range 64, symbol m ≠ pad := by decide
  exact hall n (List.mem_range.mpr h)

theorem scanLast_symbol (h : n < 64) (offset index : Nat) (values : List Nat) (rest : Bytes) :
    scanLast offset index values 0 (symbol n :: rest) =
      scanLast offset (index + 1) (values ++ [n]) 0 rest := by
  simp [scanLast, symbol_ne_pad h, readSymbol_symbol h]

theorem scanLast_pad {index : Nat} (h : 2 ≤ index) (offset : Nat) (values : List Nat) (pads : Nat)
    (rest : Bytes) : scanLast offset index values pads (pad :: rest) =
      scanLast offset (index + 1) values (pads + 1) rest := by
  simp [scanLast, Nat.not_lt.mpr h]

theorem joinQuad_symbols (a b c : UInt8) :
    joinQuad (a.toNat / 4) (a.toNat % 4 * 16 + b.toNat / 16) (b.toNat % 16 * 4 + c.toNat / 64)
      (c.toNat % 64) = [a, b, c] := by
  have ha := a.toNat_lt
  have hb := b.toNat_lt
  have hc := c.toNat_lt
  rw [joinQuad, Utf8.ofNat_eq (b := a) (by omega), Utf8.ofNat_eq (b := b) (by omega),
    Utf8.ofNat_eq (b := c) (by omega)]

theorem decodeLast_one (a : UInt8) (offset : Nat) :
    decodeLast offset (encodeBytes [a]) = .ok [a] := by
  have ha := a.toNat_lt
  rw [encodeBytes, decodeLast, scanLast_symbol (by omega), scanLast_symbol (by omega),
    scanLast_pad (by omega), scanLast_pad (by omega), scanLast]
  have hbyte : UInt8.ofNat (a.toNat / 4 * 4 + a.toNat % 4) = a := Utf8.ofNat_eq (by omega)
  simp [hbyte, -UInt8.ofNat_add, -UInt8.ofNat_mul]

theorem decodeLast_two (a b : UInt8) (offset : Nat) :
    decodeLast offset (encodeBytes [a, b]) = .ok [a, b] := by
  have ha := a.toNat_lt
  have hb := b.toNat_lt
  rw [encodeBytes, decodeLast, scanLast_symbol (by omega), scanLast_symbol (by omega),
    scanLast_symbol (by omega), scanLast_pad (by omega), scanLast]
  have hfirst : UInt8.ofNat (a.toNat / 4 * 4 + (a.toNat % 4 * 16 + b.toNat / 16) / 16) = a :=
    Utf8.ofNat_eq (by omega)
  have hsecond : UInt8.ofNat (b.toNat / 16 % 16 * 16 + b.toNat % 16) = b :=
    Utf8.ofNat_eq (by omega)
  simp [hfirst, hsecond, -UInt8.ofNat_add, -UInt8.ofNat_mul]

theorem decodeLast_three (a b c : UInt8) (offset : Nat) :
    decodeLast offset (encodeBytes [a, b, c]) = .ok [a, b, c] := by
  have ha := a.toNat_lt
  have hb := b.toNat_lt
  have hc := c.toNat_lt
  rw [encodeBytes, encodeBytes, decodeLast, scanLast_symbol (by omega), scanLast_symbol (by omega),
    scanLast_symbol (by omega), scanLast_symbol (by omega), scanLast]
  simp [joinQuad_symbols]

theorem encodeBytes_ne_nil (h : bs ≠ []) : encodeBytes bs ≠ [] := by
  match bs with
  | [_] => simp [encodeBytes]
  | [_, _] => simp [encodeBytes]
  | _ :: _ :: _ :: _ => simp [encodeBytes]

theorem length_encodeBytes (bs : Bytes) : (encodeBytes bs).length % 4 = 0 := by
  induction bs using encodeBytes.induct with
  | case1 => simp [encodeBytes]
  | case2 => simp [encodeBytes]
  | case3 => simp [encodeBytes]
  | case4 a b c rest ih =>
    simp only [encodeBytes, List.length_cons]
    omega

theorem decodeFrom_encodeBytes (bs : Bytes) (offset : Nat) :
    decodeFrom offset (encodeBytes bs) = .ok bs := by
  induction bs using encodeBytes.induct generalizing offset with
  | case1 => rfl
  | case2 a => exact decodeLast_one a offset
  | case3 a b => exact decodeLast_two a b offset
  | case4 a b c rest ih =>
    cases hrest : encodeBytes rest with
    | nil =>
      have hnil : rest = [] := Decidable.byContradiction fun h => encodeBytes_ne_nil h hrest
      subst hnil
      exact decodeLast_three a b c offset
    | cons e others =>
      have ha := a.toNat_lt
      have hb := b.toNat_lt
      have hc := c.toNat_lt
      have hothers := ih (offset + 4)
      rw [hrest] at hothers
      rw [encodeBytes, hrest, decodeFrom, readSymbol_symbol (by omega),
        readSymbol_symbol (by omega), readSymbol_symbol (by omega),
        readSymbol_symbol (by omega), hothers]
      simp [joinQuad_symbols, bind, Except.bind, pure, Except.pure]

theorem decode_encodeBytes (bs : Bytes) : decode (encodeBytes bs) = .ok bs := by
  have hlength := length_encodeBytes bs
  have hstray : strayEnd? (encodeBytes bs) = none := by simp [strayEnd?, hlength]
  rw [decode, hstray]
  exact decodeFrom_encodeBytes bs 0

theorem mem_encodeBytes {b : UInt8} (h : b ∈ encodeBytes bs) :
    b = pad ∨ ∃ n < 64, b = symbol n := by
  induction bs using encodeBytes.induct with
  | case1 => cases h
  | case2 a =>
    have ha := a.toNat_lt
    simp only [encodeBytes, List.mem_cons, List.not_mem_nil, or_false] at h
    rcases h with h | h | h | h
    · exact .inr ⟨_, by omega, h⟩
    · exact .inr ⟨_, by omega, h⟩
    · exact .inl h
    · exact .inl h
  | case3 a b =>
    have ha := a.toNat_lt
    have hb := b.toNat_lt
    simp only [encodeBytes, List.mem_cons, List.not_mem_nil, or_false] at h
    rcases h with h | h | h | h
    · exact .inr ⟨_, by omega, h⟩
    · exact .inr ⟨_, by omega, h⟩
    · exact .inr ⟨_, by omega, h⟩
    · exact .inl h
  | case4 a b c rest ih =>
    have ha := a.toNat_lt
    have hb := b.toNat_lt
    have hc := c.toNat_lt
    simp only [encodeBytes, List.mem_cons] at h
    rcases h with h | h | h | h | h
    · exact .inr ⟨_, by omega, h⟩
    · exact .inr ⟨_, by omega, h⟩
    · exact .inr ⟨_, by omega, h⟩
    · exact .inr ⟨_, by omega, h⟩
    · exact ih h

/-- What holds of the padding and of every symbol holds of all that is written. -/
theorem of_mem_encodeBytes {p : UInt8 → Prop} (hpad : p pad)
    (hsymbol : ∀ n ∈ List.range 64, p (symbol n)) {b : UInt8} (h : b ∈ encodeBytes bs) : p b := by
  rcases mem_encodeBytes h with rfl | ⟨n, hn, rfl⟩
  · exact hpad
  · exact hsymbol n (List.mem_range.mpr hn)

theorem lt_of_mem_encodeBytes {b : UInt8} (h : b ∈ encodeBytes bs) : b.toNat < 0x80 :=
  of_mem_encodeBytes (p := fun b => b.toNat < 0x80) (by decide) (by decide) h

/-- Neither blanks nor dashes are written. -/
theorem of_mem_encode {c : Char} (h : c ∈ (encode bs).toList) :
    Text.isBlank c = false ∧ c ≠ '-' := by
  rw [encode, asciiText, String.toList_ofList] at h
  obtain ⟨b, hb, rfl⟩ := List.mem_map.mp h
  exact of_mem_encodeBytes (p := fun b => Text.isBlank (Char.ofNat b.toNat) = false ∧
    Char.ofNat b.toNat ≠ '-') (by decide) (by decide +kernel) hb

theorem encode_asciiText (h : ∀ b ∈ bs, b.toNat < 0x80) : Utf8.encode (asciiText bs) = bs := by
  induction bs with
  | nil => rfl
  | cons b rest ih =>
    obtain ⟨hb, hrest⟩ := List.forall_mem_cons.mp h
    have hstep : Utf8.encode (asciiText (b :: rest)) =
        String.utf8EncodeChar (Char.ofNat b.toNat) ++ Utf8.encode (asciiText rest) := by
      simp [Utf8.encode, asciiText]
    rw [hstep, Utf8.encode_one hb, ih hrest, List.singleton_append]

theorem decodeText_encode (bs : Bytes) : decodeText (encode bs) = .ok bs := by
  rw [decodeText, encode, encode_asciiText fun b hb => lt_of_mem_encodeBytes hb,
    decode_encodeBytes]

theorem encode_eq_empty_iff : encode bs = "" ↔ bs = [] := by
  constructor
  · intro h
    have hread := decodeText_encode bs
    have hempty : "" = encode [] := rfl
    rw [h, hempty, decodeText_encode] at hread
    exact (Except.ok.inj hread).symm
  · rintro rfl
    rfl

end CertBroker.Base64
