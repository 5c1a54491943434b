import CertBroker.Json.Parser
import CertBroker.Json.Printer

namespace CertBroker.Json

theorem scanString_plain {c : Char} (hquote : c ≠ '"') (hslash : c ≠ '\\') (hc : ¬ c.toNat < 0x20)
    (done rest : List Char) : scanString done (c :: rest) = scanString (c :: done) rest := by
  rw [scanString]
  · rw [if_neg hc]
  · exact fun h => hquote h
  · exact fun _ _ _ _ _ h => absurd h hslash
  · exact fun _ _ h => absurd h hslash

theorem scanString_short {c e : Char} (h : escape? c = some e) (done rest : List Char) :
    scanString done ('\\' :: c :: rest) = scanString (e :: done) rest := by
  have hne : c ≠ 'u' := by
    rintro rfl
    cases h
  rw [scanString]
  · rw [h]
  · exact fun _ _ _ _ _ hu => absurd hu hne

theorem scanString_control {c : Char} (hc : c.toNat < 0x20) (done rest : List Char) :
    scanString done ('\\' :: 'u' :: '0' :: '0' :: Text.hexDigit (c.toNat / 16) ::
      Text.hexDigit (c.toNat % 16) :: rest) = scanString (c :: done) rest := by
  have hvalue : hex4? '0' '0' (Text.hexDigit (c.toNat / 16)) (Text.hexDigit (c.toNat % 16)) =
      some c.toNat := by
    have hzero : Text.digitValue? 16 '0' = some 0 := by decide
    rw [hex4?, hzero, Text.digitValue?_hexDigit (by omega), Text.digitValue?_hexDigit (by omega)]
    simp only [Option.bind_eq_bind, Option.bind_some, Option.pure_def, Option.some.injEq]
    omega
  rw [scanString, hvalue]
  simp only
  rw [if_neg (by simp; omega), if_neg (by simp; omega), Char.ofNat_toNat]

theorem scanString_escapeChar (c : Char) (done rest : List Char) :
    scanString done (escapeChar c ++ rest) = scanString (c :: done) rest := by
  unfold escapeChar
  split
  next => exact scanString_short rfl done rest
  next => exact scanString_short rfl done rest
  next => exact scanString_short rfl done rest
  next => exact scanString_short rfl done rest
  next => exact scanString_short rfl done rest
  next hquote hslash _ _ _ =>
    have hchar (n : Nat) (h : c.toNat = n) : Char.ofNat n = c := h ▸ Char.ofNat_toNat c
    split
    next h => exact scanString_short (c := 'b') (congrArg some (hchar 8 h)) done rest
    next =>
      split
      next h => exact scanString_short (c := 'f') (congrArg some (hchar 12 h)) done rest
      next =>
        split
        next h => exact scanString_control h done rest
        next h => exact scanString_plain hquote hslash h done rest

theorem scanString_escaped (cs done rest : List Char) :
    scanString done (cs.flatMap escapeChar ++ '"' :: rest) =
      some (String.ofList (done.reverse ++ cs), rest) := by
  induction cs generalizing done with
  | nil => simp [scanString]
  | cons c cs ih =>
    rw [List.flatMap_cons, List.append_assoc, scanString_escapeChar, ih]
    simp

theorem stringChars_append (s : String) (rest : List Char) :
    stringChars s ++ rest = '"' :: (s.toList.flatMap escapeChar ++ '"' :: rest) := by
  simp [stringChars]

theorem scanString_stringChars (s : String) (rest : List Char) :
    scanString [] (s.toList.flatMap escapeChar ++ '"' :: rest) = some (s, rest) := by
  rw [scanString_escaped, List.reverse_nil, List.nil_append, String.ofList_toList]

/-- A value without numbers whose containers nest no deeper than this. -/
inductive Written : Nat → Json → Prop
  | null (depth : Nat) : Written depth .null
  | bool (depth : Nat) (value : Bool) : Written depth (.bool value)
  | string (depth : Nat) (value : String) : Written depth (.string value)
  | array {depth : Nat} {items : List Json} (h : ∀ item ∈ items, Written depth item) :
      Written (depth + 1) (.array items)
  | object {depth : Nat} {members : List (String × Json)}
      (h : ∀ m ∈ members, Written depth m.2) : Written (depth + 1) (.object members)

/-- A value is read back from the front of a text that begins with it. -/
def ReadsBack (depth : Nat) (j : Json) : Prop :=
  ∀ fuel rest, (toChars j).length ≤ fuel → scanValue fuel depth (toChars j ++ rest) = some (j, rest)

theorem skipSpaces_cons {c : Char} (h : isSpace c = false) (rest : List Char) :
    skipSpaces (c :: rest) = c :: rest := by
  rw [skipSpaces, List.dropWhile_cons_of_neg (by simp [h])]

variable {depth fuel : Nat}

theorem scanItems_itemChars {items : List Json} (hne : items ≠ [])
    (h : ∀ item ∈ items, ReadsBack depth item) (rest : List Char)
    (hfuel : (itemChars items).length < fuel) :
    scanItems fuel depth (itemChars items ++ ']' :: rest) = some (items, rest) := by
  induction items generalizing fuel with
  | nil => exact absurd rfl hne
  | cons item items ih =>
    obtain ⟨fuel, rfl⟩ : ∃ n, fuel = n + 1 := ⟨fuel - 1, by omega⟩
    obtain ⟨hitem, hitems⟩ := List.forall_mem_cons.mp h
    cases items with
    | nil =>
      rw [itemChars] at hfuel ⊢
      rw [scanItems, hitem fuel _ (by omega)]
      simp only [skipSpaces_cons (c := ']') (by decide)]
    | cons next items =>
      have hchars : itemChars (item :: next :: items) =
          toChars item ++ ',' :: itemChars (next :: items) := by rw [itemChars]; simp
      rw [hchars, List.length_append, List.length_cons] at hfuel
      have hrest := ih (List.cons_ne_nil next items) hitems (show _ < fuel by omega)
      rw [hchars, List.append_assoc, scanItems, hitem fuel _ (by omega)]
      simp only [List.cons_append, skipSpaces_cons (c := ',') (by decide), hrest, Option.map_some]

theorem scanMembers_memberChars {members : List (String × Json)} (hne : members ≠ [])
    (h : ∀ m ∈ members, ReadsBack depth m.2) (rest : List Char)
    (hfuel : (memberChars members).length < fuel) :
    scanMembers fuel depth (memberChars members ++ '\x7d' :: rest) = some (members, rest) := by
  induction members generalizing fuel with
  | nil => exact absurd rfl hne
  | cons m members ih =>
    obtain ⟨name, value⟩ := m
    obtain ⟨fuel, rfl⟩ : ∃ n, fuel = n + 1 := ⟨fuel - 1, by omega⟩
    obtain ⟨hvalue, hmembers⟩ := List.forall_mem_cons.mp h
    replace hvalue : ReadsBack depth value := hvalue
    cases members with
    | nil =>
      rw [memberChars] at hfuel ⊢
      rw [List.length_append, List.length_cons] at hfuel
      rw [List.append_assoc, stringChars_append, scanMembers]
      simp only [skipSpaces_cons (c := '"') (by decide), scanString_stringChars,
        List.cons_append, skipSpaces_cons (c := ':') (by decide), hvalue fuel _ (by omega),
        skipSpaces_cons (c := '\x7d') (by decide)]
    | cons next members =>
      have hchars : memberChars ((name, value) :: next :: members) =
          stringChars name ++ ':' :: toChars value ++ ',' :: memberChars (next :: members) := by
        rw [memberChars]; simp
      rw [hchars, List.length_append, List.length_append, List.length_cons,
        List.length_cons] at hfuel
      have hrest := ih (List.cons_ne_nil next members) hmembers (show _ < fuel by omega)
      rw [hchars, List.append_assoc, List.append_assoc, stringChars_append, scanMembers]
      simp only [skipSpaces_cons (c := '"') (by decide), scanString_stringChars,
        List.cons_append, skipSpaces_cons (c := ':') (by decide), hvalue fuel _ (by omega),
        skipSpaces_cons (c := ',') (by decide), hrest, Option.map_some]

/-- A text that is written begins with a character of its own. -/
theorem Written.head {j : Json} (h : Written depth j) :
    ∃ c cs, toChars j = c :: cs ∧ isSpace c = false ∧ c ≠ ']' := by
  cases h with
  | null => exact ⟨'n', _, rfl, by decide, by decide⟩
  | bool _ value =>
    cases value with
    | false => exact ⟨'f', _, rfl, by decide, by decide⟩
    | true => exact ⟨'t', _, rfl, by decide, by decide⟩
  | string => exact ⟨'"', _, rfl, by decide, by decide⟩
  | array => exact ⟨'[', _, by rw [toChars, List.cons_append], by decide, by decide⟩
  | object => exact ⟨'\x7b', _, by rw [toChars, List.cons_append], by decide, by decide⟩

theorem itemChars_head {item : Json} (h : Written depth item) (items : List Json) :
    ∃ c cs, itemChars (item :: items) = c :: cs ∧ isSpace c = false ∧ c ≠ ']' := by
  obtain ⟨c, cs, hchars, hc⟩ := h.head
  cases items with
  | nil => exact ⟨c, cs, by rw [itemChars, hchars], hc⟩
  | cons next items => exact ⟨c, _, by rw [itemChars, hchars, List.cons_append]; simp, hc⟩

theorem memberChars_head (m : String × Json) (members : List (String × Json)) :
    ∃ cs, memberChars (m :: members) = '"' :: cs := by
  obtain ⟨name, value⟩ := m
  cases members <;> simp [memberChars, stringChars]

theorem scanValue_array (fuel depth : Nat) (cs : List Char) :
    scanValue (fuel + 1) (depth + 1) ('[' :: cs) =
      match skipSpaces cs with
      | ']' :: rest => some (.array [], rest)
      | _ => (scanItems fuel depth cs).map fun r => (.array r.1, r.2) := by
  rw [scanValue]
  rfl

theorem scanValue_object (fuel depth : Nat) (cs : List Char) :
    scanValue (fuel + 1) (depth + 1) ('\x7b' :: cs) =
      match skipSpaces cs with
      | '\x7d' :: rest => some (.object [], rest)
      | _ => (scanMembers fuel depth cs).map fun r => (.object r.1, r.2) := by
  rw [scanValue]
  rfl

theorem readsBack_array {items : List Json} (h : ∀ item ∈ items, Written depth item)
    (hitems : ∀ item ∈ items, ReadsBack depth item) : ReadsBack (depth + 1) (.array items) := by
  intro fuel rest hfuel
  rw [toChars, List.cons_append, List.length_cons, List.length_append, List.length_singleton]
    at hfuel
  obtain ⟨fuel, rfl⟩ : ∃ n, fuel = n + 1 := ⟨fuel - 1, by omega⟩
  rw [toChars, List.cons_append, List.cons_append, List.append_assoc, List.singleton_append,
    scanValue_array]
  cases items with
  | nil => rfl
  | cons item items =>
    obtain ⟨c, cs, hchars, hspace, hc⟩ := itemChars_head (h item List.mem_cons_self) items
    have hskip : skipSpaces (itemChars (item :: items) ++ ']' :: rest) =
        c :: (cs ++ ']' :: rest) := by
      rw [hchars, List.cons_append, skipSpaces_cons hspace]
    rw [hskip, scanItems_itemChars (List.cons_ne_nil item items) hitems rest (by omega)]
    split
    next heq => exact absurd (List.cons.inj heq).1 hc
    next => rfl

theorem readsBack_object {members : List (String × Json)}
    (hmembers : ∀ m ∈ members, ReadsBack depth m.2) :
    ReadsBack (depth + 1) (.object members) := by
  intro fuel rest hfuel
  rw [toChars, List.cons_append, List.length_cons, List.length_append, List.length_singleton]
    at hfuel
  obtain ⟨fuel, rfl⟩ : ∃ n, fuel = n + 1 := ⟨fuel - 1, by omega⟩
  rw [toChars, List.cons_append, List.cons_append, List.append_assoc, List.singleton_append,
    scanValue_object]
  cases members with
  | nil => rfl
  | cons m members =>
    obtain ⟨cs, hchars⟩ := memberChars_head m members
    have hskip : skipSpaces (memberChars (m :: members) ++ '\x7d' :: rest) =
        '"' :: (cs ++ '\x7d' :: rest) := by
      rw [hchars, List.cons_append, skipSpaces_cons (by decide)]
    rw [hskip, scanMembers_memberChars (List.cons_ne_nil m members) hmembers rest (by omega)]
    rfl

theorem readsBack_leaf {j : Json} (hj : toChars j ≠ [])
    (h : ∀ fuel rest, scanValue (fuel + 1) depth (toChars j ++ rest) = some (j, rest)) :
    ReadsBack depth j := by
  intro fuel rest hfuel
  have hpos := List.length_pos_iff.mpr hj
  obtain ⟨fuel, rfl⟩ : ∃ n, fuel = n + 1 := ⟨fuel - 1, by omega⟩
  exact h fuel rest

theorem Written.readsBack {j : Json} (h : Written depth j) : ReadsBack depth j := by
  induction h with
  | null =>
    refine readsBack_leaf (by simp [toChars]) fun fuel rest => ?_
    simp [toChars, scanValue, skipSpaces_cons, isSpace, expect?]
  | bool depth value =>
    refine readsBack_leaf (by cases value <;> simp [toChars]) fun fuel rest => ?_
    cases value <;> simp [toChars, scanValue, skipSpaces_cons, isSpace, expect?]
  | string depth value =>
    refine readsBack_leaf (by simp [toChars, stringChars]) fun fuel rest => ?_
    rw [toChars, stringChars_append, scanValue]
    simp only [skipSpaces_cons (c := '"') (by decide), scanString_stringChars, Option.map_some]
  | array h ih => exact readsBack_array h ih
  | object _ ih => exact readsBack_object ih

/-- A text that is written is read again as the value it is of. -/
theorem parse?_toText {j : Json} (h : Written depthLimit j) : parse? (toText j) = some j := by
  rw [parse?, parseWithin?, toText, String.toList_ofList]
  have hscan := h.readsBack (2 * (toChars j).length + 2) [] (by omega)
  rw [List.append_nil] at hscan
  simp only [hscan]
  rfl

end CertBroker.Json
