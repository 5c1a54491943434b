import CertBroker.Proofs.Text.Blank
import CertBroker.Proofs.Time.Calendar

namespace CertBroker.Time

open Text (isBlank trimStartChars isDigit)

theorem value_append (ds : List Char) (c : Char) :
    value (ds ++ [c]) = value ds * 10 + (c.toNat - 48) := by
  simp [value, List.foldl_append]

theorem toNat_digit {n : Nat} (h : n < 10) : (Char.ofNat (48 + n)).toNat = 48 + n := by
  have hall : ∀ m ∈ List.range 10, (Char.ofNat (48 + m)).toNat = 48 + m := by decide
  exact hall n (List.mem_range.mpr h)

@[simp] theorem length_digits (width n : Nat) : (digits width n).length = width := by
  induction width generalizing n with
  | zero => rfl
  | succ width ih => rw [digits, List.length_append, ih]; rfl

theorem isDigit_of_mem_digits {width n : Nat} {c : Char} (h : c ∈ digits width n) :
    isDigit c = true := by
  induction width generalizing n with
  | zero => simp [digits] at h
  | succ width ih =>
    rw [digits, List.mem_append, List.mem_singleton] at h
    rcases h with h | rfl
    · exact ih h
    · simp only [isDigit, toNat_digit (Nat.mod_lt n (by decide : 0 < 10)), Bool.and_eq_true,
        decide_eq_true_eq]
      omega

theorem value_digits {width n : Nat} (h : n < Nat.pow 10 width) :
    value (digits width n) = n := by
  induction width generalizing n with
  | zero =>
    have hzero : n = 0 := Nat.lt_one_iff.mp h
    rw [digits, hzero]
    rfl
  | succ width ih =>
    have hlast : n < Nat.pow 10 width * 10 := h
    rw [digits, value_append, ih (by omega), toNat_digit (Nat.mod_lt n (by decide))]
    omega

theorem foldl_value_lt {ds : List Char} (h : ∀ c ∈ ds, isDigit c = true) (n : Nat) :
    ds.foldl (fun n c => n * 10 + (c.toNat - 48)) n < (n + 1) * Nat.pow 10 ds.length := by
  induction ds generalizing n with
  | nil =>
    change n < (n + 1) * 1
    omega
  | cons c ds ih =>
    have hc := h c List.mem_cons_self
    simp only [isDigit, Bool.and_eq_true, decide_eq_true_eq] at hc
    have hrest := ih (fun d hd => h d (List.mem_cons_of_mem c hd)) (n * 10 + (c.toNat - 48))
    have hstep : n * 10 + (c.toNat - 48) + 1 ≤ (n + 1) * 10 := by omega
    have hpow : (n + 1) * Nat.pow 10 (ds.length + 1) = (n + 1) * 10 * Nat.pow 10 ds.length := by
      rw [Nat.mul_assoc, Nat.mul_comm 10]
      rfl
    rw [List.foldl_cons, List.length_cons, hpow]
    exact Nat.lt_of_lt_of_le hrest (Nat.mul_le_mul_right _ hstep)

theorem value_lt {ds : List Char} (h : ∀ c ∈ ds, isDigit c = true) :
    value ds < Nat.pow 10 ds.length := by
  have := foldl_value_lt h 0
  rwa [Nat.zero_add, Nat.one_mul] at this

theorem isDigit_of_mem_toDigits {n : Nat} {c : Char} (h : c ∈ Nat.toDigits 10 n) :
    isDigit c = true := by
  have := Nat.isDigit_of_mem_toDigits (by decide) (by decide) h
  simp only [Char.isDigit, isDigit, Bool.and_eq_true, decide_eq_true_eq] at this ⊢
  exact this

theorem value_toDigits (n : Nat) : value (Nat.toDigits 10 n) = n := by
  have hback := Nat.ofDigitChars_ten_toDigits (n := n)
  rw [Nat.ofDigitChars_eq_foldl] at hback
  simp only [Nat.mul_comm 10] at hback
  exact hback

theorem isBlank_of_isDigit {c : Char} (h : isDigit c = true) : isBlank c = false := by
  simp only [isDigit, Bool.and_eq_true, decide_eq_true_eq] at h
  simp [isBlank, Text.inRanges, Text.blankRanges]
  omega

theorem trimStartChars_of_digits {ds : List Char} (h : ∀ c ∈ ds, isDigit c = true)
    (hne : ds ≠ []) (rest : List Char) : trimStartChars (ds ++ rest) = ds ++ rest := by
  obtain ⟨c, ds, rfl⟩ := List.exists_cons_of_ne_nil hne
  refine Text.trimStartChars_of_head fun d hd => ?_
  cases hd
  exact isBlank_of_isDigit (h _ List.mem_cons_self)

theorem digits_ne_nil {width : Nat} (hw : 0 < width) (n : Nat) : digits width n ≠ [] :=
  List.ne_nil_of_length_pos (by rwa [length_digits])

theorem takeWhile_digits (width n : Nat) (rest : List Char) :
    (digits width n ++ rest).takeWhile isDigit = digits width n ++ rest.takeWhile isDigit :=
  List.takeWhile_append_of_pos fun _ hc => isDigit_of_mem_digits hc

theorem number?_digits {width n : Nat} (hw : 0 < width) (h : n < Nat.pow 10 width)
    (rest : List Char) : number? width (digits width n ++ rest) = some (n, rest) := by
  have htake : ((digits width n ++ rest).takeWhile isDigit).take width = digits width n := by
    rw [takeWhile_digits, List.take_append_of_le_length (by simp),
      List.take_of_length_le (by simp)]
  have hne : (digits width n).isEmpty = false := by
    rw [List.isEmpty_eq_false_iff]
    exact digits_ne_nil hw n
  have hdrop : (digits width n ++ rest).drop (digits width n).length = rest :=
    List.drop_left
  have hstart := trimStartChars_of_digits (fun _ => isDigit_of_mem_digits) (digits_ne_nil hw n)
    rest
  simp only [number?, hstart, htake, hne, hdrop, value_digits h]
  rfl

theorem field?_digits {low high n : Nat} (hl : low ≤ n) (hh : n ≤ high) (h : n < 100)
    (rest : List Char) : field? low high (digits 2 n ++ rest) = some (n, rest) := by
  simp [field?, number?_digits (by decide : 0 < 2) h, hl, hh]

theorem separator?_self {c : Char} (h : isBlank c = false) (rest : List Char) :
    separator? c (c :: rest) = some rest := by
  simp [separator?, trimStartChars, h]

theorem signed_of_digits {ds : List Char} (sign : Nat → Int) (h : ∀ c ∈ ds, isDigit c = true)
    (hne : ds ≠ []) {c : Char} (hc : isDigit c = false) (rest : List Char) :
    year?.signed sign (ds ++ c :: rest) = some (sign (value ds), c :: rest) := by
  have htake : (ds ++ c :: rest).takeWhile isDigit = ds := by
    rw [List.takeWhile_append_of_pos h, List.takeWhile_cons, hc]
    simp
  simp [year?.signed, htake, hne]

theorem year?_of_digit {c : Char} {cs : List Char} (h : isDigit c = true) :
    year? (c :: cs) = (number? 4 (c :: cs)).map fun r => ((r.1 : Int), r.2) := by
  have hstart : trimStartChars (c :: cs) = c :: cs :=
    Text.trimStartChars_of_head fun d hd => by
      cases hd
      exact isBlank_of_isDigit h
  unfold year?
  rw [hstart]
  split
  next heq =>
    cases heq
    exact absurd h (by decide)
  next heq =>
    cases heq
    exact absurd h (by decide)
  next => rfl

theorem farYear_digits (n : Nat) :
    (∀ c ∈ if n < 10000 then digits 4 n else (toString n).toList, isDigit c = true) ∧
      (if n < 10000 then digits 4 n else (toString n).toList) ≠ [] ∧
      value (if n < 10000 then digits 4 n else (toString n).toList) = n := by
  split
  next h => exact ⟨fun _ => isDigit_of_mem_digits, digits_ne_nil (by decide) n, value_digits h⟩
  next =>
    have hlist : (toString n).toList = Nat.toDigits 10 n := by simp
    rw [hlist]
    exact ⟨fun _ => isDigit_of_mem_toDigits, Nat.toDigits_ne_nil, value_toDigits n⟩

theorem year?_yearText (year : Int) (rest : List Char) :
    year? (yearText year ++ '-' :: rest) = some (year, '-' :: rest) := by
  unfold yearText
  split
  next h =>
    simp only [Bool.and_eq_true, decide_eq_true_eq] at h
    have hlt : year.toNat < 10000 := by omega
    have hread := number?_digits (by decide : 0 < 4) hlt ('-' :: rest)
    obtain ⟨c, ds, hds⟩ :=
      List.exists_cons_of_ne_nil (digits_ne_nil (by decide : 0 < 4) year.toNat)
    have hc : isDigit c = true := isDigit_of_mem_digits (hds ▸ List.mem_cons_self)
    rw [hds, List.cons_append] at hread ⊢
    rw [year?_of_digit hc, hread, Option.map_some, Int.toNat_of_nonneg h.1]
  next h =>
    obtain ⟨hdigits, hne, hvalue⟩ := farYear_digits year.natAbs
    have hread (sign : Nat → Int) :=
      signed_of_digits sign hdigits hne (by decide : isDigit '-' = false) rest
    rw [hvalue] at hread
    by_cases hneg : year < 0
    · simp only [hneg, if_true, List.cons_append]
      have hyear : -(year.natAbs : Int) = year := by omega
      have := hread fun n => -(n : Int)
      rw [hyear] at this
      exact this
    · have hyear : (year.natAbs : Int) = year := by omega
      have := hread fun n => (n : Int)
      rw [hyear] at this
      simp only [hneg, if_false, List.cons_append]
      exact this

theorem nanos?_digits {width n : Nat} (hw : 0 < width) (hw' : width ≤ 9)
    (h : n < Nat.pow 10 width) :
    nanos? ('.' :: digits width n ++ ['Z']) = some (n * Nat.pow 10 (9 - width), ['Z']) := by
  have htake : (digits width n ++ ['Z']).takeWhile isDigit = digits width n := by
    rw [takeWhile_digits]
    exact List.append_nil _
  have hkept : (digits width n).take 9 = digits width n :=
    List.take_of_length_le (by simpa using hw')
  have hne : (digits width n).isEmpty = false :=
    List.isEmpty_eq_false_iff.mpr (digits_ne_nil hw n)
  have hdrop : (digits width n ++ ['Z']).drop width = ['Z'] :=
    List.drop_left' (length_digits width n)
  simp only [List.cons_append, nanos?, htake, hne, hkept, value_digits h, hdrop, length_digits]
  rfl

theorem nanos?_fractionText {n : Nat} (h : n < 1000000000) :
    nanos? (fractionText n ++ ['Z']) = some (n, ['Z']) := by
  unfold fractionText
  split
  next hn =>
    subst hn
    rfl
  next =>
    split
    next hmilli =>
      have hlt : n / 1000000 < Nat.pow 10 3 := by
        change n / 1000000 < 1000
        omega
      have hback : n / 1000000 * Nat.pow 10 (9 - 3) = n := by
        change n / 1000000 * 1000000 = n
        omega
      rw [nanos?_digits (by decide) (by decide) hlt, hback]
    next =>
      split
      next hmicro =>
        have hlt : n / 1000 < Nat.pow 10 6 := by
          change n / 1000 < 1000000
          omega
        have hback : n / 1000 * Nat.pow 10 (9 - 6) = n := by
          change n / 1000 * 1000 = n
          omega
        rw [nanos?_digits (by decide) (by decide) hlt, hback]
      next =>
        have hlt : n < Nat.pow 10 9 := h
        have hback : n * Nat.pow 10 (9 - 9) = n := Nat.mul_one n
        rw [nanos?_digits (by decide) (by decide) hlt, hback]

/-- The second and the nanoseconds are those of a time of day, and the date is one that can be
given. Nanoseconds of a second and more stand in the last second of a minute only. -/
structure Proper (t : Time) : Prop where
  second : t.second < 86400
  nanos : t.nanos < 1000000000 ∨ t.second % 60 = 59 ∧ t.nanos < 2000000000
  day : dayInRange t.day = true

theorem assemble?_ofDay {t : Time} (h : t.Proper) :
    assemble? (Date.ofDay t.day) (t.second / 3600) (t.second / 60 % 60)
      (t.second % 60 + t.nanos / 1000000000) (t.nanos % 1000000000) 0 = some t := by
  obtain ⟨day, second, nanos⟩ := t
  obtain ⟨hsecond, hnanos, hday⟩ := h
  have hvalid := Date.isValid_ofDay hday
  simp only at hsecond hnanos hday
  have hclock : second / 3600 * 3600 + second / 60 % 60 * 60 + second % 60 = second := by omega
  have hsplit : (if second % 60 + nanos / 1000000000 = 60
      then (59, nanos % 1000000000 + 1000000000)
      else (second % 60 + nanos / 1000000000, nanos % 1000000000)) = (second % 60, nanos) := by
    split
    next => rw [Prod.mk.injEq]; omega
    next => rw [Prod.mk.injEq]; omega
  have hdays : (day * 86400 + (second : Int) - 0) / 86400 = day := by omega
  have hseconds : ((day * 86400 + (second : Int) - 0) % 86400).toNat = second := by omega
  simp only [assemble?, hvalid, hsplit, hclock, Date.toDay_ofDay, hdays, hseconds, hday]
  rfl

theorem bind_of_eq {α β : Type} {x : Option α} {value : α} (h : x = some value)
    (next : α → Option β) : (x >>= next) = next value := by
  rw [h]
  rfl

/-- A time is read back from its text. -/
theorem parse?_text {t : Time} (h : t.Proper) : parse? t.text = some t := by
  have hassemble := assemble?_ofDay h
  obtain ⟨hsecond, hnanos, hday⟩ := h
  have hvalid := Date.isValid_ofDay hday
  simp only [Date.isValid, Bool.and_eq_true, decide_eq_true_eq] at hvalid
  have hlength := Date.monthLength_le (Date.ofDay t.day).year (Date.ofDay t.day).month
  have hdash : isBlank '-' = false := by decide
  have hcolon : isBlank ':' = false := by decide
  have hoffset : offset? (trimStartChars ['Z']) = some (0, []) := by decide
  rw [parse?, text, wholeText, String.toList_ofList]
  simp only [List.append_assoc, List.cons_append]
  -- The readers take the parts of the text off its front, one after the other.
  refine (bind_of_eq (year?_yearText _ _) _).trans ?_
  refine (bind_of_eq (separator?_self hdash _) _).trans ?_
  refine (bind_of_eq (field?_digits hvalid.1.1.1.2 hvalid.1.1.2 (by omega) _) _).trans ?_
  refine (bind_of_eq (separator?_self hdash _) _).trans ?_
  refine (bind_of_eq (field?_digits hvalid.1.2 (by omega) (by omega) _) _).trans ?_
  refine (if_pos rfl).trans ?_
  refine (bind_of_eq (field?_digits (Nat.zero_le _) (by omega) (by omega) _) _).trans ?_
  refine (bind_of_eq (separator?_self hcolon _) _).trans ?_
  refine (bind_of_eq (field?_digits (Nat.zero_le _) (by omega) (by omega) _) _).trans ?_
  refine (bind_of_eq (separator?_self hcolon _) _).trans ?_
  refine (bind_of_eq (field?_digits (Nat.zero_le _) (by omega) (by omega) _) _).trans ?_
  refine (bind_of_eq (nanos?_fractionText (Nat.mod_lt _ (by decide))) _).trans ?_
  refine (bind_of_eq hoffset _).trans ?_
  exact hassemble

theorem lt_of_nanos? {n : Nat} {cs rest : List Char} (h : nanos? cs = some (n, rest)) :
    n < 1000000000 := by
  unfold nanos? at h
  split at h
  next fraction =>
    simp only at h
    split at h
    next => exact absurd h (by simp)
    next =>
      cases h
      generalize hkept : (fraction.takeWhile isDigit).take 9 = kept
      have hdigits : ∀ c ∈ kept, isDigit c = true := fun c hc =>
        List.all_eq_true.mp List.all_takeWhile c (List.mem_of_mem_take (hkept ▸ hc))
      have hlength : kept.length ≤ 9 := hkept ▸ List.length_take_le 9 _
      have hpow : Nat.pow 10 kept.length * Nat.pow 10 (9 - kept.length) = 1000000000 := by
        have hsum := Nat.pow_add 10 kept.length (9 - kept.length)
        rw [Nat.add_sub_cancel' hlength] at hsum
        exact hsum.symm
      have hpos : 0 < Nat.pow 10 (9 - kept.length) := Nat.pow_pos (by decide)
      have hlt := Nat.mul_lt_mul_of_pos_right (value_lt hdigits) hpos
      rwa [hpow] at hlt
  next =>
    cases h
    decide

theorem exists_of_hours? {sign offset : Int} {cs rest : List Char}
    (h : offset?.hours? sign cs = some (offset, rest)) : ∃ minutes, offset = 60 * minutes := by
  unfold offset?.hours? at h
  split at h
  next a b _ =>
    split at h
    next =>
      split at h
      next c d _ _ =>
        split at h
        next =>
          cases h
          refine ⟨sign * (value [a, b] * 60 + value [c, d] : Nat), ?_⟩
          rw [Int.mul_left_comm]
          congr 1
          omega
        next => exact absurd h (by simp)
      next => exact absurd h (by simp)
    next => exact absurd h (by simp)
  next => exact absurd h (by simp)

theorem exists_of_signedOffset? {offset : Int} {cs rest : List Char}
    (h : offset?.signedOffset? cs = some (offset, rest)) : ∃ minutes, offset = 60 * minutes := by
  unfold offset?.signedOffset? at h
  split at h
  next => exact absurd h (by simp)
  next =>
    split at h
    next =>
      cases h
      exact ⟨0, rfl⟩
    next =>
      split at h
      next => exact exists_of_hours? h
      next =>
        split at h
        next => exact exists_of_hours? h
        next => exact absurd h (by simp)

theorem exists_of_offset? {offset : Int} {cs rest : List Char}
    (h : offset? cs = some (offset, rest)) : ∃ minutes, offset = 60 * minutes := by
  unfold offset? at h
  split at h
  next =>
    split at h
    next =>
      cases h
      exact ⟨0, rfl⟩
    next => exact exists_of_signedOffset? h
  next => exact exists_of_signedOffset? h

theorem proper_of_assemble? {date : Date} {hour minute second nanos : Nat} {offset : Int}
    {t : Time} (hnanos : nanos < 1000000000)
    (hoffset : ∃ minutes, offset = 60 * minutes)
    (h : assemble? date hour minute second nanos offset = some t) : t.Proper := by
  obtain ⟨minutes, rfl⟩ := hoffset
  unfold assemble? at h
  split at h
  next =>
    by_cases hleap : second = 60
    · rw [if_pos hleap] at h
      simp only at h
      split at h
      next hday =>
        cases h
        refine ⟨?_, .inr ⟨?_, ?_⟩, hday⟩
        · simp only; omega
        · simp only; omega
        · simp only; omega
      next => exact absurd h (by simp)
    · rw [if_neg hleap] at h
      simp only at h
      split at h
      next hday =>
        cases h
        refine ⟨?_, .inl hnanos, hday⟩
        simp only; omega
      next => exact absurd h (by simp)
  next => exact absurd h (by simp)

/-- A time that is read is proper. -/
theorem proper_of_parse? {s : String} {t : Time} (h : parse? s = some t) : t.Proper := by
  unfold parse? at h
  iterate 4 obtain ⟨_, _, h⟩ := Option.bind_eq_some_iff.mp h
  obtain ⟨⟨_, cs⟩, _, h⟩ := Option.bind_eq_some_iff.mp h
  cases cs with
  | nil => cases h
  | cons c cs =>
    change (if _ then _ else _) = some t at h
    split at h
    next =>
      iterate 6 obtain ⟨_, _, h⟩ := Option.bind_eq_some_iff.mp h
      obtain ⟨⟨nanos, _⟩, hnanos, h⟩ := Option.bind_eq_some_iff.mp h
      obtain ⟨⟨offset, _⟩, hoffset, h⟩ := Option.bind_eq_some_iff.mp h
      change (if _ then _ else _) = some t at h
      split at h
      next => exact proper_of_assemble? (lt_of_nanos? hnanos) (exists_of_offset? hoffset) h
      next => cases h
    next => cases h

end CertBroker.Time
