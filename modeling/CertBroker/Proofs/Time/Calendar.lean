import CertBroker.Time

namespace CertBroker.Date

/-- A day of four hundred years, as its century, its four years in it, its year in those, and its
day in that. Only the last year of a four-year span has a day 365, and of those that end a century
only the last one does. -/
theorem exists_of_dayOfEra {d : Int} (h : 0 ≤ d) (h' : d < 146097) : ∃ century four year day : Int,
    0 ≤ century ∧ century ≤ 3 ∧ 0 ≤ four ∧ four ≤ 24 ∧ 0 ≤ year ∧ year ≤ 3 ∧ 0 ≤ day ∧
      day ≤ 365 ∧ d = 36524 * century + 1461 * four + 365 * year + day ∧
      (day = 365 → year = 3 ∧ (four = 24 → century = 3)) := by
  by_cases hlast : d = 146096
  · exact ⟨3, 24, 3, 365, by omega⟩
  have hc : d / 36524 ≤ 3 := by omega
  generalize hrem : d - 36524 * (d / 36524) = rem
  by_cases hyear : rem - 1461 * (rem / 1461) = 1460
  · exact ⟨d / 36524, rem / 1461, 3, 365, by omega⟩
  · exact ⟨d / 36524, rem / 1461, (rem - 1461 * (rem / 1461)) / 365,
      (rem - 1461 * (rem / 1461)) % 365, by omega⟩

theorem yearOfEra_eq {century four year day : Int} (hc : 0 ≤ century ∧ century ≤ 3)
    (hf : 0 ≤ four ∧ four ≤ 24) (hy : 0 ≤ year ∧ year ≤ 3) (hd : 0 ≤ day ∧ day ≤ 365)
    (hleap : day = 365 → year = 3 ∧ (four = 24 → century = 3)) {d : Int}
    (h : d = 36524 * century + 1461 * four + 365 * year + day) :
    (d - d / 1460 + d / 36524 - d / 146096) / 365 = 100 * century + 4 * four + year := by
  have hcentury : d / 36524 - d / 146096 = century := by
    have hle : 36524 * century ≤ d ∧ d ≤ 36524 * century + 36524 := by omega
    by_cases hlast : d = 36524 * century + 36524
    · have : century = 3 := by omega
      omega
    · have hlow : d / 36524 = century := by omega
      have hhigh : d / 146096 = 0 := by omega
      omega
  have hfour : d / 1460 = 25 * century + four ∨
      d / 1460 = 25 * century + four + 1 ∧ 1 ≤ day := by omega
  rcases hfour with hfour | ⟨hfour, hpos⟩
  · have : day ≤ 364 := by omega
    omega
  · omega

theorem exists_yearOfEra {d : Int} (h : 0 ≤ d) (h' : d < 146097) : ∃ year day : Int,
    0 ≤ year ∧ year ≤ 399 ∧ 0 ≤ day ∧ day ≤ 365 ∧
      d = year * 365 + year / 4 - year / 100 + day ∧
      (day = 365 → year % 4 = 3 ∧ (year % 100 = 99 → year = 399)) ∧
      (d - d / 1460 + d / 36524 - d / 146096) / 365 = year := by
  obtain ⟨century, four, year, day, hc, hc', hf, hf', hy, hy', hd, hd', hday, hleap⟩ :=
    exists_of_dayOfEra h h'
  have hyear := yearOfEra_eq ⟨hc, hc'⟩ ⟨hf, hf'⟩ ⟨hy, hy'⟩ ⟨hd, hd'⟩ hleap hday
  clear h h'
  refine ⟨100 * century + 4 * four + year, day, ?_, ?_, hd, hd', ?_, ?_, hyear⟩
  all_goals clear hyear
  · omega
  · omega
  · have hquarter : (100 * century + 4 * four + year) / 4 = 25 * century + four := by omega
    have hhundred : (100 * century + 4 * four + year) / 100 = century := by omega
    rw [hquarter, hhundred]
    omega
  · intro hlast
    obtain ⟨hlong, hcommon⟩ := hleap hlast
    refine ⟨by omega, fun hlastFour => ?_⟩
    have := hcommon (by omega)
    omega

theorem isLeap_of_yearOfEra {year : Int} (era : Int) (h : year % 4 = 3)
    (h' : year % 100 = 99 → year = 399) : isLeap (year + era * 400 + 1) = true := by
  simp only [isLeap, Bool.and_eq_true, Bool.or_eq_true, beq_iff_eq, bne_iff_ne]
  refine ⟨by omega, ?_⟩
  by_cases hcommon : year % 100 = 99
  · have := h' hcommon
    exact .inr (by omega)
  · exact .inl (by omega)

/-- The date of a day of a year that begins in March. -/
def ofYearDay (year dayOfYear : Int) : Date :=
  let month := (5 * dayOfYear + 2) / 153
  let number := if month < 10 then month + 3 else month - 9
  ⟨if number ≤ 2 then year + 1 else year, number.toNat,
    (dayOfYear - (153 * month + 2) / 5 + 1).toNat⟩

theorem exists_month {dayOfYear : Int} (h : 0 ≤ dayOfYear) (h' : dayOfYear ≤ 365) :
    ∃ month day : Nat, month ≤ 11 ∧ dayOfYear = ((153 * month + 2) / 5 : Nat) + day ∧
      (5 * dayOfYear + 2) / 153 = month ∧
      (153 * month + 2) / 5 + day < (153 * (month + 1) + 2) / 5 := by
  obtain ⟨month, hmonth⟩ : ∃ month : Nat, (5 * dayOfYear + 2) / 153 = month :=
    ⟨((5 * dayOfYear + 2) / 153).toNat, by omega⟩
  have hlow : 153 * (month : Int) ≤ 5 * dayOfYear + 2 := by omega
  have hhigh : 5 * dayOfYear + 2 < 153 * (month : Int) + 153 := by omega
  have hstart : (153 * month + 2) / 5 ≤ dayOfYear.toNat := by omega
  refine ⟨month, dayOfYear.toNat - (153 * month + 2) / 5, by omega, by omega, hmonth, ?_⟩
  have hback : (153 * month + 2) / 5 + (dayOfYear.toNat - (153 * month + 2) / 5)
      = dayOfYear.toNat := by omega
  rw [hback]
  omega

theorem exists_ofYearDay (d : Int) : ∃ era yearOfEra dayOfYear : Int,
    0 ≤ yearOfEra ∧ yearOfEra ≤ 399 ∧ 0 ≤ dayOfYear ∧ dayOfYear ≤ 365 ∧
      d + 719468 =
        era * 146097 + (yearOfEra * 365 + yearOfEra / 4 - yearOfEra / 100 + dayOfYear) ∧
      (dayOfYear = 365 → isLeap (yearOfEra + era * 400 + 1) = true) ∧
      ofDay d = ofYearDay (yearOfEra + era * 400) dayOfYear := by
  have hlow : 0 ≤ d + 719468 - (d + 719468) / 146097 * 146097 := by omega
  have hhigh : d + 719468 - (d + 719468) / 146097 * 146097 < 146097 := by omega
  obtain ⟨year, day, hy, hy', hd, hd', hday, hleap, hyear⟩ := exists_yearOfEra hlow hhigh
  refine ⟨(d + 719468) / 146097, year, day, hy, hy', hd, hd', ?_, fun hlast => ?_, ?_⟩
  · rw [← hday]
    clear hyear hday hleap hlow hhigh
    omega
  · obtain ⟨hlong, hcommon⟩ := hleap hlast
    exact isLeap_of_yearOfEra _ hlong hcommon
  · have hrest : d + 719468 - (d + 719468) / 146097 * 146097
        - (365 * year + year / 4 - year / 100) = day := by
      rw [hday]
      clear hyear hday hleap hlow hhigh
      omega
    simp only [ofDay, hyear, hrest]
    rfl

theorem toDay_ofYearDay {era yearOfEra dayOfYear : Int} (hy : 0 ≤ yearOfEra ∧ yearOfEra ≤ 399)
    (hd : 0 ≤ dayOfYear ∧ dayOfYear ≤ 365) :
    (ofYearDay (yearOfEra + era * 400) dayOfYear).toDay =
      era * 146097 + (yearOfEra * 365 + yearOfEra / 4 - yearOfEra / 100 + dayOfYear) - 719468 := by
  have hera : (yearOfEra + era * 400) / 400 = era := by omega
  obtain ⟨month, day, hmonth, hday, heq, -⟩ := exists_month hd.1 hd.2
  have hrest : (dayOfYear - (153 * (month : Int) + 2) / 5 + 1).toNat = day + 1 := by omega
  have hback : (153 * (month : Int) + 2) / 5 + ((day + 1 : Nat) : Int) - 1 = dayOfYear := by omega
  unfold ofYearDay toDay
  simp only [heq, hrest]
  by_cases hlate : month < 10
  · have hlate' : (month : Int) < 10 := by omega
    have hnumber : ¬ (month : Int) + 3 ≤ 2 := by omega
    have hnumber' : ¬ ((month : Int) + 3).toNat ≤ 2 := by omega
    have hnumber'' : ((month : Int) + 3).toNat > 2 := by omega
    have hthird : ((month : Int) + 3).toNat - 3 = month := by omega
    simp only [hlate', hnumber, hnumber', hnumber'', if_true, if_false, hera, hthird,
      Int.add_sub_cancel, hback]
  · have hlate' : ¬ (month : Int) < 10 := by omega
    have hnumber : (month : Int) - 9 ≤ 2 := by omega
    have hnumber' : ((month : Int) - 9).toNat ≤ 2 := by omega
    have hnumber'' : ¬ ((month : Int) - 9).toNat > 2 := by omega
    have hninth : ((month : Int) - 9).toNat + 9 = month := by omega
    simp only [hlate', hnumber, hnumber', hnumber'', if_true, if_false, hninth,
      Int.add_sub_cancel, hera, hback]

theorem monthLength_le (year : Int) (month : Nat) : monthLength year month ≤ 31 := by
  unfold monthLength
  split
  next => split <;> decide
  all_goals decide

theorem isValid_ofYearDay {year dayOfYear : Int} (h : 0 ≤ dayOfYear) (h' : dayOfYear ≤ 365)
    (hleap : dayOfYear = 365 → isLeap (year + 1) = true)
    (hrange : yearInRange (ofYearDay year dayOfYear).year = true) :
    (ofYearDay year dayOfYear).isValid = true := by
  obtain ⟨month, day, hmonth, hday, heq, hlength⟩ := exists_month h h'
  have hrest : (dayOfYear - (153 * (month : Int) + 2) / 5 + 1).toNat = day + 1 := by omega
  unfold ofYearDay at hrange ⊢
  unfold isValid
  simp only [heq, hrest] at hrange ⊢
  simp only [Bool.and_eq_true, decide_eq_true_eq, hrange, true_and]
  clear hrange heq hrest
  by_cases hlast : month = 11
  · subst hlast
    by_cases hlong : day = 28
    · have := hleap (by omega)
      simp [monthLength, this, hlong]
    · simp [monthLength]
      split <;> omega
  · have hcases : month = 0 ∨ month = 1 ∨ month = 2 ∨ month = 3 ∨ month = 4 ∨ month = 5 ∨
        month = 6 ∨ month = 7 ∨ month = 8 ∨ month = 9 ∨ month = 10 := by omega
    rcases hcases with rfl | rfl | rfl | rfl | rfl | rfl | rfl | rfl | rfl | rfl | rfl <;>
      simp [monthLength] <;> omega

theorem toDay_ofDay (d : Int) : (ofDay d).toDay = d := by
  obtain ⟨era, year, day, hy, hy', hd, hd', hday, -, hdate⟩ := exists_ofYearDay d
  rw [hdate, toDay_ofYearDay ⟨hy, hy'⟩ ⟨hd, hd'⟩, ← hday, Int.add_sub_cancel]

theorem isValid_ofDay {d : Int} (h : yearInRange (ofDay d).year = true) :
    (ofDay d).isValid = true := by
  obtain ⟨era, year, day, -, -, hd, hd', -, hleap, hdate⟩ := exists_ofYearDay d
  rw [hdate] at h ⊢
  exact isValid_ofYearDay hd hd' hleap h

end CertBroker.Date
