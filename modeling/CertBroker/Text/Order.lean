
namespace CertBroker.Text

/-- Lexicographic order by code point; a proper beginning comes first. -/
def charsBefore : List Char → List Char → Bool
  | _, [] => false
  | [], _ :: _ => true
  | a :: as, b :: bs => a.toNat < b.toNat || (a.toNat == b.toNat && charsBefore as bs)

/-- `s` sorts strictly before `t`. -/
def before (s t : String) : Bool := charsBefore s.toList t.toList

theorem charsBefore_irrefl (s : List Char) : charsBefore s s = false := by
  induction s with
  | nil => rfl
  | cons a as ih => simp [charsBefore, ih]

theorem charsBefore_trans {s t u : List Char} (hst : charsBefore s t) (htu : charsBefore t u) :
    charsBefore s u := by
  induction s generalizing t u with
  | nil => cases t <;> cases u <;> simp_all [charsBefore]
  | cons a as ih =>
    cases t with
    | nil => simp [charsBefore] at hst
    | cons b bs =>
      cases u with
      | nil => simp [charsBefore] at htu
      | cons c cs =>
        simp only [charsBefore, Bool.or_eq_true, Bool.and_eq_true, decide_eq_true_eq,
          beq_iff_eq] at hst htu ⊢
        rcases hst with h | ⟨h, hr⟩ <;> rcases htu with h' | ⟨h', hr'⟩
        · exact Or.inl (by omega)
        · exact Or.inl (by omega)
        · exact Or.inl (by omega)
        · exact Or.inr ⟨by omega, ih hr hr'⟩

theorem charsBefore_total {s t : List Char} (hst : charsBefore s t = false)
    (hts : charsBefore t s = false) : s = t := by
  induction s generalizing t with
  | nil => cases t <;> simp_all [charsBefore]
  | cons a as ih =>
    cases t with
    | nil => simp [charsBefore] at hts
    | cons b bs =>
      simp only [charsBefore, Bool.or_eq_false_iff, Bool.and_eq_false_iff, decide_eq_false_iff_not,
        beq_eq_false_iff_ne] at hst hts
      have hab : a.toNat = b.toNat := by omega
      have hr := hst.2.resolve_left (by simp [hab])
      have hr' := hts.2.resolve_left (by simp [hab])
      rw [Char.toNat_inj.mp hab, ih hr hr']

theorem before_irrefl (s : String) : before s s = false := charsBefore_irrefl _

theorem before_trans {s t u : String} (hst : before s t) (htu : before t u) : before s u :=
  charsBefore_trans hst htu

theorem before_total {s t : String} (hst : before s t = false) (hts : before t s = false) :
    s = t :=
  String.toList_inj.mp (charsBefore_total hst hts)

end CertBroker.Text
