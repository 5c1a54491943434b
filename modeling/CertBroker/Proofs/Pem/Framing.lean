import CertBroker.Pem
import CertBroker.Proofs.Text.Utf8

namespace CertBroker.Pem

variable {marker left passed bs before after found rest part : Bytes} {x : UInt8}

theorem scanFrom_eq {done before : Bytes} (hm : marker = done ++ left)
    (h : scanFrom marker left (done.reverse ++ before) bs = some (found, rest)) :
    before.reverse ++ done ++ bs = found ++ marker ++ rest := by
  induction bs generalizing left done before with
  | nil => cases left <;> simp [scanFrom] at h
  | cons b bs ih =>
    cases left with
    | nil => simp [scanFrom] at h
    | cons m left =>
      simp only [scanFrom] at h
      split at h
      next hb =>
        have hb : b = m := by simpa using hb
        subst hb
        split at h
        next hend =>
          have hend : left = [] := by simpa using hend
          subst hend
          simp only [Option.some.injEq, Prod.mk.injEq] at h
          obtain ⟨rfl, rfl⟩ := h
          simp [hm]
        next =>
          have hstep := @ih left (done ++ [b]) before (by simp [hm]) (by simpa using h)
          simpa using hstep
      next =>
        have hstep := @ih marker [] (b :: (done.reverse ++ before)) rfl h
        simpa using hstep

theorem scan_eq (h : scan marker bs = some (found, rest)) : bs = found ++ marker ++ rest := by
  have hstart : scanFrom marker marker (([] : Bytes).reverse ++ []) bs = some (found, rest) := h
  simpa using scanFrom_eq (List.nil_append marker).symm hstart

theorem prefix_of_scan (h : scan marker bs = some (found, rest)) : found <+: bs :=
  ⟨marker ++ rest, by rw [scan_eq h, List.append_assoc]⟩

theorem ne_nil_of_scan (h : scan marker bs = some (found, rest)) : marker ≠ [] := by
  rintro rfl
  cases bs <;> simp [scan, scanFrom] at h

/-- More bytes at the end do not change what is found. -/
theorem scanFrom_append (h : scanFrom marker left passed bs = some (found, rest)) (after : Bytes) :
    scanFrom marker left passed (bs ++ after) = some (found, rest ++ after) := by
  induction bs generalizing left passed with
  | nil => cases left <;> simp [scanFrom] at h
  | cons b bs ih =>
    cases left with
    | nil => simp [scanFrom] at h
    | cons m left =>
      simp only [scanFrom, List.cons_append] at h ⊢
      split at h
      next hb =>
        rw [if_pos hb]
        split at h
        next hend =>
          rw [if_pos hend]
          simp only [Option.some.injEq, Prod.mk.injEq] at h
          simp [h]
        next hend =>
          rw [if_neg hend]
          exact ih h
      next hb =>
        rw [if_neg hb]
        exact ih h

theorem scanFrom_eq_none_congr (passed passed' : Bytes)
    (h : scanFrom marker left passed bs = none) : scanFrom marker left passed' bs = none := by
  induction bs generalizing left passed passed' with
  | nil => cases left <;> simp [scanFrom]
  | cons b bs ih =>
    cases left with
    | nil => simp [scanFrom]
    | cons m left =>
      simp only [scanFrom] at h ⊢
      split at h
      next hb =>
        rw [if_pos hb]
        split at h
        next => cases h
        next hend =>
          rw [if_neg hend]
          exact ih _ _ h
      next hb =>
        rw [if_neg hb]
        exact ih _ _ h

/-- The search for a marker finds nothing. -/
def Clear (marker bs : Bytes) : Prop := scan marker bs = none

instance (marker bs : Bytes) : Decidable (Clear marker bs) :=
  inferInstanceAs (Decidable (scan marker bs = none))

theorem Clear.front (h : Clear marker (before ++ after)) : Clear marker before := by
  unfold Clear scan at h ⊢
  cases hscan : scanFrom marker marker [] before with
  | none => rfl
  | some parts => simp [scanFrom_append hscan after] at h

/-- What stands before the first marker is clear. -/
theorem clear_of_scan (h : scan marker bs = some (found, rest)) : Clear marker found := by
  have hbs := scan_eq h
  unfold Clear
  cases hscan : scan marker found with
  | none => rfl
  | some parts =>
    obtain ⟨found', rest'⟩ := parts
    have hlonger := scanFrom_append hscan (marker ++ rest)
    rw [← List.append_assoc, ← hbs] at hlonger
    rw [scan, hlonger] at h
    have hlength := congrArg List.length (Prod.mk.inj (Option.some.inj h)).2
    have hmarker := List.length_pos_iff.mpr (ne_nil_of_scan hscan)
    simp only [List.length_append] at hlength
    omega

/-- A byte that is not in the marker starts the search over. -/
theorem scanFrom_foreign (hne : left ≠ []) (hsub : left ⊆ marker) (hx : x ∉ marker)
    (h : scanFrom marker left passed before = none) :
    scanFrom marker left passed (before ++ x :: after) =
      scanFrom marker marker (x :: (before.reverse ++ passed)) after := by
  have hmarker : marker ≠ [] := fun hnil => hne (List.subset_nil.mp (hnil ▸ hsub))
  induction before generalizing left passed with
  | nil =>
    cases left with
    | nil => exact absurd rfl hne
    | cons m left =>
      have hxm : x ≠ m := fun heq => hx (heq ▸ hsub List.mem_cons_self)
      simp [scanFrom, hxm]
  | cons b before ih =>
    cases left with
    | nil => exact absurd rfl hne
    | cons m left =>
      simp only [scanFrom, List.cons_append] at h ⊢
      split at h
      next hb =>
        rw [if_pos hb]
        split at h
        next => cases h
        next hend =>
          rw [if_neg hend, ih (by simpa using hend) (List.subset_of_cons_subset hsub) h]
          simp
      next hb =>
        rw [if_neg hb, ih hmarker (List.Subset.refl _) h]
        simp

theorem Clear.scanFrom_cons (h : Clear marker before) (hne : marker ≠ []) (hx : x ∉ marker)
    (passed after : Bytes) : scanFrom marker marker passed (before ++ x :: after) =
      scanFrom marker marker (x :: (before.reverse ++ passed)) after :=
  scanFrom_foreign hne (List.Subset.refl _) hx (scanFrom_eq_none_congr _ _ h)

/-- Bytes are clear on both sides of a byte that is not in the marker. -/
theorem clear_append_cons (hne : marker ≠ []) (hx : x ∉ marker) :
    Clear marker (before ++ x :: after) ↔ Clear marker before ∧ Clear marker after := by
  constructor
  · intro h
    have hbefore := Clear.front h
    refine ⟨hbefore, ?_⟩
    rw [Clear, scan, hbefore.scanFrom_cons hne hx] at h
    exact scanFrom_eq_none_congr _ _ h
  · rintro ⟨hbefore, hafter⟩
    rw [Clear, scan, hbefore.scanFrom_cons hne hx]
    exact scanFrom_eq_none_congr _ _ hafter

/-- Bytes that cannot begin the marker are passed over. -/
theorem scanFrom_skip {m : UInt8} {tail : Bytes} (h : m ∉ before) (passed after : Bytes) :
    scanFrom (m :: tail) (m :: tail) passed (before ++ after) =
      scanFrom (m :: tail) (m :: tail) (before.reverse ++ passed) after := by
  induction before generalizing passed with
  | nil => rfl
  | cons b before ih =>
    simp only [List.mem_cons, not_or] at h
    obtain ⟨hb, hbefore⟩ := h
    have hb : (b == m) = false := by simpa using Ne.symm hb
    rw [List.cons_append, scanFrom, hb, if_neg Bool.false_ne_true, ih hbefore]
    simp

theorem clear_append_of_not_mem {m : UInt8} {tail : Bytes} (h : m ∉ before) :
    Clear (m :: tail) (before ++ after) ↔ Clear (m :: tail) after := by
  rw [Clear, scan, scanFrom_skip h]
  exact ⟨scanFrom_eq_none_congr _ _, scanFrom_eq_none_congr _ _⟩

theorem clear_of_not_mem {m : UInt8} {tail : Bytes} (h : m ∉ bs) : Clear (m :: tail) bs := by
  have hnil : Clear (m :: tail) [] := rfl
  rw [← List.append_nil bs]
  exact (clear_append_of_not_mem h).mpr hnil

theorem scanFrom_self (hne : left ≠ []) (hle : left.length ≤ marker.length) (passed after : Bytes) :
    scanFrom marker left passed (left ++ after) =
      some ((passed.drop (marker.length - left.length)).reverse, after) := by
  induction left generalizing passed with
  | nil => exact absurd rfl hne
  | cons m left ih =>
    simp only [scanFrom, List.cons_append, beq_self_eq_true, if_true]
    cases left with
    | nil => simp
    | cons m' left =>
      simp only [List.length_cons] at hle
      have hlength : marker.length - (m' :: left).length =
          marker.length - (m :: m' :: left).length + 1 := by
        simp only [List.length_cons]
        omega
      rw [if_neg (by simp), ih (by simp) (by simp; omega), hlength, List.drop_succ_cons]

theorem scanFrom_marker (hne : marker ≠ []) (passed after : Bytes) :
    scanFrom marker marker passed (marker ++ after) = some (passed.reverse, after) := by
  simpa using scanFrom_self hne (Nat.le_refl _) passed after

/-- A line with its end, a line feed. -/
def ended (line : Bytes) : Bytes := line ++ [10]

/-- A marker after clear lines is found where they end. -/
theorem scanFrom_lines {ls : List Bytes} (hne : marker ≠ []) (hfeed : 10 ∉ marker)
    (hclear : ∀ l ∈ ls, Clear marker l) (passed after : Bytes) :
    scanFrom marker marker passed (ls.flatMap ended ++ (marker ++ after)) =
      some (passed.reverse ++ ls.flatMap ended, after) := by
  induction ls generalizing passed with
  | nil => simpa using scanFrom_marker hne passed after
  | cons l ls ih =>
    obtain ⟨hl, hls⟩ := List.forall_mem_cons.mp hclear
    have hsplit : (l :: ls).flatMap ended ++ (marker ++ after) =
        l ++ 10 :: (ls.flatMap ended ++ (marker ++ after)) := by simp [ended]
    rw [hsplit, hl.scanFrom_cons hne hfeed, ih hls]
    simp [ended]

theorem scan_lines {ls : List Bytes} (hne : marker ≠ []) (hfeed : 10 ∉ marker)
    (hclear : ∀ l ∈ ls, Clear marker l) (after : Bytes) :
    scan marker (ls.flatMap ended ++ (marker ++ after)) = some (ls.flatMap ended, after) := by
  simpa [scan] using scanFrom_lines hne hfeed hclear [] after

/-- A marker after bytes that cannot begin it is found at once. -/
theorem scan_of_not_mem {m : UInt8} {tail : Bytes} (h : m ∉ before) (after : Bytes) :
    scan (m :: tail) (before ++ (m :: tail ++ after)) = some (before, after) := by
  rw [scan, scanFrom_skip h, scanFrom_marker (by simp)]
  simp

def emptyLine : Bytes := [10, 10]

theorem scanFrom_feed {b : UInt8} (hb : b ≠ 10) (passed after : Bytes) :
    scanFrom emptyLine emptyLine passed (10 :: b :: after) =
      scanFrom emptyLine emptyLine (b :: 10 :: passed) after := by
  simp [emptyLine, scanFrom, hb]

/-- The first empty line is found after all lines that are not empty. The first of them may have
lost its beginning. -/
theorem scanFrom_emptyLine {line : Bytes} {ls : List Bytes} (hline : 10 ∉ line)
    (hls : ∀ l ∈ ls, l ≠ [] ∧ 10 ∉ l) (passed after : Bytes) :
    scanFrom emptyLine emptyLine passed (line ++ 10 :: (ls.flatMap ended ++ 10 :: after)) =
      some (passed.reverse ++ line ++ ls.flatMap (10 :: ·), after) := by
  induction ls generalizing line passed with
  | nil =>
    rw [emptyLine, scanFrom_skip hline]
    have hempty : emptyLine ≠ [] := by decide
    simpa [emptyLine] using scanFrom_marker hempty (line.reverse ++ passed) after
  | cons l ls ih =>
    obtain ⟨⟨hne, hl⟩, hrest⟩ := List.forall_mem_cons.mp hls
    cases l with
    | nil => exact absurd rfl hne
    | cons b l =>
      simp only [List.mem_cons, not_or] at hl
      obtain ⟨hb, hl⟩ := hl
      have hsplit : line ++ 10 :: (((b :: l) :: ls).flatMap ended ++ 10 :: after) =
          line ++ 10 :: b :: (l ++ 10 :: (ls.flatMap ended ++ 10 :: after)) := by simp [ended]
      rw [hsplit, emptyLine, scanFrom_skip hline, ← emptyLine, scanFrom_feed (Ne.symm hb),
        ih hl hrest]
      simp

/-- Lines that are not empty hold no empty line. -/
theorem clear_emptyLine {ls : List Bytes} (hls : ∀ l ∈ ls, l ≠ [] ∧ 10 ∉ l) :
    Clear emptyLine (ls.flatMap ended) := by
  cases ls with
  | nil => rfl
  | cons line ls =>
    obtain ⟨⟨-, hline⟩, hrest⟩ := List.forall_mem_cons.mp hls
    -- With one more line feed the first empty line is the end.
    have hend := scanFrom_emptyLine hline hrest [] []
    have hsplit : line ++ 10 :: (ls.flatMap ended ++ [10]) =
        (line :: ls).flatMap ended ++ [10] := by
      simp [ended]
    rw [hsplit] at hend
    unfold Clear
    cases hscan : scan emptyLine ((line :: ls).flatMap ended) with
    | none => rfl
    | some parts =>
      rw [scanFrom_append hscan [10]] at hend
      simp at hend

@[simp] theorem skipBlanks_feed (bs : Bytes) : skipBlanks (10 :: bs) = skipBlanks bs := rfl

theorem skipBlanks_eq (h : ∀ b ∈ bs.head?, b ≠ 32 ∧ b ≠ 9 ∧ b ≠ 10 ∧ b ≠ 13) :
    skipBlanks bs = bs := by
  cases bs with
  | nil => rfl
  | cons b bs => simp [skipBlanks, h b rfl]

end CertBroker.Pem
