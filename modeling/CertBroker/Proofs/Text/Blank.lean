import CertBroker.Text.Blank

namespace CertBroker.Text

variable {c : Char} {cs : List Char} {s : String}

theorem exists_trimStartChars (cs : List Char) :
    ∃ lead, cs = lead ++ trimStartChars cs ∧ ∀ c ∈ lead, isBlank c = true :=
  ⟨cs.takeWhile isBlank, List.takeWhile_append_dropWhile.symm,
    List.all_eq_true.mp List.all_takeWhile⟩

theorem exists_trimEndChars (cs : List Char) :
    ∃ trail, cs = trimEndChars cs ++ trail ∧ ∀ c ∈ trail, isBlank c = true := by
  obtain ⟨lead, hlead, hblank⟩ := exists_trimStartChars cs.reverse
  refine ⟨lead.reverse, ?_, fun c hc => hblank c (List.mem_reverse.mp hc)⟩
  have hturned := congrArg List.reverse hlead
  rw [List.reverse_reverse, List.reverse_append] at hturned
  exact hturned

/-- A text is its trimmed part between blanks. -/
theorem exists_trim (s : String) : ∃ lead trail, s.toList = lead ++ ((trim s).toList ++ trail) ∧
    (∀ c ∈ lead, isBlank c = true) ∧ ∀ c ∈ trail, isBlank c = true := by
  obtain ⟨lead, hlead, hleading⟩ := exists_trimStartChars s.toList
  obtain ⟨trail, htrail, htrailing⟩ := exists_trimEndChars (trimStartChars s.toList)
  refine ⟨lead, trail, ?_, hleading, htrailing⟩
  rw [trim, String.toList_ofList, ← htrail]
  exact hlead

theorem isBlank_head_trimStartChars (h : (trimStartChars cs).head? = some c) :
    isBlank c = false := by
  have hhead := List.head?_dropWhile_not isBlank cs
  rw [trimStartChars] at h
  rw [h] at hhead
  exact hhead

theorem isBlank_last_trim (h : (trim s).toList.getLast? = some c) : isBlank c = false := by
  rw [trim, String.toList_ofList, trimEndChars, List.getLast?_reverse] at h
  exact isBlank_head_trimStartChars h

theorem isBlank_head_trim (h : (trim s).toList.head? = some c) : isBlank c = false := by
  obtain ⟨trail, htrail, -⟩ := exists_trimEndChars (trimStartChars s.toList)
  rw [trim, String.toList_ofList] at h
  have hstart : (trimStartChars s.toList).head? = some c := by
    rw [htrail, List.head?_append, h]
    rfl
  exact isBlank_head_trimStartChars hstart

/-- Trimming keeps what is not blank. -/
theorem mem_trim (h : c ∈ s.toList) (hc : isBlank c = false) : c ∈ (trim s).toList := by
  obtain ⟨lead, trail, hs, hleading, htrailing⟩ := exists_trim s
  rw [hs] at h
  rcases List.mem_append.mp h with h | h
  · exact absurd (hleading c h) (by simp [hc])
  rcases List.mem_append.mp h with h | h
  · exact h
  · exact absurd (htrailing c h) (by simp [hc])

theorem mem_of_mem_trim (h : c ∈ (trim s).toList) : c ∈ s.toList := by
  obtain ⟨lead, trail, hs, -, -⟩ := exists_trim s
  rw [hs]
  exact List.mem_append_right _ (List.mem_append_left _ h)

theorem trimStartChars_of_head (h : ∀ c, cs.head? = some c → isBlank c = false) :
    trimStartChars cs = cs := by
  cases cs with
  | nil => rfl
  | cons c cs => simp [trimStartChars, h c rfl]

@[simp] theorem trim_trim (s : String) : trim (trim s) = trim s := by
  have hstart : trimStartChars (trim s).toList = (trim s).toList :=
    trimStartChars_of_head fun c hc => isBlank_head_trim hc
  have hend : trimStartChars (trim s).toList.reverse = (trim s).toList.reverse := by
    refine trimStartChars_of_head fun c hc => ?_
    rw [List.head?_reverse] at hc
    exact isBlank_last_trim hc
  have hback : trimEndChars (trim s).toList = (trim s).toList := by
    rw [trimStartChars] at hend
    rw [trimEndChars, hend, List.reverse_reverse]
  rw [trim, hstart, hback, String.ofList_toList]

end CertBroker.Text
