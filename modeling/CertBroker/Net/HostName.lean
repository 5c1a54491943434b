namespace CertBroker.HostName

/-- A character that no name holds. -/
def isForbidden (c : Char) : Bool :=
  c.toNat ≤ 0x20 || c.toNat == 0x7f || "%#/:<>?@[\\]^|".toList.contains c

def isAscii (cs : List Char) : Bool := cs.all fun c => c.toNat < 0x80

/-- The beginning of labels in Punycode. -/
def punycodeStart : List Char := ['x', 'n', '-', '-']

/-- The parts of a list between the elements that are `sep`. -/
def splitAtEach [BEq α] (sep : α) : List α → List (List α)
  | [] => [[]]
  | a :: rest =>
    match splitAtEach sep rest with
    | [] => [[a]]
    | part :: parts => if a == sep then [] :: part :: parts else (a :: part) :: parts

/-- The rules by which international names are written in ASCII: names with characters beyond ASCII,
and names with labels in Punycode. They stand in tables of all characters, so they are taken as
given. -/
class Rules where
  toAscii? : List Char → Option (List Char)
  /-- Blanks are not resolved, and no name holds them. -/
  refuses_blank : ∀ {cs : List Char} {c : Char}, c ∈ cs → c.toNat ≤ 0x20 → toAscii? cs = none

/-- Whether a name is read without rules for international ones. -/
def isPlain (cs : List Char) : Bool :=
  isAscii cs && (splitAtEach '.' (cs.map Char.toLower)).all fun label =>
    !punycodeStart.isPrefixOf label

/-- A name in ASCII and in small letters. -/
def toAscii? [Rules] (cs : List Char) : Option (List Char) :=
  (if isPlain cs then some (cs.map Char.toLower) else Rules.toAscii? cs).filter fun name =>
    !name.any isForbidden

theorem toAscii?_of_blank [Rules] {cs : List Char} {c : Char} (hc : c ∈ cs)
    (h : c.toNat ≤ 0x20) : toAscii? cs = none := by
  unfold toAscii?
  split
  next =>
    -- Blanks have no small forms, so the name still holds this one.
    have hlower : c.toLower = c := by
      have hcapital : ¬ (c.val ≥ 'A'.val ∧ c.val ≤ 'Z'.val) := by
        rintro ⟨hge, -⟩
        have hge : 65 ≤ c.toNat := UInt32.le_iff_toNat_le.mp hge
        omega
      exact dif_neg hcapital
    have hmem : c ∈ cs.map Char.toLower := List.mem_map.mpr ⟨c, hc, hlower⟩
    have hforbidden : isForbidden c = true := by simp [isForbidden, h]
    have hany : (cs.map Char.toLower).any isForbidden = true :=
      List.any_eq_true.mpr ⟨c, hmem, hforbidden⟩
    rw [Option.filter_some, hany]
    rfl
  next =>
    rw [Rules.refuses_blank hc h]
    rfl

end CertBroker.HostName
