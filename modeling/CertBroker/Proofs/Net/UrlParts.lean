import CertBroker.Net.Url
import CertBroker.Proofs.Text.Utf8
import CertBroker.Proofs.Net.UrlPath
import Mathlib.Data.List.TakeDrop

namespace CertBroker.Net

open PercentCode

namespace Url

variable {c : Char}

/-- There are few blanks, so what holds of each can be computed. -/
@[elab_as_elim]
theorem of_isBlank {P : Char → Prop} (h : isBlank c = true)
    (hall : ∀ n ∈ List.range 33, P (Char.ofNat n)) : P c := by
  have hc : c.toNat ≤ 32 := by simpa [isBlank] using h
  simpa using hall c.toNat (List.mem_range.mpr (by omega))

theorem endsAuthority_of_isBlank (h : isBlank c = true) : endsAuthority true c = false :=
  of_isBlank h (by decide)

theorem not_isSlash (h : endsAuthority true c = false) : isSlash true c = false := by
  simp only [endsAuthority, Bool.or_eq_false_iff] at h
  exact h.1.1

/-- A blank at the end is no part of a code. -/
theorem decode_concat_of_isBlank (h : isBlank c = true) (cs : List Char) :
    decode (bytesOf (cs ++ [c])) = decode (bytesOf cs) ++ [UInt8.ofNat c.toNat] := by
  have hc : c.toNat < 0x80 := of_isBlank h (by decide)
  have hvalue : value? (UInt8.ofNat c.toNat) = none := of_isBlank h (by decide)
  rw [bytesOf_append, bytesOf_cons, Utf8.utf8EncodeChar_of_lt hc]
  exact decode_concat hvalue _

end Url

namespace Host

open Url (isBlank)

variable [HostName.Rules] {cs : List Char} {c : Char} {host : Host}

/-- A host does not end in a blank. -/
theorem parse?_of_isBlank (h : isBlank c = true) : Host.parse? (cs ++ [c]) = none := by
  have hbracket : c ≠ ']' := Url.of_isBlank h (by decide)
  have hlow : (UInt8.ofNat c.toNat).toNat = c.toNat := Url.of_isBlank h (by decide)
  have hascii : c.toNat < 0x80 := Url.of_isBlank h (by decide)
  unfold Host.parse?
  split
  next => simp [bracketed?, hbracket]
  next =>
    rw [← bytesOf_toList, String.toList_ofList, Url.decode_concat_of_isBlank h]
    cases hdecoded : Utf8.decode (PercentCode.decode (bytesOf cs) ++ [UInt8.ofNat c.toNat]) with
    | error => rfl
    | ok text =>
      have hmem : UInt8.ofNat c.toNat ∈ Utf8.encode text := by
        rw [Utf8.encode_of_decode hdecoded]
        simp
      have hc := (Utf8.mem_encode_iff (by omega)).mp hmem
      rw [hlow, Char.ofNat_toNat] at hc
      have hrefused := HostName.toAscii?_of_blank hc (by simpa [Url.isBlank] using h)
      simp [Except.toOption, hrefused]

/-- A host is never an empty name. -/
theorem parse?_ne_empty (h : Host.parse? cs = some host) : host ≠ .name "" := by
  unfold Host.parse? at h
  split at h
  next =>
    obtain ⟨ip, -, rfl⟩ := Option.map_eq_some_iff.mp h
    exact fun h => by cases h
  next =>
    simp only [Option.bind_eq_bind, Option.bind_eq_some_iff] at h
    obtain ⟨decoded, -, name, -, h⟩ := h
    split at h
    next => cases h
    next hne =>
      split at h
      next =>
        obtain ⟨ip, -, hip⟩ := Option.bind_eq_some_iff.mp h
        cases hip
        exact fun h => by cases h
      next =>
        cases h
        intro heq
        injection heq with heq
        exact hne (by simpa using heq)

end Host

namespace Url

variable {scheme : String} {s x : String} {cs rest left site trail : List Char} {c : Char}
  {more : Bool} {u : Url}

/-- What counts of a text that goes on. -/
def counted (s : String) : List Char := (s.toList.dropWhile isBlank).filter (!isDropped ·)

/-- What counts of characters with which a text ends. -/
def ended (cs : List Char) : List Char := (cs.rdropWhile isBlank).filter (!isDropped ·)

theorem not_isDropped (h : isBlank c = false) : isDropped c = false := by
  refine Bool.eq_false_iff.mpr fun hdropped => ?_
  simp only [isDropped, Bool.or_eq_true, beq_iff_eq] at hdropped
  rcases hdropped with (rfl | rfl) | rfl <;> cases h

theorem rdropWhile_append_slash (cs rest : List Char) :
    (cs ++ '/' :: rest).rdropWhile isBlank = cs ++ '/' :: rest.rdropWhile isBlank := by
  induction rest using List.reverseRecOn with
  | nil => exact List.rdropWhile_concat_neg _ _ _ (by decide)
  | append_singleton rest c ih =>
    rw [← List.cons_append, ← List.append_assoc]
    by_cases hc : isBlank c = true
    · rw [List.rdropWhile_concat_pos _ _ _ hc, List.rdropWhile_concat_pos _ _ _ hc, ih]
    · rw [List.rdropWhile_concat_neg _ _ _ hc, List.rdropWhile_concat_neg _ _ _ hc]
      simp

/-- What follows a text after a slash is read by itself. -/
theorem relevant_append (s : String) (h : x.toList = '/' :: rest) :
    relevant (s ++ x) = counted s ++ '/' :: ended rest := by
  have hfront : (s.toList ++ '/' :: rest).dropWhile isBlank =
      s.toList.dropWhile isBlank ++ '/' :: rest := by
    rw [List.dropWhile_append]
    split
    next hempty =>
      rw [List.isEmpty_iff.mp hempty]
      rfl
    next => rfl
  have hrelevant : relevant (s ++ x) =
      ((((s ++ x).toList).dropWhile isBlank).rdropWhile isBlank).filter (!isDropped ·) := rfl
  rw [hrelevant, String.toList_append, h, hfront, rdropWhile_append_slash, List.filter_append]
  rfl

/-- A text that goes on keeps the blanks before what follows. -/
theorem counted_eq (s : String) :
    ∃ trail, counted s = relevant s ++ trail ∧ ∀ c ∈ trail, isBlank c = true := by
  refine ⟨((s.toList.dropWhile isBlank).rtakeWhile isBlank).filter (!isDropped ·), ?_,
    fun c hc => List.mem_rtakeWhile_imp (List.mem_of_mem_filter hc)⟩
  have hwhole : (s.toList.dropWhile isBlank).rdropWhile isBlank ++
      (s.toList.dropWhile isBlank).rtakeWhile isBlank = s.toList.dropWhile isBlank :=
    List.rdropWhile_append_rtakeWhile
  rw [counted, ← congrArg (List.filter (!isDropped ·)) hwhole, List.filter_append]
  rfl

/-- What counts of a text does not end in a blank. -/
theorem not_isBlank_of_getLast? (h : (relevant s).getLast? = some c) : isBlank c = false := by
  have hrelevant : relevant s = ended (s.toList.dropWhile isBlank) := rfl
  rw [hrelevant, ended] at h
  rcases List.eq_nil_or_concat' ((s.toList.dropWhile isBlank).rdropWhile isBlank) with
    hnil | ⟨front, last, hlast⟩
  · rw [hnil] at h
    cases h
  · have hblank : isBlank last = false := by
      have hnot := List.rdropWhile_last_not isBlank (s.toList.dropWhile isBlank) (by simp [hlast])
      simpa [hlast] using hnot
    rw [hlast, List.filter_append, List.filter_cons, not_isDropped hblank] at h
    cases (List.getLast?_concat).symm.trans h
    exact hblank

theorem mem_relevant_iff (h : isBlank c = false) : c ∈ relevant s ↔ c ∈ s.toList := by
  have hkept : (!isDropped c) = true := by simp [not_isDropped h]
  have hblank {cs : List Char} (hcs : ∀ c ∈ cs, isBlank c = true) : c ∉ cs := fun hc => by
    rw [hcs c hc] at h
    cases h
  have hfront : c ∈ s.toList.dropWhile isBlank ↔ c ∈ s.toList := by
    have hwhole : s.toList.takeWhile isBlank ++ s.toList.dropWhile isBlank = s.toList :=
      List.takeWhile_append_dropWhile
    conv => rhs; rw [← hwhole]
    rw [List.mem_append, or_iff_right (hblank fun c hc => List.mem_takeWhile_imp hc)]
  have hend (cs : List Char) : c ∈ cs.rdropWhile isBlank ↔ c ∈ cs := by
    have hwhole : cs.rdropWhile isBlank ++ cs.rtakeWhile isBlank = cs :=
      List.rdropWhile_append_rtakeWhile
    conv => rhs; rw [← hwhole]
    rw [List.mem_append, or_iff_left (hblank fun c hc => List.mem_rtakeWhile_imp hc)]
  have hrelevant : relevant s =
      ((s.toList.dropWhile isBlank).rdropWhile isBlank).filter (!isDropped ·) := rfl
  rw [hrelevant, List.mem_filter, and_iff_left hkept, hend, hfront]

theorem ended_of_visible (h : ∀ c ∈ cs, isBlank c = false) : ended cs = cs := by
  have hkept : cs.rdropWhile isBlank = cs :=
    List.rdropWhile_eq_self_iff.mpr fun hne => by simp [h _ (List.getLast_mem hne)]
  rw [ended, hkept]
  exact List.filter_eq_self.mpr fun c hc => by simp [not_isDropped (h c hc)]

theorem splitEnd_append (h : ∀ c ∈ cs, c ≠ '?' ∧ c ≠ '#') (rest : List Char) :
    splitEnd (cs ++ rest) = (cs ++ (splitEnd rest).1, (splitEnd rest).2) := by
  have hall : ∀ c ∈ cs, (c != '?' && c != '#') = true := fun c hc => by simp [h c hc]
  rw [splitEnd, splitEnd, List.span_eq_takeWhile_dropWhile, List.span_eq_takeWhile_dropWhile,
    List.takeWhile_append_of_pos hall, List.dropWhile_append_of_pos hall]

theorem splitEnd_of_plain (h : ∀ c ∈ cs, c ≠ '?' ∧ c ≠ '#') : splitEnd cs = (cs, []) := by
  have happend := splitEnd_append h []
  have hnil : splitEnd [] = ([], []) := rfl
  rwa [List.append_nil, hnil, List.append_nil] at happend

theorem splitEnd_append_slash (h : ∀ c ∈ cs, c ≠ '?' ∧ c ≠ '#') (rest : List Char) :
    splitEnd (cs ++ '/' :: rest) = (cs ++ '/' :: (splitEnd rest).1, (splitEnd rest).2) := by
  have hplain : ∀ c ∈ ['/'], c ≠ '?' ∧ c ≠ '#' := by simp
  have hslash : splitEnd ('/' :: rest) = ('/' :: (splitEnd rest).1, (splitEnd rest).2) :=
    splitEnd_append hplain rest
  rw [splitEnd_append h, hslash]

theorem splitEnd_cons (h : c = '?' ∨ c = '#') (cs : List Char) :
    splitEnd (c :: cs) = ([], c :: cs) := by
  rw [splitEnd, List.span_eq_takeWhile_dropWhile]
  rcases h with rfl | rfl <;> rfl

/-- A text is a path, with neither question mark nor number sign, and an end. -/
theorem exists_splitEnd (cs : List Char) :
    ∃ path ending, cs = path ++ ending ∧ (∀ c ∈ path, c ≠ '?' ∧ c ≠ '#') ∧
      ∀ c ∈ ending.head?, c = '?' ∨ c = '#' := by
  refine ⟨cs.takeWhile fun c => c != '?' && c != '#', cs.dropWhile fun c => c != '?' && c != '#',
    List.takeWhile_append_dropWhile.symm, fun c hc => ?_, fun c hc => ?_⟩
  · simpa using List.mem_takeWhile_imp hc
  · have hnot := List.head?_dropWhile_not (fun c => c != '?' && c != '#') cs
    rw [hc] at hnot
    exact (Bool.and_eq_false_iff.mp hnot).imp (by simp) (by simp)

theorem drop_hostLength (inBrackets : Bool) (cs : List Char) :
    cs.drop (hostLength inBrackets cs) = [] ∨
      ∃ rest, cs.drop (hostLength inBrackets cs) = ':' :: rest := by
  fun_induction hostLength inBrackets cs with
  | case1 => exact .inl rfl
  | case2 inBrackets c rest h =>
    have hc : c = ':' := by simpa using (Bool.and_eq_true_iff.mp h).1
    exact .inr ⟨rest, by rw [hc]; rfl⟩
  | case3 inBrackets c rest h ih => simpa [Nat.add_comm 1] using ih

theorem hostLength_le (inBrackets : Bool) (cs : List Char) :
    hostLength inBrackets cs ≤ cs.length := by
  fun_induction hostLength inBrackets cs with
  | case1 => exact Nat.le_refl _
  | case2 => exact Nat.zero_le _
  | case3 inBrackets c rest h ih => simp only [List.length_cons]; omega

/-- The part of an authority with host and port ends it. -/
theorem splitUser_suffix (cs : List Char) : ∃ front, cs = front ++ (splitUser cs).2 := by
  unfold splitUser
  split
  next =>
    refine ⟨(cs.reverse.dropWhile (· != '@')).reverse, ?_⟩
    rw [← List.reverse_append, List.takeWhile_append_dropWhile, List.reverse_reverse]
  next => exact ⟨[], rfl⟩

theorem drop_length_takeWhile (p : Char → Bool) (cs : List Char) :
    cs.drop (cs.takeWhile p).length = cs.dropWhile p := by
  conv => lhs; rhs; rw [← List.takeWhile_append_dropWhile (p := p) (l := cs)]
  exact List.drop_left

theorem port?_eq_some {port : Option Nat} (h : port? cs = some (port, left)) :
    left = cs.dropWhile Text.isDigit ∧ (left = [] ∨ '\\' ∈ left) := by
  unfold port? at h
  simp only at h
  split at h
  next => cases h
  next hends =>
    obtain ⟨-, rfl⟩ := Prod.mk.inj (Option.some.inj h)
    refine ⟨drop_length_takeWhile _ cs, ?_⟩
    simp only [Bool.or_eq_true, Bool.not_eq_true', not_or, Bool.not_eq_false] at hends
    rcases hends.2 with hempty | hback
    · exact .inl (List.isEmpty_iff.mp hempty)
    · exact .inr (List.mem_of_head? (by simpa using hback))

/-- The scheme does not depend on what follows it. -/
theorem scheme?_eq_some (h : scheme? cs = some (scheme, rest)) :
    ∃ front, cs = front ++ rest ∧ (∀ other, scheme? (front ++ other) = some (scheme, other)) ∧
      ∀ c ∈ front, c ≠ '?' ∧ c ≠ '#' := by
  unfold scheme? at h
  split at h
  next => cases h
  next hhead =>
    have hwhole := List.takeWhile_append_dropWhile (p := isSchemeChar) (l := cs)
    have hname : ∀ c ∈ cs.takeWhile isSchemeChar, isSchemeChar c = true :=
      fun c hc => List.mem_takeWhile_imp hc
    simp only [drop_length_takeWhile] at h
    generalize cs.takeWhile isSchemeChar = name at h hwhole hname
    split at h
    next rest' hrest =>
      cases h
      rw [hrest] at hwhole
      refine ⟨name ++ [':'], by simpa using hwhole.symm, fun other => ?_, fun c hc => ?_⟩
      · have hletter : (name ++ ':' :: other).head?.any isLetter = true := by
          cases name with
          | nil =>
            rw [← hwhole] at hhead
            exact absurd rfl hhead
          | cons a name =>
            rw [← hwhole] at hhead
            simpa using hhead
        have htake : (name ++ ':' :: other).takeWhile isSchemeChar = name := by
          rw [List.takeWhile_append_of_pos hname, List.takeWhile_cons_of_neg (by decide),
            List.append_nil]
        rw [List.append_assoc, List.singleton_append, scheme?, hletter]
        simp [htake]
      · rcases List.mem_append.mp hc with hc | hc
        · exact ⟨by rintro rfl; exact absurd (hname _ hc) (by decide),
            by rintro rfl; exact absurd (hname _ hc) (by decide)⟩
        · rw [List.mem_singleton.mp hc]
          decide
    next => cases h

/-- The URL with a path and an end, of which the scheme and the authority are read. -/
def goingOn (u : Url) (cs : List Char) : Url :=
  { u with path := pathAfterAuthority true (splitEnd cs).1 }.withEnd (splitEnd cs).2

/-- Whether a text could follow an authority. -/
def Follows (cs : List Char) : Prop := ∀ c ∈ cs.head?, endsAuthority true c = true

section

variable [HostName.Rules]

/-- The host of an authority. -/
def hostOf? (scheme : String) (cs : List Char) : Option Host :=
  if isSpecial scheme then Host.parse? cs else Host.parseOther? cs

/-- What an authority is read from: a user, a host, and a port after a colon. -/
theorem authority_eq_ok (h : authority scheme cs more = .ok (u, left)) :
    ∃ front hostChars after host, cs = front ++ (hostChars ++ after) ∧
      hostOf? scheme hostChars = some host ∧ u.host = some host ∧ u.scheme = scheme ∧
      (isSpecial scheme = true → hostChars ≠ []) ∧
      (after = [] ∧ left = [] ∨
        ∃ digits port, after = ':' :: digits ∧ port? digits = some (port, left)) := by
  obtain ⟨front, hfront⟩ := splitUser_suffix cs
  have hends := drop_hostLength false (splitUser cs).2
  have hdrop : (splitUser cs).2.drop
      ((splitUser cs).2.take (hostLength false (splitUser cs).2)).length =
      (splitUser cs).2.drop (hostLength false (splitUser cs).2) := by
    rw [List.length_take, Nat.min_eq_left (hostLength_le ..)]
  rw [← List.take_append_drop (hostLength false (splitUser cs).2) (splitUser cs).2] at hfront
  unfold authority at h
  simp only [hdrop] at h
  generalize (splitUser cs).2.take (hostLength false (splitUser cs).2) = hostChars at h hfront
  generalize (splitUser cs).2.drop (hostLength false (splitUser cs).2) = after at h hfront hends
  cases hhost : hostOf? scheme hostChars with
  | none =>
    simp only [hostOf?] at hhost
    simp only [hhost] at h
    split at h <;> cases h
  | some host =>
    have hread := hhost
    simp only [hostOf?] at hhost
    simp only [hhost, pure_bind] at h
    split at h
    next => cases h
    next hne =>
      have hhostChars : isSpecial scheme = true → hostChars ≠ [] := fun hspecial hnil => by
        simp [hspecial, hnil] at hne
      refine ⟨front, hostChars, after, host, hfront, hread, ?_⟩
      rcases hends with rfl | ⟨digits, rfl⟩
      · cases h
        exact ⟨rfl, rfl, hhostChars, .inl ⟨rfl, rfl⟩⟩
      · cases hport : port? digits with
        | none =>
          simp only [hport] at h
          cases h
        | some found =>
          simp only [hport] at h
          cases h
          exact ⟨rfl, rfl, hhostChars, .inr ⟨digits, found.1, rfl, hport⟩⟩

/-- Whether the URL goes on matters to other schemes alone. -/
theorem authority_more (hspecial : isSpecial scheme = true) (cs : List Char) (more : Bool) :
    authority scheme cs more = authority scheme cs true := by
  simp [authority, hspecial]

theorem authority_left (hback : '\\' ∉ cs) (h : authority scheme cs more = .ok (u, left)) :
    left = [] := by
  obtain ⟨front, hostChars, after, host, rfl, -, -, -, -, hafter⟩ := authority_eq_ok h
  rcases hafter with ⟨-, hleft⟩ | ⟨digits, port, rfl, hport⟩
  · exact hleft
  · obtain ⟨hdrop, hleft | hmem⟩ := port?_eq_some hport
    · exact hleft
    · rw [hdrop] at hmem
      have hdigits := (List.dropWhile_sublist _).subset hmem
      exact absurd (by simp [hdigits]) hback

theorem authority_hasHost (hspecial : isSpecial scheme = true)
    (h : authority scheme cs more = .ok (u, left)) : cs ≠ [] ∧ u.hasHost = true := by
  obtain ⟨front, hostChars, after, host, rfl, hread, hhost, -, hne, -⟩ := authority_eq_ok h
  rw [hostOf?, if_pos hspecial] at hread
  exact ⟨by simp [hne hspecial], by simp [hasHost, hhost, Host.parse?_ne_empty hread]⟩

/-- No authority ends in a blank. -/
theorem authority_getLast? (hspecial : isSpecial scheme = true) (hback : '\\' ∉ cs)
    (h : authority scheme cs more = .ok (u, left)) (hc : cs.getLast? = some c) :
    isBlank c = false := by
  obtain ⟨front, hostChars, after, host, rfl, hread, -, -, hne, hafter⟩ := authority_eq_ok h
  rw [hostOf?, if_pos hspecial] at hread
  refine Bool.eq_false_iff.mpr fun hblank => ?_
  rcases hafter with ⟨rfl, -⟩ | ⟨digits, port, rfl, hport⟩
  · obtain ⟨init, last, rfl⟩ := (List.eq_nil_or_concat' hostChars).resolve_left (hne hspecial)
    rw [List.append_nil, ← List.append_assoc, List.getLast?_concat] at hc
    cases hc
    rw [Host.parse?_of_isBlank hblank] at hread
    cases hread
  · rcases List.eq_nil_or_concat' digits with rfl | ⟨init, last, rfl⟩
    · rw [← List.append_assoc, List.getLast?_concat] at hc
      cases hc
      revert hblank
      decide
    · rw [← List.cons_append, ← List.append_assoc, ← List.append_assoc,
        List.getLast?_concat] at hc
      cases hc
      have hdigits := List.dropWhile_eq_nil_iff.mp
        ((port?_eq_some hport).1.symm.trans (authority_left hback h))
      have hnone : Text.isDigit c = false := of_isBlank hblank (by decide)
      rw [hdigits c (by simp)] at hnone
      cases hnone

/-- Reads what counts of a text. -/
def readChars (cs : List Char) : Except Fault Url :=
  match scheme? cs with
  | none => .error .relative
  | some (scheme, rest) =>
    if scheme = "file" then ofFile rest
    else if isSpecial scheme then afterSlashes scheme (rest.dropWhile (isSlash true))
    else match rest with
      | '/' :: '/' :: rest => afterSlashes scheme rest
      | rest => .ok (withoutAuthority scheme rest)

theorem parse_eq (s : String) : parse s = readChars (relevant s) := rfl

/-- A text with which URLs of the web begin: scheme, slashes and authority. -/
structure IsSite (site : List Char) (u : Url) : Prop where
  read : ∀ rest, Follows rest → readChars (site ++ rest) = .ok (u.goingOn rest)
  /-- Blanks spoil the authority. -/
  closed : ∀ trail rest, trail ≠ [] → (∀ c ∈ trail, isBlank c = true) → Follows rest →
    ∃ fault, readChars (site ++ (trail ++ rest)) = .error fault
  plain : ∀ c ∈ site, c ≠ '?' ∧ c ≠ '#'
  last : ∀ c ∈ site.getLast?, c ≠ '/'
  host : u.hasHost = true

theorem afterSlashes_scheme {v : Url} (h : afterSlashes scheme cs = .ok v) : v.scheme = scheme := by
  unfold afterSlashes at h
  simp only at h
  cases hauthority : authority scheme (cs.span fun c => !endsAuthority (isSpecial scheme) c).1
      (!(cs.span fun c => !endsAuthority (isSpecial scheme) c).2.isEmpty) with
  | error fault =>
    rw [hauthority] at h
    cases h
  | ok found =>
    obtain ⟨-, -, -, -, -, -, -, hscheme, -⟩ := authority_eq_ok hauthority
    rw [hauthority] at h
    cases h
    exact hscheme

theorem ofFile_scheme {v : Url} (h : ofFile cs = .ok v) : v.scheme = "file" := by
  unfold ofFile at h
  simp only [pure_bind] at h
  repeat' split at h
  all_goals first | (cases h; rfl) | cases h

/-- A text is read up to its authority, and from there on. -/
theorem afterSlashes_append (hspecial : isSpecial scheme = true)
    (hcs : ∀ c ∈ cs, endsAuthority true c = false) (hrest : Follows rest) :
    afterSlashes scheme (cs ++ rest) =
      (authority scheme cs true).map fun found => found.1.goingOn rest := by
  have hback : '\\' ∉ cs := fun hmem => absurd (hcs _ hmem) (by decide)
  have hall : ∀ c ∈ cs, (!endsAuthority true c) = true := fun c hc => by simp [hcs c hc]
  have hspan : (cs ++ rest).span (fun c => !endsAuthority true c) = (cs, rest) := by
    rw [List.span_eq_takeWhile_dropWhile, List.takeWhile_append_of_pos hall,
      List.dropWhile_append_of_pos hall]
    cases rest with
    | nil => simp
    | cons d rest => simp [hrest d rfl]
  unfold afterSlashes
  simp only [hspecial, hspan, authority_more hspecial]
  cases hauthority : authority scheme cs true with
  | error fault => rfl
  | ok found =>
    have hleft := authority_left hback hauthority
    simp only [bind, Except.bind, pure, Except.pure, Except.map, goingOn, hleft, List.nil_append]

theorem isSite {front slashes : List Char}
    (hfront : ∀ other, scheme? (front ++ other) = some (scheme, other))
    (hplain : ∀ c ∈ front, c ≠ '?' ∧ c ≠ '#') (hspecial : isSpecial scheme = true)
    (hfile : scheme ≠ "file") (hslashes : ∀ c ∈ slashes, isSlash true c = true)
    (hcs : ∀ c ∈ cs, endsAuthority true c = false)
    (h : authority scheme cs true = .ok (u, left)) : IsSite (front ++ (slashes ++ cs)) u := by
  have hback : '\\' ∉ cs := fun hmem => absurd (hcs _ hmem) (by decide)
  obtain ⟨hne, hhost⟩ := authority_hasHost hspecial h
  have hread (more rest : List Char) (hmore : ∀ c ∈ more, endsAuthority true c = false)
      (hrest : Follows rest) : readChars (front ++ (slashes ++ cs) ++ (more ++ rest)) =
        (authority scheme (cs ++ more) true).map fun found => found.1.goingOn rest := by
    have hdrop : (slashes ++ cs ++ (more ++ rest)).dropWhile (isSlash true) =
        cs ++ more ++ rest := by
      obtain ⟨d, ds, rfl⟩ := List.exists_cons_of_ne_nil hne
      have hd := not_isSlash (hcs d List.mem_cons_self)
      rw [List.append_assoc, List.dropWhile_append_of_pos hslashes]
      simp [hd]
    rw [readChars, List.append_assoc, hfront]
    simp only [if_neg hfile, hspecial, if_true, hdrop]
    exact afterSlashes_append hspecial
      (fun c hc => (List.mem_append.mp hc).elim (hcs c) (hmore c)) hrest
  constructor
  case read =>
    intro rest hrest
    have hnone := hread [] rest (by simp) hrest
    rw [List.append_nil, h] at hnone
    exact hnone
  case closed =>
    intro trail rest htrail hblanks hrest
    have hmore : ∀ c ∈ trail, endsAuthority true c = false := fun c hc =>
      endsAuthority_of_isBlank (hblanks c hc)
    rw [hread trail rest hmore hrest]
    cases hauthority : authority scheme (cs ++ trail) true with
    | error fault => exact ⟨fault, rfl⟩
    | ok found =>
      obtain ⟨init, last, rfl⟩ := (List.eq_nil_or_concat' trail).resolve_left htrail
      have hback' : '\\' ∉ cs ++ (init ++ [last]) := fun hmem =>
        (List.mem_append.mp hmem).elim hback fun hmem => absurd (hmore _ hmem) (by decide)
      have hlast := authority_getLast? hspecial hback' hauthority
        (by rw [← List.append_assoc, List.getLast?_concat])
      rw [hblanks last (by simp)] at hlast
      cases hlast
  case plain =>
    intro c hc
    rcases List.mem_append.mp hc with hc | hc
    · exact hplain c hc
    · rcases List.mem_append.mp hc with hc | hc
      · have hslash := hslashes c hc
        constructor <;> (rintro rfl; cases hslash)
      · have hends := hcs c hc
        constructor <;> (rintro rfl; cases hends)
  case last =>
    intro c hc
    obtain ⟨init, last, rfl⟩ := (List.eq_nil_or_concat' cs).resolve_left hne
    rw [← List.append_assoc, ← List.append_assoc, List.getLast?_concat] at hc
    cases hc
    rintro rfl
    cases hcs '/' (by simp)
  case host => exact hhost

/-- Every URL of the web begins with a site. -/
theorem exists_site {base : Url} (h : readChars cs = .ok base)
    (hspecial : isSpecial base.scheme = true) (hfile : base.scheme ≠ "file") :
    ∃ site u rest, cs = site ++ rest ∧ Follows rest ∧ base = u.goingOn rest ∧ IsSite site u := by
  unfold readChars at h
  split at h
  next => cases h
  next scheme body hscheme =>
    split at h
    next => exact absurd (ofFile_scheme h) hfile
    next hnofile =>
      split at h
      next hspecial' =>
        obtain ⟨front, rfl, hfront, hplain⟩ := scheme?_eq_some hscheme
        have hslashes := List.takeWhile_append_dropWhile (p := isSlash true) (l := body)
        have hends := List.takeWhile_append_dropWhile (p := fun c => !endsAuthority true c)
          (l := body.dropWhile (isSlash true))
        have hcs : ∀ c ∈ (body.dropWhile (isSlash true)).takeWhile (fun c => !endsAuthority true c),
            endsAuthority true c = false := fun c hc => by simpa using List.mem_takeWhile_imp hc
        have hrest : Follows ((body.dropWhile (isSlash true)).dropWhile
            fun c => !endsAuthority true c) := by
          intro c hc
          have hnot := List.head?_dropWhile_not (fun c => !endsAuthority true c)
            (body.dropWhile (isSlash true))
          rw [hc] at hnot
          simpa using hnot
        generalize (body.dropWhile (isSlash true)).takeWhile (fun c => !endsAuthority true c) = cs
          at hends hcs
        generalize (body.dropWhile (isSlash true)).dropWhile (fun c => !endsAuthority true c) =
          rest at hends hrest
        rw [← hends, afterSlashes_append hspecial' hcs hrest] at h
        cases hauthority : authority scheme cs true with
        | error fault =>
          rw [hauthority] at h
          cases h
        | ok found =>
          rw [hauthority] at h
          cases h
          refine ⟨front ++ (body.takeWhile (isSlash true) ++ cs), found.1, rest, ?_, hrest, rfl,
            isSite hfront hplain hspecial' hnofile (fun c hc => List.mem_takeWhile_imp hc) hcs
              hauthority⟩
          rw [List.append_assoc, List.append_assoc, hends, hslashes]
      next hother =>
        refine absurd ?_ hother
        split at h
        next => rwa [afterSlashes_scheme h] at hspecial
        next =>
          cases h
          exact hspecial

end

end Url

end CertBroker.Net
