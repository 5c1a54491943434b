import CertBroker.Net.Url
import CertBroker.Proofs.Net.PercentCode
import Mathlib.Data.List.DropRight

namespace CertBroker

namespace HostName

theorem splitAtEach_ne_nil {α : Type} [BEq α] (sep : α) (a : List α) : splitAtEach sep a ≠ [] := by
  fun_induction splitAtEach sep a <;> simp

variable {α : Type} [BEq α] [LawfulBEq α] {sep : α} {a part : List α}

theorem splitAtEach_sep (sep : α) (a : List α) :
    splitAtEach sep (sep :: a) = [] :: splitAtEach sep a := by
  obtain ⟨part, parts, hparts⟩ := List.exists_cons_of_ne_nil (splitAtEach_ne_nil sep a)
  simp [splitAtEach, hparts]

theorem splitAtEach_cons_of_ne {c : α} {parts : List (List α)} (hc : c ≠ sep)
    (h : splitAtEach sep a = part :: parts) :
    splitAtEach sep (c :: a) = (c :: part) :: parts := by
  simp [splitAtEach, h, hc]

theorem splitAtEach_append_sep (sep : α) (a b : List α) :
    splitAtEach sep (a ++ sep :: b) = splitAtEach sep a ++ splitAtEach sep b := by
  induction a with
  | nil => exact splitAtEach_sep sep b
  | cons c a ih =>
    by_cases hc : c = sep
    · subst hc
      rw [List.cons_append, splitAtEach_sep, splitAtEach_sep, ih, List.cons_append]
    · obtain ⟨part, parts, hparts⟩ := List.exists_cons_of_ne_nil (splitAtEach_ne_nil sep a)
      rw [hparts, List.cons_append] at ih
      rw [List.cons_append, splitAtEach_cons_of_ne hc hparts, splitAtEach_cons_of_ne hc ih,
        List.cons_append]

theorem splitAtEach_of_notMem (h : sep ∉ a) : splitAtEach sep a = [a] := by
  induction a with
  | nil => rfl
  | cons c a ih =>
    rw [List.mem_cons, not_or] at h
    exact splitAtEach_cons_of_ne (Ne.symm h.1) (ih h.2)

theorem splitAtEach_replicate (sep : α) (n : Nat) :
    splitAtEach sep (List.replicate n sep) = List.replicate (n + 1) [] := by
  induction n with
  | zero => rfl
  | succ n ih => rw [List.replicate_succ, splitAtEach_sep, ih, ← List.replicate_succ]

theorem notMem_of_mem_splitAtEach (h : part ∈ splitAtEach sep a) : sep ∉ part := by
  induction a generalizing part with
  | nil => simp [List.mem_singleton.mp h]
  | cons c a ih =>
    by_cases hc : c = sep
    · rw [hc, splitAtEach_sep, List.mem_cons] at h
      rcases h with rfl | h
      · exact List.not_mem_nil
      · exact ih h
    · obtain ⟨first, parts, hparts⟩ := List.exists_cons_of_ne_nil (splitAtEach_ne_nil sep a)
      rw [splitAtEach_cons_of_ne hc hparts, List.mem_cons] at h
      rcases h with rfl | h
      · rw [List.mem_cons, not_or]
        exact ⟨Ne.symm hc, ih (by rw [hparts]; exact List.mem_cons_self)⟩
      · exact ih (by rw [hparts]; exact List.mem_cons_of_mem _ h)

/-- The last part goes on with what follows, up to the next separator. -/
theorem exists_last_splitAtEach (sep : α) (a : List α) :
    ∃ before last, last <:+ a ∧ ∀ b, sep ∉ b →
      splitAtEach sep (a ++ b) = before ++ [last ++ b] := by
  by_cases h : sep ∈ a
  · obtain ⟨last, front, hreverse, hlast⟩ := List.eq_append_cons_of_mem (List.mem_reverse.mpr h)
    have ha : a = front.reverse ++ sep :: last.reverse := by
      rw [← List.reverse_reverse a, hreverse]
      simp
    refine ⟨splitAtEach sep front.reverse, last.reverse, ?_, fun b hb => ?_⟩
    · rw [ha]
      exact (List.suffix_cons ..).trans (List.suffix_append ..)
    · have hfree : sep ∉ last.reverse ++ b := by simp [hlast, hb]
      rw [ha, List.append_assoc, List.cons_append, splitAtEach_append_sep,
        splitAtEach_of_notMem hfree]
  · exact ⟨[], a, List.suffix_refl a, fun b hb => splitAtEach_of_notMem (by simp [h, hb])⟩

end HostName

namespace Net.Url

open HostName PercentCode

variable {segment last : List Char} {done parts more : List (List Char)}

/-- A segment that is not the last one. -/
def enter (done : List (List Char)) (segment : List Char) : List (List Char) :=
  if isDoubleDot segment then done.dropLast else if isDot segment then done else done ++ [segment]

theorem resolve_append (done parts : List (List Char)) (h : more ≠ []) :
    resolve done (parts ++ more) = resolve (parts.foldl enter done) more := by
  induction parts generalizing done with
  | nil => rfl
  | cons segment parts ih =>
    obtain ⟨next, rest, hrest⟩ := List.exists_cons_of_ne_nil (l := parts ++ more) (by simp [h])
    have hstep : resolve done (segment :: next :: rest) =
        resolve (enter done segment) (next :: rest) := rfl
    rw [List.cons_append, hrest, hstep, ← hrest, ih, List.foldl_cons]

/-- The last segment is taken like any other, but dots leave an empty one. -/
theorem resolve_singleton (done : List (List Char)) (last : List Char) :
    resolve done [last] =
      enter done last ++ if isDoubleDot last || isDot last then [[]] else [] := by
  unfold resolve enter
  split
  next h => simp [h]
  next h =>
    split
    next h' => simp [h, h']
    next h' => simp [h, h']

theorem foldl_enter_of_plain (h : ∀ s ∈ parts, isDoubleDot s = false ∧ isDot s = false) :
    parts.foldl enter done = done ++ parts := by
  induction parts generalizing done with
  | nil => simp
  | cons segment parts ih =>
    obtain ⟨hdouble, hdot⟩ := h segment List.mem_cons_self
    have henter : enter done segment = done ++ [segment] := by simp [enter, hdouble, hdot]
    rw [List.foldl_cons, henter, ih fun s hs => h s (List.mem_cons_of_mem _ hs),
      List.append_assoc, List.singleton_append]

theorem resolve_of_plain (hne : parts ≠ [])
    (h : ∀ s ∈ parts, isDoubleDot s = false ∧ isDot s = false) :
    resolve done parts = done ++ parts := by
  obtain ⟨init, last, rfl⟩ := (List.eq_nil_or_concat' parts).resolve_left hne
  obtain ⟨hdouble, hdot⟩ := h last (by simp)
  have henter : enter (done ++ init) last = done ++ init ++ [last] := by
    simp [enter, hdouble, hdot]
  rw [resolve_append _ _ (by simp), resolve_singleton,
    foldl_enter_of_plain fun s hs => h s (List.mem_append_left _ hs), henter]
  simp [hdouble, hdot]

/-- A segment that counts as beginning with a dot has one, or its code. -/
theorem plainDots_eq_cons (h : plainDots segment = '.' :: last) : ∃ rest, plainDots rest = last ∧
    (segment = '.' :: rest ∨ ∃ e, (e = 'e' ∨ e = 'E') ∧ segment = '%' :: '2' :: e :: rest) := by
  unfold plainDots at h
  split at h
  next e rest =>
    split at h
    next he =>
      cases h
      exact ⟨rest, rfl, .inr ⟨e, by simpa using he, rfl⟩⟩
    next => cases h
  next =>
    cases h
    exact ⟨_, rfl, .inl rfl⟩
  next => cases h

theorem plainDots_eq_nil (h : plainDots segment = []) : segment = [] := by
  unfold plainDots at h
  split at h
  next => split at h <;> cases h
  next => cases h
  next => rfl

theorem decode_of_plainDots {n : Nat} (h : plainDots segment = List.replicate n '.') :
    decode (bytesOf segment) = List.replicate n 46 := by
  induction n generalizing segment with
  | zero => rw [plainDots_eq_nil h]; rfl
  | succ n ih =>
    obtain ⟨rest, hrest, rfl | ⟨e, he, rfl⟩⟩ := plainDots_eq_cons h
    · have hdot : String.utf8EncodeChar '.' = [46] := by decide
      rw [bytesOf_cons, hdot, List.singleton_append, decode_cons_of_ne (by decide), ih hrest,
        ← List.replicate_succ]
    · have hcode : bytesOf ['%', '2', e] = [37, 50, if e = 'e' then 101 else 69] := by
        rcases he with rfl | rfl <;> decide
      have hvalue : value? (if e = 'e' then 101 else 69) = some 14 := by split <;> decide
      have hbytes : bytesOf ('%' :: '2' :: e :: rest) =
          37 :: 50 :: (if e = 'e' then 101 else 69) :: bytesOf rest := by
        rw [← List.nil_append rest, ← List.cons_append, ← List.cons_append, ← List.cons_append,
          bytesOf_append, hcode]
        rfl
      rw [hbytes, decode_sign_digits (m := 2) (by decide) hvalue, ih hrest, List.replicate_succ]
      rfl

/-- Dots are read as dots, however they are coded. -/
theorem decode_of_dots (h : isDoubleDot segment = true ∨ isDot segment = true) :
    decode (bytesOf segment) = [46, 46] ∨ decode (bytesOf segment) = [46] := by
  rcases h with h | h
  · exact .inl (decode_of_plainDots (n := 2) (by simpa [isDoubleDot] using h))
  · exact .inr (decode_of_plainDots (n := 1) (by simpa [isDot] using h))

/-- The coded parts of a path, for which backslashes are slashes. -/
def pieces (cs : List Char) : List (List Char) :=
  (splitAtEach '/' (cs.map fun c => if isSlash true c then '/' else c)).map (encode inPath)

theorem segments_eq (cs : List Char) :
    segments true cs = (resolve [] (pieces cs)).map String.ofList := rfl

theorem pieces_ne_nil (cs : List Char) : pieces cs ≠ [] := by
  simpa [pieces] using splitAtEach_ne_nil '/' (cs.map fun c => if isSlash true c then '/' else c)

theorem map_of_plain {cs : List Char} (h : ∀ c ∈ cs, isSlash true c = false) :
    cs.map (fun c => if isSlash true c then '/' else c) = cs := by
  refine (List.map_congr_left fun c hc => ?_).trans cs.map_id
  rw [h c hc]
  rfl

theorem pieces_of_plain {cs : List Char} (h : ∀ c ∈ cs, isSlash true c = false) :
    pieces cs = [PercentCode.encode inPath cs] := by
  have hfree : '/' ∉ cs := fun hmem => absurd (h '/' hmem) (by decide)
  rw [pieces, map_of_plain h, splitAtEach_of_notMem hfree, List.map_singleton]

theorem pieces_append_slash (cs ds : List Char) :
    pieces (cs ++ '/' :: ds) = pieces cs ++ pieces ds := by
  simp [pieces, isSlash, splitAtEach_append_sep]

theorem pieces_replicate (n : Nat) : pieces (List.replicate n '/') = List.replicate (n + 1) [] := by
  simp [pieces, isSlash, splitAtEach_replicate, PercentCode.encode]

/-- The segments in which what stands behind a path is found. -/
def folder : List Char → List (List Char)
  | [] => []
  | _ :: rest => (pieces rest).foldl enter []

/-- A path of the web is empty or begins with a slash. -/
def IsPath (cs : List Char) : Prop := ∀ c ∈ cs.head?, isSlash true c = true

variable {path : List Char}

theorem pathAfterAuthority_cons {c : Char} {rest : List Char} (hc : isSlash true c = true) :
    pathAfterAuthority true (c :: rest) =
      .segments ((resolve [] (pieces rest)).map String.ofList) := by
  simp [pathAfterAuthority, hc, segments_eq]

/-- What stands behind a path after a slash is resolved in the folder of that path. -/
theorem pathAfterAuthority_append (h : IsPath path) (behind : List Char) :
    pathAfterAuthority true (path ++ '/' :: behind) =
      .segments ((resolve (folder path) (pieces behind)).map String.ofList) := by
  cases path with
  | nil => exact pathAfterAuthority_cons rfl
  | cons c rest =>
    rw [List.cons_append, pathAfterAuthority_cons (h c rfl), pieces_append_slash,
      resolve_append _ _ (pieces_ne_nil behind)]
    rfl

theorem folder_append_slashes (h : IsPath path) (n : Nat) :
    folder (path ++ List.replicate n '/') = folder path ++ List.replicate n [] := by
  have hempty (done : List (List Char)) (k : Nat) :
      (List.replicate k []).foldl enter done = done ++ List.replicate k [] :=
    foldl_enter_of_plain fun s hs => by rw [List.eq_of_mem_replicate hs]; decide
  cases n with
  | zero => simp
  | succ n =>
    cases path with
    | nil =>
      rw [List.nil_append, List.replicate_succ]
      exact (congrArg (List.foldl enter []) (pieces_replicate n)).trans (hempty [] (n + 1))
    | cons c rest =>
      rw [List.cons_append, List.replicate_succ, folder, pieces_append_slash, pieces_replicate,
        List.foldl_append, hempty]
      rfl

/-- The last piece goes on with what follows, up to the next slash. -/
theorem exists_last_pieces (cs : List Char) : ∃ before last, last <:+ cs ∧
    (∀ c ∈ last, isSlash true c = false) ∧ ∀ more, (∀ c ∈ more, isSlash true c = false) →
      pieces (cs ++ more) = before ++ [PercentCode.encode inPath (last ++ more)] := by
  obtain ⟨before, last, ⟨front, hfront⟩, hsplit⟩ :=
    exists_last_splitAtEach '/' (cs.map fun c => if isSlash true c then '/' else c)
  obtain ⟨init, rest, rfl, -, rfl⟩ := List.map_eq_append_iff.mp hfront.symm
  have hfree : '/' ∉ rest.map fun c => if isSlash true c then '/' else c := by
    have hwhole := hsplit [] (by simp)
    rw [List.append_nil, List.append_nil] at hwhole
    exact notMem_of_mem_splitAtEach (by rw [hwhole]; simp)
  have hrest : ∀ c ∈ rest, isSlash true c = false := fun c hc =>
    Bool.eq_false_iff.mpr fun hslash => hfree (List.mem_map.mpr ⟨c, hc, by simp [hslash]⟩)
  refine ⟨before.map (PercentCode.encode inPath), rest, List.suffix_append init rest, hrest,
    fun more hmore => ?_⟩
  have hmoreFree : '/' ∉ more := fun hmem => absurd (hmore '/' hmem) (by decide)
  rw [pieces, List.map_append, map_of_plain hmore, hsplit more hmoreFree, map_of_plain hrest,
    List.map_append, List.map_singleton]

/-- The last segment is the last piece, or empty for dots. -/
theorem exists_last_resolve (done : List (List Char)) (cs : List Char) :
    ∃ front last, last <:+ cs ∧ (∀ c ∈ last, isSlash true c = false) ∧
      (resolve done (pieces cs) = front ++ [[]] ∧ last ≠ [] ∨
        resolve done (pieces cs) = front ++ [PercentCode.encode inPath last] ∧
          isDoubleDot (PercentCode.encode inPath last) = false ∧
          isDot (PercentCode.encode inPath last) = false) := by
  obtain ⟨before, last, hsuffix, hplain, hpieces⟩ := exists_last_pieces cs
  have hwhole := hpieces [] (by simp)
  rw [List.append_nil, List.append_nil] at hwhole
  rw [hwhole, resolve_append _ _ (by simp), resolve_singleton]
  by_cases hdots : (isDoubleDot (PercentCode.encode inPath last) ||
      isDot (PercentCode.encode inPath last)) = true
  · refine ⟨_, last, hsuffix, hplain, .inl ⟨by rw [if_pos hdots], ?_⟩⟩
    rintro rfl
    revert hdots
    decide
  · rw [if_neg hdots, List.append_nil]
    simp only [Bool.or_eq_true, not_or, Bool.not_eq_true] at hdots
    refine ⟨before.foldl enter done, last, hsuffix, hplain, .inr ⟨?_, hdots.1, hdots.2⟩⟩
    simp [enter, hdots]

/-- A path is its folder up to an empty segment at the end. -/
theorem pathAfterAuthority_eq_folder (h : IsPath path) : ∃ k, pathAfterAuthority true path =
    .segments ((folder path ++ List.replicate k []).map String.ofList) := by
  cases path with
  | nil => exact ⟨1, rfl⟩
  | cons c rest =>
    obtain ⟨before, last, -, -, hpieces⟩ := exists_last_pieces rest
    have hpieces := hpieces [] (by simp)
    rw [List.append_nil] at hpieces
    rw [pathAfterAuthority_cons (h c rfl), folder, hpieces, resolve_append _ _ (by simp),
      resolve_singleton, List.foldl_append, List.foldl_cons, List.foldl_nil]
    split
    next => exact ⟨1, rfl⟩
    next => exact ⟨0, rfl⟩

/-- Segments with a slash before each. -/
def textOf (segments : List (List Char)) : List Char := segments.flatMap ('/' :: ·)

@[simp] theorem textOf_append (first second : List (List Char)) :
    textOf (first ++ second) = textOf first ++ textOf second := List.flatMap_append

theorem textOf_cons (segment : List Char) (rest : List (List Char)) :
    textOf (segment :: rest) = '/' :: segment ++ textOf rest := rfl

theorem textOf_concat (first : List (List Char)) (segment : List Char) :
    textOf (first ++ [segment]) = textOf first ++ '/' :: segment := by simp [textOf]

theorem length_textOf_dropLast (parts : List (List Char)) :
    (textOf parts.dropLast).length ≤ (textOf parts).length := by
  rcases List.eq_nil_or_concat' parts with rfl | ⟨init, last, rfl⟩
  · exact Nat.le_refl _
  · rw [List.dropLast_concat, textOf_concat, List.length_append]
    omega

theorem textOf_replicate (k : Nat) : textOf (List.replicate k []) = List.replicate k '/' := by
  induction k with
  | zero => rfl
  | succ k ih => rw [List.replicate_succ, textOf_cons, ih, List.replicate_succ]; rfl

theorem toList_pathText {u : Url} {parts : List (List Char)}
    (h : u.path = .segments (parts.map String.ofList)) : u.pathText.toList = textOf parts := by
  have hjoin (parts : List (List Char)) :
      (String.join ((parts.map String.ofList).map ("/" ++ ·))).toList = textOf parts := by
    induction parts with
    | nil => rfl
    | cons segment parts ih =>
      rw [List.map_cons, List.map_cons, String.join_cons, String.toList_append, ih, textOf_cons]
      simp
  rw [pathText, h]
  exact hjoin parts

theorem notMem_encode {cs : List Char} (h : '/' ∉ cs) : '/' ∉ PercentCode.encode inPath cs := by
  intro hmem
  obtain ⟨c, hc, hmem⟩ := List.mem_flatMap.mp hmem
  unfold encodeChar at hmem
  split at hmem
  next =>
    obtain ⟨x, hx, hslash⟩ := List.mem_map.mp hmem
    obtain ⟨b, -, hx⟩ := List.mem_flatMap.mp hx
    exact of_mem_codeOf (p := fun x => Char.ofNat x.toNat ≠ '/') hx (by decide) (by decide) hslash
  next => exact h (by rwa [List.mem_singleton.mp hmem])

/-- What stands behind the last slash is known by the text. -/
theorem last_inj {first second other : List Char} (hlast : '/' ∉ last) (hother : '/' ∉ other)
    (h : first ++ '/' :: last = second ++ '/' :: other) : last = other := by
  have htake (front : List Char) {l : List Char} (hl : '/' ∉ l) :
      (front ++ '/' :: l).reverse.takeWhile (· != '/') = l.reverse := by
    have hall : ∀ c ∈ l.reverse, (c != '/') = true := by
      intro c hc
      simp only [bne_iff_ne, ne_eq]
      rintro rfl
      exact hl (List.mem_reverse.mp hc)
    have hreverse : (front ++ '/' :: l).reverse = l.reverse ++ '/' :: front.reverse := by simp
    rw [hreverse, List.takeWhile_append_of_pos hall]
    simp
  have hreversed := (htake first hlast).symm.trans (h ▸ htake second hother)
  exact List.reverse_injective hreversed

/-- Without the slashes at the end. -/
def bare (cs : List Char) : List Char := cs.rdropWhile (· == '/')

theorem bare_append_slashes (cs : List Char) (n : Nat) :
    bare (cs ++ List.replicate n '/') = bare cs := by
  induction n with
  | zero => simp
  | succ n ih =>
    rw [List.replicate_succ', ← List.append_assoc, bare, List.rdropWhile_concat_pos _ _ _ rfl]
    exact ih

theorem exists_bare (cs : List Char) : ∃ n, cs = bare cs ++ List.replicate n '/' := by
  induction cs using List.reverseRecOn with
  | nil => exact ⟨0, rfl⟩
  | append_singleton cs c ih =>
    by_cases hc : c = '/'
    · subst hc
      obtain ⟨n, hn⟩ := ih
      have hbare : bare (cs ++ ['/']) = bare cs := bare_append_slashes cs 1
      refine ⟨n + 1, ?_⟩
      rw [hbare, List.replicate_succ', ← List.append_assoc, ← hn]
    · have hkept : bare (cs ++ [c]) = cs ++ [c] :=
        List.rdropWhile_concat_neg _ _ _ (by simpa using hc)
      exact ⟨0, by rw [hkept]; simp⟩

theorem bare_length_le (cs : List Char) : (bare cs).length ≤ cs.length :=
  (List.rdropWhile_prefix _ _).length_le

theorem bare_eq_self_iff (cs : List Char) : bare cs = cs ↔ ¬ ['/', '/'] <:+ cs ++ ['/'] := by
  rcases List.eq_nil_or_concat' cs with rfl | ⟨init, c, rfl⟩
  · exact iff_of_true rfl (by decide)
  · rw [bare, List.rdropWhile_eq_self_iff]
    have hsuffix : ['/', '/'] <:+ init ++ [c] ++ ['/'] ↔ c = '/' := by
      constructor
      · rintro ⟨front, hfront⟩
        have hfront' : front ++ ['/'] ++ ['/'] = init ++ [c] ++ ['/'] := by simpa using hfront
        have hc := List.append_inj_right' (List.append_cancel_right hfront') rfl
        exact (List.singleton_inj.mp hc).symm
      · rintro rfl
        exact ⟨init, by simp⟩
    rw [hsuffix]
    simp

/-- Slashes at the end belong to what follows the last other character. -/
theorem exists_of_append_slashes {a r b : List Char} {n : Nat} (ha : ∀ c ∈ a.getLast?, c ≠ '/')
    (h : a ++ r = b ++ List.replicate n '/') :
    ∃ r', r = r' ++ List.replicate n '/' ∧ b = a ++ r' := by
  rcases List.append_eq_append_iff.mp h with ⟨more, hb, hr⟩ | ⟨more, ha', hmore⟩
  · exact ⟨more, hr, hb⟩
  · rcases List.eq_nil_or_concat' more with rfl | ⟨init, c, rfl⟩
    · exact ⟨[], hmore.symm, by simpa using ha'.symm⟩
    · have hc : c ∈ List.replicate n '/' := by simp [hmore]
      refine absurd (List.eq_of_mem_replicate hc) (ha c ?_)
      rw [ha', ← List.append_assoc, List.getLast?_concat]
      rfl

end Net.Url

end CertBroker
