import CertBroker.Pki.Client
import CertBroker.Proofs.Net.UrlParts

namespace CertBroker

open Net Net.Url

namespace Net.Url

variable {u : Url} {path : List Char}

/-- The URL of which path and end are read in a folder. -/
def inFolder (base : Url) (folder : List (List Char)) (cs : List Char) : Url :=
  { base with
    path := .segments ((resolve folder (pieces (splitEnd cs).1)).map String.ofList) }.withEnd
      (splitEnd cs).2

theorem isPath_of_follows (h : Follows path) (hplain : ∀ c ∈ path, c ≠ '?' ∧ c ≠ '#') :
    IsPath path := by
  intro c hc
  have hmem := hplain c (List.mem_of_head? hc)
  simpa [endsAuthority, hmem] using h c hc

theorem goingOn_of_plain (hplain : ∀ c ∈ path, c ≠ '?' ∧ c ≠ '#') :
    (u.goingOn path).path = pathAfterAuthority true path := by
  rw [goingOn, splitEnd_of_plain hplain]
  rfl

/-- What is put after a path is found in its folder. -/
theorem goingOn_append (hpath : IsPath path) (hplain : ∀ c ∈ path, c ≠ '?' ∧ c ≠ '#')
    (other cs : List Char) :
    u.goingOn (path ++ '/' :: cs) = (u.goingOn other).inFolder (folder path) cs := by
  rw [goingOn, splitEnd_append_slash hplain, pathAfterAuthority_append hpath]
  rfl

theorem toList_pathText_inFolder (base : Url) (folder : List (List Char)) (cs : List Char) :
    (base.inFolder folder cs).pathText.toList =
      textOf (resolve folder (pieces (splitEnd cs).1)) := toList_pathText rfl

theorem not_dots_of_isBlank (cs : List Char) {trail : List Char} (hne : trail ≠ [])
    (hblanks : ∀ c ∈ trail, isBlank c = true) :
    isDoubleDot (PercentCode.encode PercentCode.inPath (cs ++ trail)) = false ∧
      isDot (PercentCode.encode PercentCode.inPath (cs ++ trail)) = false := by
  obtain ⟨init, c, rfl⟩ := (List.eq_nil_or_concat' trail).resolve_left hne
  have hblank := hblanks c (by simp)
  have hread := PercentCode.decode_encode PercentCode.sparing_inPath (cs ++ (init ++ [c]))
  rw [← List.append_assoc, decode_concat_of_isBlank hblank, List.append_assoc] at hread
  have hbyte : UInt8.ofNat c.toNat ≠ 46 := of_isBlank hblank (by decide)
  have hlast := congrArg List.getLast? hread
  rw [List.getLast?_concat] at hlast
  rw [← Bool.not_eq_true, ← Bool.not_eq_true, ← not_or]
  intro hdots
  rcases decode_of_dots hdots with hdots | hdots <;> rw [hdots] at hlast <;>
    exact hbyte (Option.some.inj hlast).symm

/-- Blanks at the end make a path longer, and with it its folder. -/
theorem length_lt_of_isBlank {c : Char} {rest trail : List Char} (hc : isSlash true c = true)
    (hne : trail ≠ []) (hblanks : ∀ c ∈ trail, isBlank c = true)
    (hu : u.path = pathAfterAuthority true (c :: rest)) :
    u.pathText.toList.length < (textOf (folder (c :: rest ++ trail))).length := by
  obtain ⟨before, last, -, -, hpieces⟩ := exists_last_pieces rest
  have hwhole := hpieces [] (by simp)
  have hmore := hpieces trail fun c hc => not_isSlash (endsAuthority_of_isBlank (hblanks c hc))
  obtain ⟨hdouble, hdot⟩ := not_dots_of_isBlank last hne hblanks
  have hlonger : (PercentCode.encode PercentCode.inPath last).length <
      (PercentCode.encode PercentCode.inPath (last ++ trail)).length := by
    obtain ⟨b, blanks, rfl⟩ := List.exists_cons_of_ne_nil hne
    have hpos : 0 < (PercentCode.encodeChar PercentCode.inPath b).length :=
      PercentCode.encodeChar_length_pos b
    rw [PercentCode.encode_append, PercentCode.encode_cons, List.length_append, List.length_append]
    omega
  rw [List.append_nil, List.append_nil] at hwhole
  rw [pathAfterAuthority_cons hc, hwhole, resolve_append _ _ (by simp), resolve_singleton] at hu
  rw [toList_pathText hu, List.cons_append, folder, hmore, List.foldl_append, List.foldl_cons,
    List.foldl_nil]
  generalize PercentCode.encode PercentCode.inPath (last ++ trail) = longer at *
  generalize PercentCode.encode PercentCode.inPath last = segment at *
  generalize before.foldl enter [] = done at *
  have hfolder : enter done longer = done ++ [longer] := by simp [enter, hdouble, hdot]
  have hless := length_textOf_dropLast done
  rw [hfolder, textOf_concat, List.length_append, List.length_cons]
  unfold enter
  split
  next h =>
    simp only [h, Bool.true_or, if_true, textOf_concat, List.length_append, List.length_cons,
      List.length_nil]
    omega
  next h =>
    split
    next h' =>
      simp only [h', Bool.or_true, if_true, textOf_concat, List.length_append, List.length_cons,
        List.length_nil]
      omega
    next h' =>
      simp only [h, h', Bool.or_self, Bool.false_eq_true, if_false, List.append_nil,
        textOf_concat, List.length_append, List.length_cons]
      omega

end Net.Url

namespace Pki

open Client

variable {s : String} {base : Url}

theorem Client.toList_withoutLastSlashes (s : String) :
    (withoutLastSlashes s).toList = bare s.toList :=
  String.toList_ofList

theorem isSpecial_of_isWebScheme {scheme : String} (h : isWebScheme scheme = true) :
    isSpecial scheme = true ∧ scheme ≠ "file" := by
  have hscheme : scheme = "http" ∨ scheme = "https" := by simpa [isWebScheme] using h
  rcases hscheme with rfl | rfl <;> decide

/-- What counts of a text does not end in a blank. -/
def Closed (s : String) : Prop :=
  ∀ c ∈ (s.toList.filter (!isDropped ·)).getLast?, isBlank c = false

instance (s : String) : Decidable (Closed s) := Option.decidableForallMem _

/-- Where a base goes on, only its last slashes are missing, or else the blanks at its end count. -/
theorem counted_cases (hne : relevant s ≠ []) :
    (Closed s ∧ ∃ n, relevant s = counted (withoutLastSlashes s) ++ List.replicate n '/') ∨
    (¬ Closed s ∧ ∃ trail, counted (withoutLastSlashes s) = relevant s ++ trail ∧ trail ≠ [] ∧
      ∀ c ∈ trail, isBlank c = true) := by
  obtain ⟨n, hn⟩ := exists_bare s.toList
  have hs : s = withoutLastSlashes s ++ String.ofList (List.replicate n '/') := by
    apply String.toList_injective
    rw [String.toList_append, Client.toList_withoutLastSlashes, String.toList_ofList, ← hn]
  cases n with
  | zero =>
    rw [List.replicate_zero, String.ofList_nil, String.append_empty] at hs
    rw [← hs]
    obtain ⟨trail, htrail, hblanks⟩ := counted_eq s
    have hfilter : s.toList.filter (!isDropped ·) =
        (s.toList.takeWhile isBlank).filter (!isDropped ·) ++ counted s := by
      rw [counted, ← List.filter_append, List.takeWhile_append_dropWhile]
    rcases List.eq_nil_or_concat' trail with rfl | ⟨init, c, rfl⟩
    · rw [List.append_nil] at htrail
      refine .inl ⟨fun c hc => not_isBlank_of_getLast? (s := s) ?_, 0, by simp [htrail]⟩
      obtain ⟨init, last, hlast⟩ := (List.eq_nil_or_concat' (relevant s)).resolve_left hne
      rw [hfilter, htrail, hlast, ← List.append_assoc, List.getLast?_concat] at hc
      rwa [hlast, List.getLast?_concat]
    · refine .inr ⟨fun hclosed => ?_, _, htrail, by simp, hblanks⟩
      have hlast := hclosed c (by
        rw [hfilter, htrail, ← List.append_assoc, ← List.append_assoc, List.getLast?_concat]
        rfl)
      rw [hblanks c (by simp)] at hlast
      cases hlast
  | succ n =>
    have hslashes : (String.ofList (List.replicate (n + 1) '/')).toList =
        '/' :: List.replicate n '/' := by simp [List.replicate_succ]
    refine .inl ⟨fun c hc => ?_, n + 1, ?_⟩
    · rw [hn, List.replicate_succ', ← List.append_assoc, List.filter_append] at hc
      cases (List.getLast?_concat).symm.trans hc
      rfl
    · have hread := relevant_append (withoutLastSlashes s) hslashes
      rw [← hs, ended_of_visible fun c hc => by rw [List.eq_of_mem_replicate hc]; rfl] at hread
      rw [hread, List.replicate_succ]

variable [HostName.Rules]

/-- A base after which paths can be put. -/
structure IsBase (s : String) : Prop where
  plain : ∀ c ∈ s.toList, c ≠ '?' ∧ c ≠ '#'
  closed : Closed s
  /-- Slashes at the end of the path are those at the end of the text. -/
  filled : ∀ u, parse (withoutLastSlashes s ++ "/") = .ok u → ¬ ['/', '/'] <:+ u.pathText.toList

/-- What becomes of the URLs that begin with a base. -/
inductive Course (s : String) (base : Url) : Prop where
  /-- They are spoilt by blanks after the authority. -/
  | lost (unfit : ¬ IsBase s)
      (read : ∀ x rest, x.toList = '/' :: rest →
        ∃ fault, parse (withoutLastSlashes s ++ x) = .error fault)
  /-- They differ from the base in query and fragment alone. -/
  | hidden (unfit : ¬ IsBase s) (ends : base.query ≠ none ∨ base.fragment ≠ none)
      (read : ∀ x rest, x.toList = '/' :: rest →
        ∃ ending, parse (withoutLastSlashes s ++ x) = .ok (base.withEnd ending))
  /-- Their paths are resolved in a folder. -/
  | found (folder : List (List Char))
      (fits : IsBase s ↔ textOf folder = bare base.pathText.toList)
      (read : ∀ x rest, x.toList = '/' :: rest →
        parse (withoutLastSlashes s ++ x) = .ok (base.inFolder folder (ended rest)))

section

variable {site path trail : List Char} {u : Url} (hsite : IsSite site u)

include hsite

/-- What follows a query or a fragment becomes part of it. -/
theorem course_of_end {c : Char} {more : List Char} (hs : relevant s = site ++ (path ++ c :: more))
    (hfollows : Follows (path ++ c :: more)) (hplain : ∀ c ∈ path, c ≠ '?' ∧ c ≠ '#')
    (hc : c = '?' ∨ c = '#') : Course s (u.goingOn (path ++ c :: more)) := by
  have hcounted : ∃ more', counted (withoutLastSlashes s) = site ++ (path ++ c :: more') := by
    rcases counted_cases (s := s) (by simp [hs]) with ⟨-, n, hn⟩ | ⟨-, trail, htrail, -, -⟩
    · have hslash : c ≠ '/' := by rcases hc with rfl | rfl <;> decide
      obtain ⟨more', -, hmore⟩ := exists_of_append_slashes (a := site ++ (path ++ [c])) (r := more)
        (fun d hd => by
          rw [← List.append_assoc, List.getLast?_concat] at hd
          cases hd
          exact hslash)
        (by simpa [hs] using hn)
      exact ⟨more', by simpa using hmore⟩
    · exact ⟨more ++ trail, by simp [htrail, hs]⟩
  obtain ⟨more', hmore⟩ := hcounted
  have hsplit (more : List Char) : splitEnd (path ++ c :: more) = (path, c :: more) := by
    rw [splitEnd_append hplain, splitEnd_cons hc, List.append_nil]
  refine .hidden (fun hbase => ?_) ?_ fun x rest hx => ⟨c :: (more' ++ '/' :: ended rest), ?_⟩
  · have hblank : isBlank c = false := by rcases hc with rfl | rfl <;> decide
    have hmem := hbase.plain c ((mem_relevant_iff hblank).mp (by simp [hs]))
    exact hc.elim hmem.1 hmem.2
  · rw [goingOn, hsplit]
    rcases hc with rfl | rfl
    · exact .inl (by simp [withEnd])
    · exact .inr (by simp [withEnd])
  · have hfollows' : Follows (path ++ c :: (more' ++ '/' :: ended rest)) := by
      cases path <;> exact hfollows
    have hcs : site ++ (path ++ c :: more') ++ '/' :: ended rest =
        site ++ (path ++ c :: (more' ++ '/' :: ended rest)) := by simp
    rw [parse_eq, relevant_append _ hx, hmore, hcs, hsite.read _ hfollows', goingOn, goingOn,
      hsplit, hsplit]
    rfl

/-- What follows a path is found in its folder, whatever slashes end it. -/
theorem course_of_closed {n : Nat} (hs : relevant s = site ++ path) (hclosed : Closed s)
    (hn : relevant s = counted (withoutLastSlashes s) ++ List.replicate n '/')
    (hfollows : Follows path) (hplain : ∀ c ∈ path, c ≠ '?' ∧ c ≠ '#') :
    Course s (u.goingOn path) := by
  obtain ⟨front, rfl, hcounted⟩ := exists_of_append_slashes hsite.last (hs.symm.trans hn)
  have hfront : ∀ c ∈ front, c ≠ '?' ∧ c ≠ '#' := fun c hc => hplain c (List.mem_append_left _ hc)
  have hfollows' (cs : List Char) : Follows (front ++ '/' :: cs) := by
    cases front with
    | nil =>
      rintro c ⟨⟩
      rfl
    | cons c front => exact hfollows
  have hpath : IsPath front := isPath_of_follows (by
    cases front with
    | nil => exact fun c hc => by cases hc
    | cons c front => exact hfollows) hfront
  have hread {x : String} {rest : List Char} (hx : x.toList = '/' :: rest) :
      parse (withoutLastSlashes s ++ x) =
        .ok ((u.goingOn (front ++ List.replicate n '/')).inFolder (folder front) (ended rest)) := by
    rw [parse_eq, relevant_append _ hx, hcounted, List.append_assoc, hsite.read _ (hfollows' _),
      goingOn_append hpath hfront]
  have hbare : bare (u.goingOn (front ++ List.replicate n '/')).pathText.toList =
      bare (textOf (folder front)) := by
    obtain ⟨k, hk⟩ := pathAfterAuthority_eq_folder (isPath_of_follows hfollows hplain)
    rw [toList_pathText ((goingOn_of_plain hplain).trans hk), folder_append_slashes hpath,
      textOf_append, textOf_append, textOf_replicate, textOf_replicate, List.append_assoc,
      List.replicate_append_replicate, bare_append_slashes]
  refine .found (folder front) ?_ fun x rest hx => hread hx
  rw [hbare, eq_comm, bare_eq_self_iff]
  have hslash := @hread "/" [] rfl
  have htext (u : Url) : textOf (folder front) ++ ['/'] =
      (u.inFolder (folder front) (ended [])).pathText.toList := by
    have hresolve : resolve (folder front) (pieces (splitEnd (ended [])).1) =
        folder front ++ [[]] := rfl
    rw [toList_pathText_inFolder, hresolve, textOf_append]
    rfl
  constructor
  · intro hbase
    rw [htext]
    exact hbase.filled _ hslash
  · intro hfilled
    refine ⟨fun c hc => ?_, hclosed, fun v hv => ?_⟩
    · -- neither counts as a blank, so the site or the path would hold it
      have hmem (d : Char) (hd : d ∈ relevant s) : d ≠ '?' ∧ d ≠ '#' := by
        rw [hs] at hd
        exact (List.mem_append.mp hd).elim (hsite.plain d) (hplain d)
      refine ⟨?_, ?_⟩ <;> rintro rfl
      · exact (hmem _ ((mem_relevant_iff (by decide)).mpr hc)).1 rfl
      · exact (hmem _ ((mem_relevant_iff (by decide)).mpr hc)).2 rfl
    · cases hslash.symm.trans hv
      rwa [← htext]

/-- Blanks at the end get into the authority or into the last segment. -/
theorem course_of_blanks (hs : relevant s = site ++ path) (hclosed : ¬ Closed s)
    (htrail : counted (withoutLastSlashes s) = relevant s ++ trail) (hne : trail ≠ [])
    (hblanks : ∀ c ∈ trail, isBlank c = true)
    (hfollows : Follows path) (hplain : ∀ c ∈ path, c ≠ '?' ∧ c ≠ '#') :
    Course s (u.goingOn path) := by
  cases path with
  | nil =>
    refine .lost (fun hbase => hclosed hbase.closed) fun x rest hx => ?_
    have hslash : Follows ('/' :: ended rest) := by
      rintro c ⟨⟩
      rfl
    rw [List.append_nil] at hs
    rw [parse_eq, relevant_append _ hx, htrail, hs, List.append_assoc]
    exact hsite.closed _ _ hne hblanks hslash
  | cons c path =>
    have hpath := isPath_of_follows hfollows hplain
    have hlonger := length_lt_of_isBlank (hpath c rfl) hne hblanks
      (goingOn_of_plain (u := u) hplain)
    refine .found (folder (c :: path ++ trail))
      (iff_of_false (fun hbase => hclosed hbase.closed) fun heq => ?_) fun x rest hx => ?_
    · have hshort := bare_length_le (u.goingOn (c :: path)).pathText.toList
      rw [← heq] at hshort
      omega
    · have hmore : ∀ d ∈ c :: path ++ trail, d ≠ '?' ∧ d ≠ '#' := by
        intro d hd
        rcases List.mem_append.mp hd with hd | hd
        · exact hplain d hd
        · have hblank := hblanks d hd
          constructor <;> (rintro rfl; cases hblank)
      have hpath' : IsPath (c :: path ++ trail) := hpath
      rw [parse_eq, relevant_append _ hx, htrail, hs, List.append_assoc, List.append_assoc,
        ← List.append_assoc (c :: path),
        hsite.read (c :: path ++ trail ++ '/' :: ended rest) hfollows, goingOn_append hpath' hmore]

end

theorem hasHost_of_parse (h : parse s = .ok base) (hweb : isWebScheme base.scheme = true) :
    base.hasHost = true := by
  obtain ⟨hspecial, hfile⟩ := isSpecial_of_isWebScheme hweb
  obtain ⟨site, u, rest, -, -, rfl, hsite⟩ := exists_site h hspecial hfile
  exact hsite.host

/-- A path after a base of the web spoils it, goes unnoticed, or is resolved in a folder. -/
theorem course (h : parse s = .ok base) (hweb : isWebScheme base.scheme = true) :
    Course s base := by
  obtain ⟨hspecial, hfile⟩ := isSpecial_of_isWebScheme hweb
  obtain ⟨site, u, rest, hs, hfollows, rfl, hsite⟩ := exists_site h hspecial hfile
  obtain ⟨path, ending, rfl, hplain, hending⟩ := exists_splitEnd rest
  cases ending with
  | cons c more => exact course_of_end hsite hs hfollows hplain (hending c rfl)
  | nil =>
    rw [List.append_nil] at hs hfollows ⊢
    have hne : relevant s ≠ [] := by
      intro hnil
      rw [parse_eq, hnil] at h
      cases h
    rcases counted_cases hne with ⟨hclosed, n, hn⟩ | ⟨hclosed, trail, htrail, hne, hblanks⟩
    · exact course_of_closed hsite hs hclosed hn hfollows hplain
    · exact course_of_blanks hsite hs hclosed htrail hne hblanks hfollows hplain

end Pki

end CertBroker
