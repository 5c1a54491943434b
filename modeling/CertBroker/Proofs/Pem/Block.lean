import CertBroker.Proofs.Pem.Framing
import CertBroker.Proofs.Text.Base64
import CertBroker.Proofs.Text.Blank

namespace CertBroker.Pem

theorem dashes_eq : dashes = [45, 45, 45, 45, 45] := by decide +kernel

theorem endMarker_eq : endMarker = [45, 45, 45, 45, 45, 69, 78, 68, 32] := by decide +kernel

theorem not_mem_of_mem_splitOn {α : Type} [BEq α] [LawfulBEq α] {a : α} {xs part : List α}
    (h : part ∈ xs.splitOn a) : a ∉ part := by
  induction xs generalizing part with
  | nil =>
    rw [List.splitOn_nil, List.mem_singleton] at h
    simp [h]
  | cons x xs ih =>
    rw [List.splitOn_cons_eq_if_modifyHead] at h
    split at h
    next =>
      rcases List.mem_cons.mp h with rfl | h
      · simp
      · exact ih h
    next hx =>
      have hxa : a ≠ x := fun heq => hx (by simp [heq])
      cases hparts : xs.splitOn a with
      | nil => simp [hparts] at h
      | cons first others =>
        rw [hparts, List.modifyHead_cons] at h
        rcases List.mem_cons.mp h with rfl | h
        · have hfirst : a ∉ first := ih (by simp [hparts])
          simp [hxa, hfirst]
        · exact ih (by simp [hparts, h])

theorem intercalate_cons {α : Type} (sep first : List α) (others : List (List α)) :
    sep.intercalate (first :: others) = first ++ others.flatMap (sep ++ ·) := by
  induction others generalizing first with
  | nil => simp
  | cons next others ih => rw [List.intercalate_cons_cons, ih]; simp

theorem clear_of_mem_splitOn {marker : Bytes} {cs part : List Char} (hne : marker ≠ [])
    (hfeed : 10 ∉ marker) (h : Clear marker (cs.flatMap String.utf8EncodeChar))
    (hp : part ∈ cs.splitOn '\n') : Clear marker (part.flatMap String.utf8EncodeChar) := by
  have hparts := @List.intercalate_splitOn _ cs _ _ '\n'
  rw [← hparts] at h
  generalize cs.splitOn '\n' = parts at h hp
  induction parts with
  | nil => cases hp
  | cons first others ih =>
    have hencoded : String.utf8EncodeChar '\n' = [10] := by decide
    cases others with
    | nil =>
      rw [List.mem_singleton.mp hp]
      simpa using h
    | cons next others =>
      rw [List.intercalate_cons_cons] at h
      simp only [List.flatMap_append, List.flatMap_cons, hencoded, List.append_assoc,
        List.cons_append, List.nil_append] at h
      obtain ⟨hfirst, hothers⟩ := (clear_append_cons hne hfeed).mp h
      rcases List.mem_cons.mp hp with rfl | hp
      · exact hfirst
      · exact ih hothers hp

theorem mem_lines {s l : String} (h : l ∈ lines s) :
    ∃ part ∈ s.toList.splitOn '\n', l.toList <+: part := by
  unfold lines at h
  obtain ⟨part, hpart, rfl⟩ := List.mem_map.mp h
  refine ⟨part, ?_, ?_⟩
  · split at hpart
    next => exact (List.dropLast_sublist _).subset hpart
    next => exact hpart
  · rw [String.toList_ofList]
    split
    next => exact List.dropLast_prefix _
    next => exact List.prefix_refl _

theorem not_mem_of_mem_lines {s l : String} (h : l ∈ lines s) : '\n' ∉ l.toList := by
  obtain ⟨part, hpart, hfront⟩ := mem_lines h
  exact fun hfeed => not_mem_of_mem_splitOn hpart (hfront.subset hfeed)

theorem clear_of_mem_lines {marker : Bytes} {s l : String} (hne : marker ≠ [])
    (hfeed : 10 ∉ marker) (h : Clear marker (Utf8.encode s)) (hl : l ∈ lines s) :
    Clear marker (Utf8.encode l) := by
  obtain ⟨part, hpart, rest, hfront⟩ := mem_lines hl
  have hclear := clear_of_mem_splitOn hne hfeed h hpart
  rw [← hfront, List.flatMap_append] at hclear
  exact hclear.front

theorem clear_trim {m : UInt8} {tail : Bytes} {s : String} (hm : m.toNat < 0x80)
    (hb : Text.isBlank (Char.ofNat m.toNat) = false) (h : Clear (m :: tail) (Utf8.encode s)) :
    Clear (m :: tail) (Utf8.encode (Text.trim s)) := by
  obtain ⟨lead, trail, hs, hleading, -⟩ := Text.exists_trim s
  rw [Utf8.encode, hs, List.flatMap_append, List.flatMap_append] at h
  have hskip : m ∉ lead.flatMap String.utf8EncodeChar := by
    intro hmem
    obtain ⟨c, hc, hmem⟩ := List.mem_flatMap.mp hmem
    rw [Utf8.mem_utf8EncodeChar_iff hm] at hmem
    rw [hmem] at hc
    exact absurd (hleading _ hc) (by simp [hb])
  exact Clear.front ((clear_append_of_not_mem hskip).mp h)

/-- Trimmed lines that are not empty, with line feeds between them, are read as they are. -/
theorem lines_intercalate {ls : List String} (h : ∀ l ∈ ls, Text.trim l ≠ "" ∧ '\n' ∉ l.toList) :
    lines (String.ofList (['\n'].intercalate (ls.map fun l => (Text.trim l).toList))) =
      ls.map Text.trim := by
  cases ls with
  | nil => decide
  | cons first others =>
    have hfeed : ∀ part ∈ (first :: others).map fun l => (Text.trim l).toList, '\n' ∉ part := by
      intro part hpart
      obtain ⟨l, hl, rfl⟩ := List.mem_map.mp hpart
      exact fun hmem => (h l hl).2 (Text.mem_of_mem_trim hmem)
    have hlast : ((first :: others).map fun l => (Text.trim l).toList).getLast? ≠ some [] := by
      intro hlast
      obtain ⟨l, hl, hnil⟩ := List.mem_map.mp (List.mem_of_getLast? hlast)
      exact (h l hl).1 (by simpa using hnil)
    unfold lines
    simp only [String.toList_ofList]
    rw [List.splitOn_intercalate '\n' hfeed (by simp), if_neg hlast, List.map_map]
    refine List.map_congr_left fun l hl => ?_
    have hreturn : (Text.trim l).toList.getLast? ≠ some '\r' := fun hreturn =>
      absurd (Text.isBlank_last_trim hreturn) (by decide)
    simp [hreturn]

theorem flatten_pieces {α : Type} {n : Nat} (hn : n ≠ 0) (cs : List α) :
    (pieces n cs).flatten = cs := by
  induction cs using pieces.induct n with
  | case1 cs h =>
    have hnil : cs = [] := by simpa [hn] using h
    rw [hnil, pieces]
    simp
  | case2 cs h ih =>
    rw [pieces, if_neg h, List.flatten_cons, ih, List.take_append_drop]

theorem ne_nil_of_mem_pieces {α : Type} {n : Nat} {cs piece : List α}
    (h : piece ∈ pieces n cs) : piece ≠ [] := by
  induction cs using pieces.induct n with
  | case1 cs hend =>
    rw [pieces, if_pos hend] at h
    cases h
  | case2 cs hend ih =>
    rw [pieces, if_neg hend] at h
    rcases List.mem_cons.mp h with rfl | h
    · have hcs : cs ≠ [] ∧ n ≠ 0 := by simpa using hend
      simp [List.take_eq_nil_iff, hcs]
    · exact ih h

theorem mem_of_mem_pieces {α : Type} {n : Nat} (hn : n ≠ 0) {cs piece : List α} {c : α}
    (h : piece ∈ pieces n cs) (hc : c ∈ piece) : c ∈ cs := by
  rw [← flatten_pieces hn cs]
  exact List.mem_flatten.mpr ⟨piece, h, hc⟩

namespace Block

variable {b : Block}

/-- A header line can be written: it is one line, not blank, and does not end the block. -/
structure Writable (b : Block) : Prop where
  colon : ∀ h ∈ b.headers, ':' ∈ h.toList
  oneLine : ∀ h ∈ b.headers, '\n' ∉ h.toList
  clear : ∀ h ∈ b.headers, Clear endMarker (Utf8.encode h)

theorem writable_of_headers_eq_nil (h : b.headers = []) : b.Writable :=
  ⟨by simp [h], by simp [h], by simp [h]⟩

def trimmed (b : Block) : Block := { b with headers := b.headers.map Text.trim }

theorem text_trimmed (b : Block) : b.trimmed.text = b.text := by
  simp [text, trimmed, List.map_map, Function.comp_def]

/-- The lines of the headers, with the empty line after them. -/
def headerLines (b : Block) : List String :=
  if b.headers.isEmpty then [] else b.headers.map Text.trim ++ [""]

def dataLines (b : Block) : List String :=
  (pieces 64 (Base64.encode b.contents).toList).map String.ofList

def body (b : Block) : Bytes := ((b.headerLines ++ b.dataLines).map Utf8.encode).flatMap ended

theorem encode_lines (ls : List String) :
    Utf8.encode (String.join (ls.map line)) = (ls.map Utf8.encode).flatMap ended := by
  induction ls with
  | nil => rfl
  | cons l ls ih =>
    have hfeed : Utf8.encode "\n" = [10] := by decide
    rw [List.map_cons, String.join_cons, Utf8.encode_append, ih, line, Utf8.encode_append, hfeed]
    rfl

theorem encode_headers (b : Block) : Utf8.encode (if b.headers.isEmpty then ""
      else String.join (b.headers.map fun h => line (Text.trim h)) ++ "\n") =
    (b.headerLines.map Utf8.encode).flatMap ended := by
  unfold headerLines
  split
  next => rfl
  next =>
    have hlines : Utf8.encode (String.join (b.headers.map fun h => line (Text.trim h))) =
        ((b.headers.map Text.trim).map Utf8.encode).flatMap ended := by
      rw [← encode_lines, List.map_map]
      rfl
    have hfeed : Utf8.encode "\n" = [10] := by decide
    rw [Utf8.encode_append, hlines, hfeed]
    simp [ended, Utf8.encode]

theorem encode_data (b : Block) :
    Utf8.encode (String.join ((pieces 64 (Base64.encode b.contents).toList).map
      fun cs => line (String.ofList cs))) = (b.dataLines.map Utf8.encode).flatMap ended := by
  rw [← encode_lines, dataLines, List.map_map]
  rfl

theorem encode_text (b : Block) : Utf8.encode b.text =
    beginMarker ++ (Utf8.encode b.tag ++ (dashes ++ 10 :: (b.body ++
      (endMarker ++ (Utf8.encode b.tag ++ (dashes ++ [10])))))) := by
  have hfeed : Utf8.encode "\n" = [10] := by decide
  rw [text, Utf8.encode_append, Utf8.encode_append, Utf8.encode_append, encode_headers,
    encode_data]
  simp [line, body, beginMarker, endMarker, dashes, hfeed]

theorem of_mem_dataLines {l : String} (h : l ∈ b.dataLines) :
    l ≠ "" ∧ ∀ c ∈ l.toList, Text.isBlank c = false ∧ c ≠ '-' := by
  obtain ⟨piece, hpiece, rfl⟩ := List.mem_map.mp h
  refine ⟨by simpa using ne_nil_of_mem_pieces hpiece, fun c hc => ?_⟩
  rw [String.toList_ofList] at hc
  exact Base64.of_mem_encode (mem_of_mem_pieces (by decide) hpiece hc)

/-- The lines of the data hold no bytes of blanks or dashes. -/
theorem not_mem_encode_dataLines {l : String} {m : UInt8} (h : l ∈ b.dataLines)
    (hm : m.toNat < 0x80)
    (hc : Text.isBlank (Char.ofNat m.toNat) = true ∨ Char.ofNat m.toNat = '-') :
    m ∉ Utf8.encode l := by
  rw [Utf8.mem_encode_iff hm]
  intro hmem
  obtain ⟨hblank, hdash⟩ := (of_mem_dataLines h).2 _ hmem
  rcases hc with hc | hc
  · exact absurd hc (by simp [hblank])
  · exact hdash hc

theorem Writable.trim_ne_empty (hb : b.Writable) {h : String} (hh : h ∈ b.headers) :
    Text.trim h ≠ "" := by
  have hcolon := Text.mem_trim (hb.colon h hh) (by decide)
  intro hempty
  simp [hempty] at hcolon

theorem Writable.feed_not_mem (hb : b.Writable) {h : String} (hh : h ∈ b.headers) :
    10 ∉ Utf8.encode (Text.trim h) := by
  rw [Utf8.mem_encode_iff (by decide)]
  exact fun hmem => hb.oneLine h hh (Text.mem_of_mem_trim hmem)

theorem Writable.clear_lines (hb : b.Writable) :
    ∀ l ∈ (b.headerLines ++ b.dataLines).map Utf8.encode, Clear endMarker l := by
  intro bytes hbytes
  obtain ⟨l, hl, rfl⟩ := List.mem_map.mp hbytes
  rcases List.mem_append.mp hl with hl | hl
  · unfold headerLines at hl
    split at hl
    next => cases hl
    next =>
      rcases List.mem_append.mp hl with hl | hl
      · obtain ⟨h, hh, rfl⟩ := List.mem_map.mp hl
        have hclear := hb.clear h hh
        rw [endMarker_eq] at hclear ⊢
        exact clear_trim (by decide) (by decide) hclear
      · rw [List.mem_singleton.mp hl]
        decide +kernel
  · rw [endMarker_eq]
    exact clear_of_not_mem (not_mem_encode_dataLines hl (by decide) (by decide))

/-- The trimmed header lines as one text. -/
def headerText (b : Block) : String :=
  String.ofList (['\n'].intercalate (b.headers.map fun h => (Text.trim h).toList))

def dataText (b : Block) : String := String.join (b.dataLines.map line)

theorem splitHeaders_body (hb : b.Writable) :
    splitHeaders b.body = (Utf8.encode b.headerText, Utf8.encode b.dataText) := by
  have hdata : Utf8.encode b.dataText = (b.dataLines.map Utf8.encode).flatMap ended :=
    encode_lines _
  cases hheaders : b.headers with
  | nil =>
    have hbody : b.body = (b.dataLines.map Utf8.encode).flatMap ended := by
      simp [body, headerLines, hheaders]
    have hempty : Clear emptyLine b.body := by
      rw [hbody]
      refine clear_emptyLine fun bytes hbytes => ?_
      obtain ⟨l, hl, rfl⟩ := List.mem_map.mp hbytes
      refine ⟨fun hnil => (of_mem_dataLines hl).1 (Utf8.encode_eq_nil_iff.mp hnil), ?_⟩
      exact not_mem_encode_dataLines hl (by decide) (by decide)
    have hreturn : Clear [13, 10, 13, 10] b.body := by
      rw [hbody]
      refine clear_of_not_mem fun hmem => ?_
      obtain ⟨bytes, hbytes, hmem⟩ := List.mem_flatMap.mp hmem
      obtain ⟨l, hl, rfl⟩ := List.mem_map.mp hbytes
      rcases List.mem_append.mp hmem with hmem | hmem
      · exact not_mem_encode_dataLines hl (by decide) (by decide) hmem
      · simp at hmem
    have hnone : scan [10, 10] b.body = none := hempty
    have hnone' : scan [13, 10, 13, 10] b.body = none := hreturn
    rw [splitHeaders, hnone, hnone', hdata, ← hbody]
    simp [headerText, hheaders, Utf8.encode]
  | cons first others =>
    have hbody : b.body = Utf8.encode (Text.trim first) ++
        10 :: ((others.map fun h => Utf8.encode (Text.trim h)).flatMap ended ++
          10 :: Utf8.encode b.dataText) := by
      rw [hdata]
      simp [body, headerLines, hheaders, ended, Utf8.encode, Function.comp_def]
    have hothers : ∀ l ∈ others.map fun h => Utf8.encode (Text.trim h), l ≠ [] ∧ 10 ∉ l := by
      intro bytes hbytes
      obtain ⟨h, hh, rfl⟩ := List.mem_map.mp hbytes
      have hh : h ∈ b.headers := by simp [hheaders, hh]
      exact ⟨fun hnil => hb.trim_ne_empty hh (Utf8.encode_eq_nil_iff.mp hnil),
        hb.feed_not_mem hh⟩
    have hfirst : first ∈ b.headers := by simp [hheaders]
    have hfound := scanFrom_emptyLine (hb.feed_not_mem hfirst) hothers [] (Utf8.encode b.dataText)
    have hscan : scan [10, 10] b.body =
        some (Utf8.encode b.headerText, Utf8.encode b.dataText) := by
      rw [hbody]
      refine hfound.trans ?_
      have hfeed : String.utf8EncodeChar '\n' = [10] := by decide
      simp [headerText, hheaders, intercalate_cons, Utf8.encode, List.flatMap_assoc, hfeed,
        List.flatMap_map]
    rw [splitHeaders, hscan]

/-- How the text of a block is framed. -/
def frame (b : Block) : Frame :=
  ⟨Utf8.encode b.tag, Utf8.encode b.headerText, Utf8.encode b.dataText, Utf8.encode b.tag⟩

theorem skipBlanks_encode {s : String} {c : Char} (hs : s.toList.head? = some c)
    (hc : Text.isBlank c = false) (after : Bytes) :
    skipBlanks (Utf8.encode s ++ after) = Utf8.encode s ++ after := by
  obtain ⟨cs, hcs⟩ := List.head?_eq_some_iff.mp hs
  obtain ⟨a, tail, hbytes, -⟩ := Utf8.front_utf8EncodeChar c
  have hother {m : UInt8} (hm : m.toNat < 0x80)
      (hb : Text.isBlank (Char.ofNat m.toNat) = true) : a ≠ m := by
    rintro rfl
    have hmem : a ∈ String.utf8EncodeChar c := by simp [hbytes]
    rw [(Utf8.mem_utf8EncodeChar_iff hm).mp hmem] at hc
    exact absurd hb (by simp [hc])
  have hhead : (Utf8.encode s ++ after).head? = some a := by
    simp [Utf8.encode, hcs, hbytes]
  refine skipBlanks_eq fun m hm => ?_
  rw [hhead, Option.mem_def, Option.some.injEq] at hm
  subst hm
  exact ⟨hother (by decide) (by decide), hother (by decide) (by decide),
    hother (by decide) (by decide), hother (by decide) (by decide)⟩

theorem Writable.head_line (hb : b.Writable) {l : String} {ls : List String}
    (h : b.headerLines ++ b.dataLines = l :: ls) :
    ∃ c, l.toList.head? = some c ∧ Text.isBlank c = false := by
  cases hheaders : b.headers with
  | nil =>
    have hl : l ∈ b.dataLines := by
      have hdata : b.dataLines = l :: ls := by simpa [headerLines, hheaders] using h
      simp [hdata]
    obtain ⟨hne, hchars⟩ := of_mem_dataLines hl
    cases hcs : l.toList with
    | nil => exact absurd (by simpa using hcs) hne
    | cons c cs => exact ⟨c, rfl, (hchars c (by simp [hcs])).1⟩
  | cons first others =>
    have hl : Text.trim first = l := by
      simp only [headerLines, hheaders, List.isEmpty_cons, Bool.false_eq_true, if_false,
        List.map_cons, List.cons_append] at h
      exact (List.cons.inj h).1
    have hfirst : first ∈ b.headers := by simp [hheaders]
    have hne := hb.trim_ne_empty hfirst
    rw [hl] at hne
    cases hcs : l.toList with
    | nil => exact absurd (by simpa using hcs) hne
    | cons c cs =>
      have hhead : (Text.trim first).toList.head? = some c := by simp [hl, hcs]
      exact ⟨c, rfl, Text.isBlank_head_trim hhead⟩

/-- No blanks stand before the lines. -/
theorem Writable.skipBlanks_body (hb : b.Writable) (after : Bytes) :
    skipBlanks (b.body ++ (endMarker ++ after)) = b.body ++ (endMarker ++ after) := by
  cases hlines : b.headerLines ++ b.dataLines with
  | nil =>
    have hbody : b.body = [] := by simp [body, hlines]
    rw [hbody, endMarker_eq]
    rfl
  | cons l ls =>
    obtain ⟨c, hc, hblank⟩ := hb.head_line hlines
    have hbody : b.body = Utf8.encode l ++ (10 :: (ls.map Utf8.encode).flatMap ended) := by
      simp [body, hlines, ended]
    rw [hbody, List.append_assoc]
    exact skipBlanks_encode hc hblank _

theorem frame?_text (hb : b.Writable) (hn : '-' ∉ b.tag.toList) (after : Bytes) :
    frame? (Utf8.encode b.text ++ after) = some (b.frame, skipBlanks after) := by
  have hdash : 45 ∉ Utf8.encode b.tag := by
    rw [Utf8.mem_encode_iff (by decide)]
    exact hn
  have hbegin (rest : Bytes) : scan beginMarker (beginMarker ++ rest) = some ([], rest) :=
    scanFrom_marker (by decide +kernel) [] rest
  have htag (rest : Bytes) :
      scan dashes (Utf8.encode b.tag ++ (dashes ++ rest)) = some (Utf8.encode b.tag, rest) := by
    rw [dashes_eq]
    exact scan_of_not_mem hdash rest
  have hend (rest : Bytes) : scan endMarker (b.body ++ (endMarker ++ rest)) = some (b.body, rest) :=
    scan_lines (by decide +kernel) (by decide +kernel) hb.clear_lines rest
  rw [encode_text]
  simp only [List.append_assoc, List.cons_append, List.nil_append]
  simp only [frame?, hbegin, htag, skipBlanks_feed, hb.skipBlanks_body, hend, splitHeaders_body hb]
  rfl

theorem filter_lines {parts : List (List Char)}
    (h : ∀ part ∈ parts, ∀ c ∈ part, Text.isBlank c = false) :
    (String.join (parts.map fun cs => line (String.ofList cs))).toList.filter
      (fun c => !Text.isBlank c) = parts.flatten := by
  induction parts with
  | nil => rfl
  | cons part parts ih =>
    obtain ⟨hpart, hparts⟩ := List.forall_mem_cons.mp h
    have hkept : part.filter (fun c => !Text.isBlank c) = part :=
      List.filter_eq_self.mpr fun c hc => by simp [hpart c hc]
    rw [List.map_cons, String.join_cons, String.toList_append, List.filter_append, ih hparts, line,
      String.toList_append, String.toList_ofList, List.filter_append, hkept]
    simp
    decide

theorem checkHeaders_eq_ok_iff {ls : List String} :
    checkHeaders ls = .ok () ↔ ∀ l ∈ ls, ':' ∈ l.toList := by
  induction ls with
  | nil => simp [checkHeaders]
  | cons l ls ih =>
    rw [checkHeaders]
    split
    next h => simp [ih, show ':' ∈ l.toList by simpa using h]
    next h => simp [show ':' ∉ l.toList by simpa using h]

theorem utf8_encode (s : String) : utf8 (Utf8.encode s) = .ok s := by
  rw [utf8, Utf8.decode_encode]
  rfl

theorem readBlock_frame (hb : b.Writable) (hn : b.tag ≠ "") :
    readBlock b.frame = .ok b.trimmed := by
  have hsymbols : String.ofList (b.dataText.toList.filter fun c => !Text.isBlank c) =
      Base64.encode b.contents := by
    have hfiltered : b.dataText.toList.filter (fun c => !Text.isBlank c) =
        (pieces 64 (Base64.encode b.contents).toList).flatten := by
      rw [dataText, dataLines, List.map_map]
      refine filter_lines fun part hpart c hc => ?_
      exact (Base64.of_mem_encode (mem_of_mem_pieces (by decide) hpart hc)).1
    rw [hfiltered, flatten_pieces (by decide), String.ofList_toList]
  have hlines : lines b.headerText = b.headers.map Text.trim :=
    lines_intercalate fun h hh => ⟨hb.trim_ne_empty hh, hb.oneLine h hh⟩
  have hheaders : checkHeaders (b.headers.map Text.trim) = .ok () := by
    refine checkHeaders_eq_ok_iff.mpr fun l hl => ?_
    obtain ⟨h, hh, rfl⟩ := List.mem_map.mp hl
    exact Text.mem_trim (hb.colon h hh) (by decide)
  have htag : b.tag.isEmpty = false := by simpa using hn
  have hdata : (Base64.decodeText (Base64.encode b.contents)).mapError Fault.data =
      .ok b.contents := by
    rw [Base64.decodeText_encode]
    rfl
  simp [readBlock, frame, utf8_encode, htag, hsymbols, hdata, hlines, hheaders, trimmed, bind,
    Except.bind, pure, Except.pure]

end Block

variable {f : Frame} {b : Block} {bs rest : Bytes} {read : List Block}

theorem splitHeaders_front (body : Bytes) : (splitHeaders body).1 <+: body := by
  unfold splitHeaders
  split
  next h => exact prefix_of_scan h
  next =>
    cases h : scan [13, 10, 13, 10] body with
    | none => exact List.nil_prefix
    | some parts => exact prefix_of_scan h

theorem clear_headers (h : frame? bs = some (f, rest)) : Clear endMarker f.headers := by
  unfold frame? at h
  split at h
  next => cases h
  next =>
    split at h
    next => cases h
    next =>
      split at h
      next => cases h
      next body _ hbody =>
        split at h
        next => cases h
        next =>
          cases h
          obtain ⟨after, hafter⟩ := splitHeaders_front body
          have hclear := clear_of_scan hbody
          rw [← hafter] at hclear
          exact hclear.front

theorem clear_of_mem_frames (h : f ∈ frames bs) : Clear endMarker f.headers := by
  induction bs using frames.induct with
  | case1 bs hnone =>
    rw [frames] at h
    split at h
    next => cases h
    next hsome => simp [hnone] at hsome
  | case2 bs g rest hsome ih =>
    rw [frames] at h
    split at h
    next => cases h
    next g' rest' hsome' =>
      rw [hsome] at hsome'
      cases hsome'
      rcases List.mem_cons.mp h with rfl | h
      · exact clear_headers hsome
      · exact ih h

theorem bind_eq_ok {ε α β : Type} {r : Except ε α} {k : α → Except ε β} {y : β} :
    (r >>= k) = .ok y ↔ ∃ x, r = .ok x ∧ k x = .ok y := by
  cases r <;> simp [bind, Except.bind]

/-- The header lines of a block that is read hold a colon each. -/
theorem headers_of_readBlock (h : readBlock f = .ok b) : ∃ s, utf8 f.headers = .ok s ∧
    b.headers = lines s ∧ checkHeaders (lines s) = .ok () := by
  unfold readBlock at h
  obtain ⟨tag, -, h⟩ := bind_eq_ok.mp h
  split at h
  next => cases h
  obtain ⟨closing, -, h⟩ := bind_eq_ok.mp h
  dsimp only at h
  split at h
  next => cases h
  split at h
  next => cases h
  obtain ⟨data, -, h⟩ := bind_eq_ok.mp h
  obtain ⟨contents, -, h⟩ := bind_eq_ok.mp h
  obtain ⟨s, hs, h⟩ := bind_eq_ok.mp h
  obtain ⟨_, hcheck, h⟩ := bind_eq_ok.mp h
  cases h
  exact ⟨s, hs, rfl, hcheck⟩

theorem writable_of_readBlock (hf : Clear endMarker f.headers) (h : readBlock f = .ok b) :
    b.Writable := by
  obtain ⟨s, hs, hheaders, hcheck⟩ := headers_of_readBlock h
  have hread : Utf8.decode f.headers = .ok s := by
    unfold utf8 at hs
    cases hdecode : Utf8.decode f.headers with
    | error =>
      rw [hdecode] at hs
      cases hs
    | ok t =>
      rw [hdecode] at hs
      cases hs
      rfl
  rw [← Utf8.encode_of_decode hread] at hf
  refine ⟨fun l hl => ?_, fun l hl => ?_, fun l hl => ?_⟩
  · exact Block.checkHeaders_eq_ok_iff.mp hcheck l (hheaders ▸ hl)
  · exact not_mem_of_mem_lines (hheaders ▸ hl)
  · exact clear_of_mem_lines (by decide +kernel) (by decide +kernel) hf (hheaders ▸ hl)

theorem exists_of_mem_mapM {ε α β : Type} {g : α → Except ε β} {as : List α} {made : List β}
    {y : β} (h : as.mapM g = .ok made) (hy : y ∈ made) : ∃ a ∈ as, g a = .ok y := by
  induction as generalizing made with
  | nil =>
    rw [List.mapM_nil] at h
    cases h
    cases hy
  | cons a as ih =>
    rw [List.mapM_cons] at h
    obtain ⟨first, hfirst, h⟩ := bind_eq_ok.mp h
    obtain ⟨others, hothers, h⟩ := bind_eq_ok.mp h
    cases h
    rcases List.mem_cons.mp hy with rfl | hy
    · exact ⟨a, List.mem_cons_self, hfirst⟩
    · obtain ⟨a', ha', hy⟩ := ih hothers hy
      exact ⟨a', List.mem_cons_of_mem _ ha', hy⟩

/-- Every block that is read can be written. -/
theorem writable_of_mem_blocks (h : blocks bs = .ok read) (hb : b ∈ read) : b.Writable := by
  obtain ⟨f, hf, hread⟩ := exists_of_mem_mapM h hb
  exact writable_of_readBlock (clear_of_mem_frames hf) hread

def texts (bs : List Block) : String := String.join (bs.map Block.text)

theorem texts_cons (b : Block) (bs : List Block) : texts (b :: bs) = b.text ++ texts bs := by
  simp [texts]

theorem skipBlanks_texts (bs : List Block) :
    skipBlanks (Utf8.encode (texts bs)) = Utf8.encode (texts bs) := by
  cases bs with
  | nil => rfl
  | cons b bs =>
    have hbegin : beginMarker.head? = some 45 := by decide +kernel
    have hhead : (Utf8.encode (texts (b :: bs))).head? = some 45 := by
      rw [texts_cons, Utf8.encode_append, b.encode_text]
      simp [hbegin]
    refine skipBlanks_eq fun m hm => ?_
    rw [hhead, Option.mem_def, Option.some.injEq] at hm
    subst hm
    decide

theorem frames_texts {bs : List Block} (hw : ∀ b ∈ bs, b.Writable)
    (hn : ∀ b ∈ bs, '-' ∉ b.tag.toList) :
    frames (Utf8.encode (texts bs)) = bs.map Block.frame := by
  induction bs with
  | nil => rw [frames]; rfl
  | cons b bs ih =>
    obtain ⟨hb, hw⟩ := List.forall_mem_cons.mp hw
    obtain ⟨htag, hn⟩ := List.forall_mem_cons.mp hn
    have hframe := Block.frame?_text hb htag (Utf8.encode (texts bs))
    rw [skipBlanks_texts] at hframe
    rw [texts_cons, Utf8.encode_append, frames]
    split
    next hnone => simp [hframe] at hnone
    next f rest hsome =>
      rw [hframe] at hsome
      cases hsome
      rw [ih hw hn, List.map_cons]

/-- What was read and is written is read again, with the header lines trimmed. -/
theorem blocks_texts {bs : List Block} (hw : ∀ b ∈ bs, b.Writable)
    (hn : ∀ b ∈ bs, '-' ∉ b.tag.toList) (hne : ∀ b ∈ bs, b.tag ≠ "") :
    blocks (Utf8.encode (texts bs)) = .ok (bs.map Block.trimmed) := by
  rw [blocks, frames_texts hw hn]
  clear hn
  induction bs with
  | nil => rfl
  | cons b bs ih =>
    obtain ⟨hb, hw⟩ := List.forall_mem_cons.mp hw
    obtain ⟨htag, hne⟩ := List.forall_mem_cons.mp hne
    rw [List.map_cons, List.mapM_cons, Block.readBlock_frame hb htag, ih hw hne]
    rfl

/-- A block that is written is the first one of its text. -/
theorem first_text {b : Block} (hb : b.Writable) (hn : '-' ∉ b.tag.toList) (hne : b.tag ≠ "") :
    first (Utf8.encode b.text) = .ok b.trimmed := by
  have hframe := Block.frame?_text hb hn []
  rw [List.append_nil] at hframe
  rw [first, hframe]
  exact Block.readBlock_frame hb hne

/-- The text of a block begins with that of no other. -/
theorem Block.trimmed_eq_of_prefix {a b : Block} (ha : a.Writable) (hb : b.Writable)
    (hna : '-' ∉ a.tag.toList ∧ a.tag ≠ "") (hnb : '-' ∉ b.tag.toList ∧ b.tag ≠ "")
    (h : a.text.toList <+: b.text.toList) : a.trimmed = b.trimmed := by
  obtain ⟨rest, hrest⟩ := h
  have htext : b.text = a.text ++ String.ofList rest := by
    rw [← String.toList_inj, String.toList_append, String.toList_ofList, hrest]
  have hframe := Block.frame?_text hb hnb.1 []
  rw [List.append_nil, htext, Utf8.encode_append, Block.frame?_text ha hna.1] at hframe
  have hsame : a.frame = b.frame := congrArg Prod.fst (Option.some.inj hframe)
  have hread := Block.readBlock_frame ha hna.2
  rw [hsame, Block.readBlock_frame hb hnb.2] at hread
  exact (Except.ok.inj hread).symm

end CertBroker.Pem
