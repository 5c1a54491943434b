import CertBroker.Proofs.Pki.Addressing

namespace CertBroker

open Net Net.Url

namespace Pki

variable {e : Endpoint} {c : Credentials} {k : Client} {base : Url} {id : String}

/-- An id that stands for itself as a segment of a path. -/
structure IsPlainId (id : String) : Prop where
  chars : ∀ ch ∈ id.toList, isSlash true ch = false ∧ ch ≠ '?' ∧ ch ≠ '#' ∧ isDropped ch = false
  dots : id ≠ "." ∧ id ≠ ".."
  last : ∀ ch ∈ id.toList.getLast?, isBlank ch = false
  /-- No code stands in it. -/
  codeless : PercentCode.decode (Utf8.encode id) = Utf8.encode id

/-- What of an id gets into the path. -/
def pathPart (id : String) : List Char := (splitEnd (ended id.toList)).1

theorem pathPart_sublist (id : String) : (pathPart id).Sublist id.toList := by
  rw [pathPart, splitEnd, List.span_eq_takeWhile_dropWhile, ended]
  exact (List.takeWhile_sublist _).trans
    (List.filter_sublist.trans (List.rdropWhile_prefix _ _).sublist)

theorem IsPlainId.ended_eq (h : IsPlainId id) : ended id.toList = id.toList := by
  have hkept : id.toList.rdropWhile isBlank = id.toList :=
    List.rdropWhile_eq_self_iff.mpr fun hne => by
      simp [h.last _ (List.getLast?_eq_some_getLast hne)]
  rw [ended, hkept]
  exact List.filter_eq_self.mpr fun ch hch => by simp [h.chars ch hch]

theorem IsPlainId.splitEnd_eq (h : IsPlainId id) :
    splitEnd (ended id.toList) = (id.toList, []) := by
  rw [h.ended_eq]
  exact splitEnd_of_plain fun ch hch => ⟨(h.chars ch hch).2.1, (h.chars ch hch).2.2.1⟩

theorem IsPlainId.notMem (h : IsPlainId id) : '/' ∉ id.toList :=
  fun hmem => absurd (h.chars '/' hmem).1 (by decide)

/-- An id that gets into the path as a whole is plain, but for slashes, dots and codes. -/
theorem chars_of_pathPart (h : pathPart id = id.toList) :
    (∀ ch ∈ id.toList, ch ≠ '?' ∧ ch ≠ '#' ∧ isDropped ch = false) ∧
      ∀ ch ∈ id.toList.getLast?, isBlank ch = false := by
  have htake : (pathPart id).Sublist (ended id.toList) := by
    rw [pathPart, splitEnd, List.span_eq_takeWhile_dropWhile]
    exact List.takeWhile_sublist _
  have hfilter : (ended id.toList).Sublist (id.toList.rdropWhile isBlank) := List.filter_sublist
  have hdrop : (id.toList.rdropWhile isBlank).Sublist id.toList :=
    (List.rdropWhile_prefix _ _).sublist
  rw [h] at htake
  have hkept : id.toList.rdropWhile isBlank = id.toList :=
    hdrop.antisymm (htake.trans hfilter)
  have hended : ended id.toList = id.toList := (hfilter.trans hdrop).antisymm htake
  refine ⟨fun ch hch => ?_, fun ch hch => ?_⟩
  · have hplain : (ch != '?' && ch != '#') = true := by
      have hmem : ch ∈ pathPart id := by rwa [h]
      rw [pathPart, splitEnd, List.span_eq_takeWhile_dropWhile] at hmem
      exact List.mem_takeWhile_imp (p := fun c => c != '?' && c != '#') hmem
    have hmem : ch ∈ ended id.toList := by rwa [hended]
    have hnot := (List.mem_filter.mp hmem).2
    simp only [Bool.and_eq_true, bne_iff_ne, ne_eq] at hplain
    exact ⟨hplain.1, hplain.2, by simpa using hnot⟩
  · have hne : id.toList ≠ [] := fun hnil => by
      rw [hnil] at hch
      cases hch
    have hlast := List.rdropWhile_eq_self_iff.mp hkept hne
    rw [List.getLast?_eq_some_getLast hne] at hch
    cases hch
    simpa using hlast

/-- The path before an id. -/
def requestsPath : List Char := "api/v1/requests".toList

theorem Call.toList_path_poll (id : String) :
    (Call.poll id).path.toList = '/' :: (requestsPath ++ '/' :: id.toList) := by
  have hpath : (Call.poll id).path = "/api/v1/requests/" ++ id := rfl
  have hfront : "/api/v1/requests/".toList = '/' :: (requestsPath ++ ['/']) := by decide
  rw [hpath, String.toList_append, hfront]
  simp

/-- The URL of a poll, where the path of the calls is resolved in a folder. -/
def pollUrl (base : Url) (folder : List (List Char)) (id : String) : Url :=
  base.inFolder folder (ended (requestsPath ++ '/' :: id.toList))

theorem pollUrl_split (id : String) : splitEnd (ended (requestsPath ++ '/' :: id.toList)) =
    (requestsPath ++ '/' :: pathPart id, (splitEnd (ended id.toList)).2) := by
  have hended : ended (requestsPath ++ '/' :: id.toList) =
      requestsPath ++ '/' :: ended id.toList := by
    rw [ended, rdropWhile_append_slash, List.filter_append]
    rfl
  have hplain : ∀ c ∈ requestsPath, c ≠ '?' ∧ c ≠ '#' := List.all_iff_forall_prop.mp (by decide)
  rw [hended, splitEnd_append_slash hplain]
  rfl

theorem toList_pathText_pollUrl (base : Url) (folder : List (List Char)) (id : String) :
    (pollUrl base folder id).pathText.toList =
      textOf (resolve (folder ++ pieces requestsPath) (pieces (pathPart id))) := by
  rw [pollUrl, toList_pathText_inFolder, pollUrl_split, pieces_append_slash,
    resolve_append _ _ (pieces_ne_nil _), foldl_enter_of_plain (by decide)]

/-- A segment that is read as an id is the id of a plain one. -/
theorem isPlainId_of_segment {done : List (List Char)} {front segment : List Char}
    (hfree : '/' ∉ segment)
    (hread : PercentCode.decode (PercentCode.bytesOf segment) = PercentCode.bytesOf id.toList)
    (h : textOf (resolve done (pieces (pathPart id))) = front ++ '/' :: segment) :
    IsPlainId id := by
  obtain ⟨before, last, hsuffix, hplain, ⟨hresolve, hne⟩ | ⟨hresolve, hdouble, hdot⟩⟩ :=
    exists_last_resolve done (pathPart id)
  · rw [hresolve, textOf_concat] at h
    obtain rfl : [] = segment := last_inj List.not_mem_nil hfree h
    have hid : [] = id.toList := PercentCode.bytesOf_injective hread
    have hsub := hsuffix.sublist.trans (pathPart_sublist id)
    rw [← hid] at hsub
    exact absurd (List.sublist_nil.mp hsub) hne
  · have hlast : '/' ∉ last := fun hmem => absurd (hplain '/' hmem) (by decide)
    rw [hresolve, textOf_concat] at h
    obtain rfl := last_inj (notMem_encode hlast) hfree h
    rw [PercentCode.decode_encode PercentCode.sparing_inPath] at hread
    have hshort := PercentCode.length_decode_le (PercentCode.bytesOf last)
    rw [hread] at hshort
    have hsub := hsuffix.sublist.trans (pathPart_sublist id)
    obtain rfl := PercentCode.eq_of_sublist hsub hshort
    obtain ⟨hchars, hend⟩ := chars_of_pathPart ((pathPart_sublist id).antisymm hsuffix.sublist)
    refine ⟨fun ch hch => ⟨hplain ch hch, hchars ch hch⟩, ⟨?_, ?_⟩, hend, hread⟩
    · rintro rfl
      cases hdot
    · rintro rfl
      cases hdouble

/-- The path of a plain id ends in a segment of its own. -/
theorem IsPlainId.textOf_resolve (h : IsPlainId id) (done : List (List Char)) :
    textOf (resolve done (pieces (pathPart id))) =
      textOf done ++ '/' :: PercentCode.encode PercentCode.inPath id.toList := by
  have hread : PercentCode.decode
      (PercentCode.bytesOf (PercentCode.encode PercentCode.inPath id.toList)) =
      PercentCode.bytesOf id.toList :=
    (PercentCode.decode_encode PercentCode.sparing_inPath _).trans h.codeless
  have hdots : ¬ (isDoubleDot (PercentCode.encode PercentCode.inPath id.toList) = true ∨
      isDot (PercentCode.encode PercentCode.inPath id.toList) = true) := by
    intro hdots
    rcases decode_of_dots hdots with hdots | hdots <;> rw [hread] at hdots
    · exact h.dots.2 (String.toList_injective
        (PercentCode.bytesOf_injective (hdots.trans (by decide))))
    · exact h.dots.1 (String.toList_injective
        (PercentCode.bytesOf_injective (hdots.trans (by decide))))
  rw [not_or, Bool.not_eq_true, Bool.not_eq_true] at hdots
  rw [pathPart, h.splitEnd_eq, pieces_of_plain fun ch hch => (h.chars ch hch).1,
    resolve_of_plain (by simp) (by simpa using hdots), textOf_concat]

/-- A message that asks for the request of an id below a base. -/
structure Message.Asks (m : Message) (base : Url) (id : String) : Prop where
  scheme : m.url.scheme = base.scheme
  host : m.url.host = base.host
  port : m.url.port = base.port
  path : ∃ segment : String, '/' ∉ segment.toList ∧
    m.url.pathText =
      Client.withoutLastSlashes base.pathText ++ "/api/v1/requests/" ++ segment ∧
    PercentCode.decode (Utf8.encode segment) = Utf8.encode id
  query : m.url.query = none

theorem toList_requestPath (path segment : String) :
    (Client.withoutLastSlashes path ++ "/api/v1/requests/" ++ segment).toList =
      bare path.toList ++ '/' :: requestsPath ++ '/' :: segment.toList := by
  have hmiddle : "/api/v1/requests/".toList = '/' :: (requestsPath ++ ['/']) := by decide
  rw [String.toList_append, String.toList_append, Client.toList_withoutLastSlashes, hmiddle]
  simp

theorem asks_iff {folder : List (List Char)} {m : Message} (hm : m.url = pollUrl base folder id) :
    m.Asks base id ↔ textOf folder = bare base.pathText.toList ∧ IsPlainId id := by
  have htext := toList_pathText_pollUrl base folder id
  rw [← hm] at htext
  have hbefore : textOf (folder ++ pieces requestsPath) = textOf folder ++ '/' :: requestsPath := by
    have hpieces : textOf (pieces requestsPath) = '/' :: requestsPath := by decide
    rw [textOf_append, hpieces]
  constructor
  · intro hasks
    obtain ⟨segment, hfree, hpath, hread⟩ := hasks.path
    have hwhole := htext.symm.trans
      ((congrArg String.toList hpath).trans (toList_requestPath _ segment))
    have hplain := isPlainId_of_segment hfree hread hwhole
    rw [hplain.textOf_resolve, hbefore] at hwhole
    have hsegment := last_inj (notMem_encode hplain.notMem) hfree hwhole
    rw [hsegment] at hwhole
    exact ⟨List.append_cancel_right (List.append_cancel_right hwhole), hplain⟩
  · rintro ⟨hfolder, hplain⟩
    rw [hplain.textOf_resolve, hbefore, hfolder] at htext
    refine ⟨by rw [hm]; rfl, by rw [hm]; rfl, by rw [hm]; rfl,
      ⟨String.ofList (PercentCode.encode PercentCode.inPath id.toList), ?_, ?_, ?_⟩, ?_⟩
    · rw [String.toList_ofList]
      exact notMem_encode hplain.notMem
    · apply String.toList_injective
      rw [toList_requestPath, String.toList_ofList, htext]
    · rw [← PercentCode.bytesOf_toList, String.toList_ofList,
        PercentCode.decode_encode PercentCode.sparing_inPath]
      exact hplain.codeless
    · rw [hm, pollUrl, Url.inFolder, pollUrl_split, hplain.splitEnd_eq]
      rfl

/-- A message that asks for an id asks for no other one. -/
theorem Message.Asks.id_eq {m m' : Message} {id' : String} (h : m.Asks base id)
    (h' : m'.Asks base id') (hpath : m.url.pathText = m'.url.pathText) : id = id' := by
  obtain ⟨segment, hfree, htext, hread⟩ := h.path
  obtain ⟨segment', hfree', htext', hread'⟩ := h'.path
  have hwhole := congrArg String.toList (htext.symm.trans (hpath.trans htext'))
  rw [toList_requestPath, toList_requestPath] at hwhole
  obtain rfl := String.toList_injective (last_inj hfree hfree' hwhole)
  exact String.toList_injective (PercentCode.bytesOf_injective (hread.symm.trans hread'))

theorem exists_pollUrl [HostName.Rules] (h : Client.ofEndpoint e c = .ok k)
    (hparse : parse e.baseUrl = .ok base)
    (hquery : base.query = none) (hfragment : base.fragment = none) :
    ∃ folder, ∀ id m, SendsOnly k (.poll id) m → m.method = .get ∧
      m.url = pollUrl base folder id ∧
      (IsBase e.baseUrl ↔ textOf folder = bare base.pathText.toList) := by
  obtain ⟨base', hparse', hweb⟩ := Client.ofEndpoint_baseUrl h
  obtain rfl := Except.ok.inj (hparse.symm.trans hparse')
  obtain rfl := Client.ofEndpoint_eq_ok h
  simp only [sendsOnly_iff, Client.message?_eq_some_iff]
  cases course hparse hweb with
  | lost unfit read =>
    refine ⟨[], ?_⟩
    rintro id m ⟨url, hurl, -⟩
    obtain ⟨fault, hread⟩ := read _ _ (Call.toList_path_poll id)
    cases hread.symm.trans hurl
  | hidden unfit ends read =>
    rcases ends with hends | hends
    · exact absurd hquery hends
    · exact absurd hfragment hends
  | found folder fits read =>
    refine ⟨folder, ?_⟩
    rintro id m ⟨url, hurl, -, rfl⟩
    exact ⟨rfl, Except.ok.inj (hurl.symm.trans (read _ _ (Call.toList_path_poll id))), fits⟩

/-- Below a base with neither query nor fragment a poll sends nothing, or one message, which asks
for the request of its id exactly if paths can be put after the base and the id is plain; and the
messages for two plain ids go to different paths. -/
theorem asks_iff_plain [HostName.Rules] (h : Client.ofEndpoint e c = .ok k)
    (hparse : parse e.baseUrl = .ok base)
    (hquery : base.query = none) (hfragment : base.fragment = none) :
    (∀ id, SendsNothing k (.poll id) ∨ ∃ m, SendsOnly k (.poll id) m ∧ m.method = .get ∧
      (m.Asks base id ↔ IsBase e.baseUrl ∧ IsPlainId id)) ∧
    ∀ id id' m m', SendsOnly k (.poll id) m → SendsOnly k (.poll id') m' → IsBase e.baseUrl →
      IsPlainId id → IsPlainId id' → m.url.pathText = m'.url.pathText → id = id' := by
  obtain ⟨folder, hpolls⟩ := exists_pollUrl h hparse hquery hfragment
  constructor
  · intro id
    refine (sends k (.poll id)).imp_right ?_
    rintro ⟨m, hsends⟩
    obtain ⟨hmethod, hurl, hfits⟩ := hpolls id m hsends
    exact ⟨m, hsends, hmethod, (asks_iff hurl).trans (and_congr_left' hfits.symm)⟩
  · intro id id' m m' hsends hsends' hbase hid hid' hpath
    obtain ⟨-, hurl, hfits⟩ := hpolls id m hsends
    obtain ⟨-, hurl', -⟩ := hpolls id' m' hsends'
    have hasks := (asks_iff hurl).mpr ⟨hfits.mp hbase, hid⟩
    exact hasks.id_eq ((asks_iff hurl').mpr ⟨hfits.mp hbase, hid'⟩) hpath

theorem asks_of_samplePki : ∃ k m,
    Client.ofEndpoint (samplePki "https://pki.test/pki/") samplePassword = .ok k ∧
      SendsOnly k (.poll "req 1") m ∧ m.Asks sampleBase "req 1" := by
  have hclient : Client.ofEndpoint (samplePki "https://pki.test/pki/") samplePassword =
      .ok (sampleClient "https://pki.test/pki") := by decide +kernel
  have hbase : parse "https://pki.test/pki/" = .ok sampleBase := by decide +kernel
  have hsent : ((sampleClient "https://pki.test/pki").message? (.poll "req 1")).isSome = true := by
    decide +kernel
  have hid : IsPlainId "req 1" :=
    ⟨List.all_iff_forall_prop.mp (by decide), by decide, by rintro ch ⟨⟩; decide, by decide⟩
  obtain ⟨hpolls, -⟩ := asks_iff_plain hclient hbase rfl rfl
  rcases hpolls "req 1" with hnothing | ⟨m, hsends, -, hasks⟩
  · obtain ⟨m, hm⟩ := Option.isSome_iff_exists.mp hsent
    obtain ⟨hevents, -⟩ := (hnothing _ _).mp ((sendsOnly_iff.mpr hm _ _).mpr ⟨none, rfl, rfl⟩)
    cases hevents
  · exact ⟨_, m, hclient, hsends, hasks.mpr ⟨isBase_samplePki, hid⟩⟩

/-- An id with dots leads to the place of another call. -/
theorem asks_of_dots : ∃ k m,
    Client.ofEndpoint (samplePki "https://pki.test/pki/") samplePassword = .ok k ∧
      SendsOnly k (.poll "../security/principals/self") m ∧
      m.url.pathText = "/pki" ++ Call.checkHealth.path := by
  refine ⟨sampleClient "https://pki.test/pki", ?_⟩
  have hmessage : (sampleClient "https://pki.test/pki").message?
      (.poll "../security/principals/self") = some
        { method := .get, body := none, login := some ("svc", "secret")
          url := {
            scheme := "https", host := some (.name "pki.test")
            path := .segments ["pki", "api", "v1", "security", "principals", "self"] } } := by
    decide +kernel
  exact ⟨_, by decide +kernel, sendsOnly_iff.mpr hmessage, by decide⟩

end Pki

end CertBroker
