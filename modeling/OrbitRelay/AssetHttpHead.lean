import OrbitRelay.AssetHttpSlice
import OrbitRelay.TextLines

/-!
# Reading back a printed request head

A request head that is printed line by line is read back as it was, however its bytes
are divided: the blank line ends it and does not occur before its end, in the text
and so in the bytes.
-/
namespace OrbitRelay.AssetHttp

open AssetStore Codec Text

/-- A header that stands in a line of its own. -/
structure PlainHeader (name value : Str) : Prop where
  nonempty : name ≠ []
  trimmed : trim name = name
  uncolon : ':' ∉ name
  oneLine : OneLine name
  value_trimmed : trim value = value
  value_oneLine : OneLine value

/-- A request head that can be printed. -/
structure RequestHead where
  method : Str
  target : Str
  version : Str
  headers : List (Str × Str)
  method_word : IsWord method
  target_word : IsWord target
  version_word : IsWord version
  version_http : "HTTP/1.".toList <+: version
  plain : ∀ h ∈ headers, PlainHeader h.1 h.2
  distinct : (headers.map (fun h => toAsciiLowercase h.1)).Nodup
  bodiless : ∀ h ∈ headers, toAsciiLowercase h.1 = "content-length".toList → h.2 = ['0']

def RequestHead.requestLine (r : RequestHead) : Str := r.method ++ ' ' :: (r.target ++ ' ' :: r.version)

/-- The request line, a line for each header, and a blank line. -/
def RequestHead.print (r : RequestHead) : Str :=
  r.requestLine ++ crlf ++ r.headers.flatMap headerLine ++ crlf

def headerText (h : Str × Str) : Str := h.1 ++ ':' :: ' ' :: h.2

def RequestHead.lines (r : RequestHead) : List Str := r.requestLine :: r.headers.map headerText

/-- A line of a head. -/
structure IsLine (line : Str) : Prop where
  nonempty : line ≠ []
  unbroken : '\r' ∉ line

theorem blank_oneLine {s : Str} (h : ∀ c ∈ s, isWhitespace c = false) : '\r' ∉ s := by
  intro hmem
  have hblank := h _ hmem
  revert hblank
  decide

theorem RequestHead.lines_isLine (r : RequestHead) : ∀ line ∈ r.lines, IsLine line := by
  intro line hline
  rcases List.mem_cons.mp hline with rfl | hline
  · refine ⟨List.append_ne_nil_of_right_ne_nil _ (by simp), ?_⟩
    have hmethod := blank_oneLine r.method_word.solid
    have htarget := blank_oneLine r.target_word.solid
    have hversion := blank_oneLine r.version_word.solid
    simp [RequestHead.requestLine, hmethod, htarget, hversion]
  · obtain ⟨h, hmem, rfl⟩ := List.mem_map.mp hline
    have hplain := r.plain h hmem
    refine ⟨List.append_ne_nil_of_right_ne_nil _ (by simp), ?_⟩
    simp [headerText, hplain.oneLine.1, hplain.value_oneLine.1]

theorem flatMap_lines {lines : List Str} (hne : lines ≠ []) :
    lines.flatMap (· ++ crlf) ++ crlf = crlf.intercalate lines ++ headEnd := by
  induction lines with
  | nil => exact absurd rfl hne
  | cons line lines ih =>
    cases lines with
    | nil => simp [crlf, headEnd]
    | cons next lines =>
      rw [List.flatMap_cons, List.intercalate_cons_cons, List.append_assoc, ih (by simp)]
      simp only [List.append_assoc]

theorem RequestHead.print_eq (r : RequestHead) : r.print = crlf.intercalate r.lines ++ headEnd := by
  have hheader : headerLine = fun h => headerText h ++ crlf := by
    funext h
    simp [headerLine, headerText]
  rw [← flatMap_lines (show r.lines ≠ [] from List.cons_ne_nil _ _), RequestHead.print, RequestHead.lines,
    List.flatMap_cons, hheader, List.flatMap_map]

/-- A line break before a line is not a blank line. -/
theorem splitOnce_break {rest : Str} (hrest : ∀ c s, rest = c :: s → c ≠ '\r') :
    splitOnce headEnd (crlf ++ rest) = (splitOnce headEnd rest).map (fun p => (crlf ++ p.1, p.2)) := by
  have hhead : ¬ headEnd <+: '\r' :: '\n' :: rest := by
    rintro ⟨after, hafter⟩
    cases hafter
    exact hrest _ _ rfl rfl
  have hpass : splitOnce ('\r' :: ['\n', '\r', '\n']) (['\n'] ++ rest) = _ := splitOnce_pass (by decide) rest
  change splitOnce headEnd ('\r' :: '\n' :: rest) = _
  rw [splitOnce, if_neg hhead]
  change (splitOnce headEnd (['\n'] ++ rest)).map _ = _
  rw [headEnd, hpass, Option.map_map]
  rfl

/-- The blank line ends the head, and is not found before. -/
theorem splitOnce_lines {lines : List Str} (hne : lines ≠ []) (hlines : ∀ line ∈ lines, IsLine line) :
    splitOnce headEnd (crlf.intercalate lines ++ headEnd) = some (crlf.intercalate lines, []) := by
  induction lines with
  | nil => exact absurd rfl hne
  | cons line lines ih =>
    have hline := hlines line List.mem_cons_self
    cases lines with
    | nil =>
      rw [List.intercalate_singleton]
      exact splitOnce_piece hline.unbroken []
    | cons next lines =>
      have hnext := hlines next (by simp)
      have hrest := ih (by simp) (fun x hx => hlines x (List.mem_cons_of_mem line hx))
      have hfirst : ∀ c s, crlf.intercalate (next :: lines) ++ headEnd = c :: s → c ≠ '\r' := by
        intro c s hcons
        obtain ⟨rest, hhead⟩ := intercalate_head crlf next lines
        obtain ⟨d, next', rfl⟩ := List.exists_cons_of_ne_nil hnext.nonempty
        rw [hhead] at hcons
        cases hcons
        exact fun hd => hnext.unbroken (hd ▸ List.mem_cons_self)
      rw [List.intercalate_cons_cons, List.append_assoc, List.append_assoc]
      rw [headEnd, splitOnce_pass hline.unbroken, ← headEnd, splitOnce_break hfirst, hrest]
      simp only [Option.map_some, List.append_assoc]

/-! ## The reading loop -/

theorem headEnd_ascii : ∀ c ∈ headEnd, isAscii c = true := List.all_eq_true.mp (by decide +kernel)

/-- In the bytes of a printed head the blank line comes last. -/
theorem RequestHead.print_ends (r : RequestHead) {p : Bytes} (hp : p <+: utf8 r.print) (hend : utf8 headEnd <:+: p) :
    p = utf8 r.print := by
  obtain ⟨rest, hrest⟩ := hp
  obtain ⟨a, b, hab⟩ := hend
  have hbytes : utf8 r.print = a ++ utf8 headEnd ++ (b ++ rest) := by
    rw [← hrest, ← hab, List.append_assoc]
  obtain ⟨x, y, hsplit, -, hy⟩ := utf8_eq_append_append headEnd_ascii hbytes
  have hfound := splitOnce_lines (show r.lines ≠ [] from List.cons_ne_nil _ _) r.lines_isLine
  rw [← r.print_eq] at hfound
  have hshort := splitOnce_first hfound hsplit
  have hlength : r.print.length = x.length + headEnd.length + y.length := by
    rw [hsplit, List.length_append, List.length_append]
    rfl
  rw [r.print_eq, List.length_append] at hlength
  have hnil : y = [] := List.eq_nil_of_length_eq_zero (by omega)
  rw [hnil, utf8_nil] at hy
  obtain ⟨-, hrestnil⟩ := List.append_eq_nil_iff.mp hy.symm
  rw [← hrest, hrestnil, List.append_nil]

/-- Bytes that end at their first blank line are read to their end. -/
theorem readHead_whole {whole : Bytes} (hlength : whole.length ≤ maxHeaderBytes) (hend : utf8 headEnd <:+: whole)
    (hfirst : ∀ p, p <+: whole → utf8 headEnd <:+: p → p = whole) {reads : List Bytes} {buffer : Bytes}
    (hreads : ∀ chunk ∈ reads, chunk ≠ []) (hwhole : buffer ++ reads.flatten = whole) (hmore : buffer ≠ whole) :
    readHead buffer reads = .ok whole := by
  induction reads generalizing buffer with
  | nil =>
    rw [List.flatten_nil, List.append_nil] at hwhole
    exact absurd hwhole hmore
  | cons chunk reads ih =>
    have hchunk := hreads chunk List.mem_cons_self
    have hpos := List.length_pos_of_ne_nil hchunk
    rw [List.flatten_cons, ← List.append_assoc] at hwhole
    have hfree : ¬ buffer.length ≥ maxHeaderBytes := by
      rw [← hwhole] at hlength
      simp only [List.length_append] at hlength
      omega
    rw [readHead, if_neg hfree, if_neg hchunk]
    by_cases hfound : utf8 headEnd <:+: buffer ++ chunk
    · rw [if_pos hfound, hfirst _ ⟨_, hwhole⟩ hfound]
    · rw [if_neg hfound]
      apply ih (fun x hx => hreads x (List.mem_cons_of_mem chunk hx)) hwhole
      rintro heq
      rw [heq] at hfound
      exact hfound hend

/-! ## The parser -/

theorem RequestHead.parseRequestLine_eq (r : RequestHead) :
    parseRequestLine r.requestLine = .ok (r.method, r.target) := by
  have hblank : isWhitespace ' ' = true := by decide
  have hfields : splitWhitespace r.requestLine = [r.method, r.target, r.version] := by
    rw [RequestHead.requestLine, r.method_word.splitWhitespace_append hblank,
      r.target_word.splitWhitespace_append hblank, r.version_word.splitWhitespace]
  rw [parseRequestLine, hfields]
  exact if_pos r.version_http

theorem parseHeader_text {h : Str × Str} (hh : PlainHeader h.1 h.2) (headers : AList (fun _ : Str => Str)) :
    parseHeader headers (headerText h) = .ok (headers.insert (toAsciiLowercase h.1) h.2) := by
  have hsplit : splitOnce [':'] (headerText h) = some (h.1, ' ' :: h.2) := splitOnce_char hh.uncolon _
  have hspace : trim ([' '] ++ h.2) = trim h.2 := trim_append (List.forall_mem_singleton.mpr (by decide)) h.2
  have hvalue : trim (' ' :: h.2) = h.2 := hspace.trans hh.value_trimmed
  have hplain : ¬ (h.1 = [] ∨ '\r' ∈ ' ' :: h.2 ∨ '\n' ∈ ' ' :: h.2) := by
    simp [hh.nonempty, hh.value_oneLine.1, hh.value_oneLine.2]
  rw [parseHeader, hsplit, okOr_some, ok_bind]
  dsimp only
  rw [if_neg hplain, hh.trimmed, hvalue]

/-- The headers, under their names in lower case. -/
def insertAll (headers : AList (fun _ : Str => Str)) (hs : List (Str × Str)) : AList (fun _ : Str => Str) :=
  hs.foldl (fun m x => m.insert (toAsciiLowercase x.1) x.2) headers

theorem parseHeaders_text {hs : List (Str × Str)} (h : ∀ x ∈ hs, PlainHeader x.1 x.2)
    (headers : AList (fun _ : Str => Str)) :
    (hs.map headerText).foldlM parseHeader headers = .ok (insertAll headers hs) := by
  induction hs generalizing headers with
  | nil => rfl
  | cons x hs ih =>
    rw [List.map_cons, List.foldlM_cons, parseHeader_text (h x List.mem_cons_self), ok_bind,
      ih (fun y hy => h y (List.mem_cons_of_mem x hy))]
    rfl

/-- Headers with different names are all in the map, and nothing else is. -/
theorem lookup_inserted {hs : List (Str × Str)} (h : (hs.map (fun x => toAsciiLowercase x.1)).Nodup)
    (headers : AList (fun _ : Str => Str)) (name value : Str) :
    (insertAll headers hs).lookup name = some value ↔
      (∃ x ∈ hs, toAsciiLowercase x.1 = name ∧ x.2 = value) ∨
      ((∀ x ∈ hs, toAsciiLowercase x.1 ≠ name) ∧ headers.lookup name = some value) := by
  induction hs generalizing headers with
  | nil => simp [insertAll]
  | cons x hs ih =>
    obtain ⟨hx, hrest⟩ := List.nodup_cons.mp h
    change (insertAll (headers.insert (toAsciiLowercase x.1) x.2) hs).lookup name = some value ↔ _
    rw [ih hrest]
    by_cases hname : toAsciiLowercase x.1 = name
    · subst hname
      have hothers : ∀ y ∈ hs, toAsciiLowercase y.1 ≠ toAsciiLowercase x.1 :=
        fun y hy heq => hx (List.mem_map.mpr ⟨y, hy, heq⟩)
      rw [AList.lookup_insert]
      constructor
      · rintro (⟨y, hy, heq, -⟩ | ⟨-, hvalue⟩)
        · exact absurd heq (hothers y hy)
        · exact .inl ⟨x, List.mem_cons_self, rfl, Option.some.inj hvalue⟩
      · rintro (⟨y, hy, heq, hvalue⟩ | ⟨hnone, -⟩)
        · rcases List.mem_cons.mp hy with rfl | hy
          · exact .inr ⟨hothers, congrArg some hvalue⟩
          · exact absurd heq (hothers y hy)
        · exact absurd rfl (hnone x List.mem_cons_self)
    · rw [AList.lookup_insert_ne (Ne.symm hname)]
      simp [hname]

theorem RequestHead.parseHead_print (r : RequestHead) :
    ∃ request, parseHead r.print = .ok request ∧ request.method = r.method ∧ request.target = r.target ∧
      ∀ name value, request.headers.lookup name = some value ↔
        ∃ h ∈ r.headers, toAsciiLowercase h.1 = name ∧ h.2 = value := by
  have hne : r.lines ≠ [] := List.cons_ne_nil _ _
  have hfront : (split headEnd r.print).headD [] = crlf.intercalate r.lines := by
    have hfound := splitOnce_lines hne r.lines_isLine
    rw [← r.print_eq] at hfound
    unfold split
    cases hlength : r.print.length with
    | zero =>
      rw [List.eq_nil_of_length_eq_zero hlength] at hfound
      cases hfound
    | succ n => simp only [splitUpTo, hfound, List.headD_cons]
  have hlines : split crlf (crlf.intercalate r.lines) = r.requestLine :: r.headers.map headerText :=
    split_intercalate hne (fun line hline => (r.lines_isLine line hline).unbroken)
  have hmap : ∀ name value,
      (insertAll ∅ r.headers).lookup name = some value ↔
        ∃ h ∈ r.headers, toAsciiLowercase h.1 = name ∧ h.2 = value := by
    intro name value
    rw [lookup_inserted r.distinct]
    simp
  refine ⟨⟨r.method, r.target, _⟩, ?_, rfl, rfl, hmap⟩
  unfold parseHead
  rw [hfront, hlines]
  dsimp only
  rw [r.parseRequestLine_eq, ok_bind]
  dsimp only
  rw [parseHeaders_text r.plain, ok_bind]
  cases hbody : (insertAll ∅ r.headers).lookup "content-length".toList with
  | none => rfl
  | some length =>
    obtain ⟨h, hmem, hname, rfl⟩ := (hmap _ _).mp hbody
    exact if_neg (not_not.mpr (r.bodiless h hmem hname))

/-! ## Reading a request -/

theorem RequestHead.readRequest_print (r : RequestHead) {reads : List Bytes} (hreads : ∀ chunk ∈ reads, chunk ≠ [])
    (hbytes : reads.flatten = utf8 r.print) (hlength : (utf8 r.print).length ≤ maxHeaderBytes) :
    readRequest reads = parseHead r.print := by
  have hend : utf8 headEnd <:+: utf8 r.print := by
    rw [r.print_eq, utf8_append]
    exact (List.suffix_append _ _).isInfix
  have hne : ([] : Bytes) ≠ utf8 r.print := by
    intro hnil
    rw [← hnil] at hend
    exact absurd (List.eq_nil_of_infix_nil hend) (by decide)
  rw [readRequest, readHead_whole hlength hend (fun p => r.print_ends) hreads hbytes hne, ok_bind, fromUtf8_utf8,
    okOr_some, ok_bind]

/-- What a text must have been to be accepted as a head. -/
structure Accepted (text : Str) (request : HttpRequest) : Prop where
  requestLine : ∃ line lines version, split crlf ((split headEnd text).headD []) = line :: lines ∧
    splitWhitespace line = [request.method, request.target, version] ∧ "HTTP/1.".toList <+: version
  values : ∀ name value, request.headers.lookup name = some value → OneLine value

theorem parseRequestLine_ok {line method target : Str} (h : parseRequestLine line = .ok (method, target)) :
    ∃ version, splitWhitespace line = [method, target, version] ∧ "HTTP/1.".toList <+: version := by
  unfold parseRequestLine at h
  split at h
  · rename_i first second version hfields
    split at h
    · cases h
      exact ⟨version, hfields, by assumption⟩
    · cases h
  · cases h

theorem parseHead_ok {text : Str} {request : HttpRequest} (h : parseHead text = .ok request) :
    ∃ line lines version, split crlf ((split headEnd text).headD []) = line :: lines ∧
      splitWhitespace line = [request.method, request.target, version] ∧ "HTTP/1.".toList <+: version ∧
      lines.foldlM parseHeader ∅ = .ok request.headers ∧
      ∀ length, request.headers.lookup "content-length".toList = some length → length = ['0'] := by
  unfold parseHead at h
  split at h
  · cases h
  · rename_i line lines hlines
    obtain ⟨⟨method, target⟩, hline, h⟩ := bind_ok h
    obtain ⟨headers, hheaders, h⟩ := bind_ok h
    obtain ⟨version, hfields, hversion⟩ := parseRequestLine_ok hline
    split at h
    · rename_i length hlength
      split at h
      · cases h
      · rename_i hempty
        cases h
        refine ⟨line, lines, version, hlines, hfields, hversion, hheaders, ?_⟩
        intro other hother
        cases hlength.symm.trans hother
        exact not_not.mp hempty
    · rename_i hnone
      cases h
      refine ⟨line, lines, version, hlines, hfields, hversion, hheaders, ?_⟩
      intro other hother
      cases hnone.symm.trans hother

theorem parseHead_accepted {text : Str} {request : HttpRequest} (h : parseHead text = .ok request) :
    Accepted text request := by
  obtain ⟨line, lines, version, hlines, hfields, hversion, hheaders, -⟩ := parseHead_ok h
  exact ⟨⟨line, lines, version, hlines, hfields, hversion⟩,
    parseHeaders_oneLine (fun _ _ hnone => by simp at hnone) hheaders⟩

/-- A printed head of at most 16384 bytes is read back as it was, however its bytes are divided into reads; and every
request that is returned comes from a head with a request line of three fields and header values of one line. -/
theorem readRequest_inverts_print :
    (∀ (r : RequestHead) (reads : List Bytes), (∀ chunk ∈ reads, chunk ≠ []) → reads.flatten = utf8 r.print →
      (utf8 r.print).length ≤ maxHeaderBytes →
      ∃ request, readRequest reads = .ok request ∧ request.method = r.method ∧ request.target = r.target ∧
        ∀ name value, request.headers.lookup name = some value ↔
          ∃ h ∈ r.headers, toAsciiLowercase h.1 = name ∧ h.2 = value) ∧
    ∀ (reads : List Bytes) (request : HttpRequest), readRequest reads = .ok request →
      ∃ buffer text, readHead [] reads = .ok buffer ∧ fromUtf8 buffer = some text ∧ Accepted text request := by
  constructor
  · intro r reads hreads hbytes hlength
    rw [r.readRequest_print hreads hbytes hlength]
    exact r.parseHead_print
  · intro reads request h
    obtain ⟨buffer, hbuffer, h⟩ := bind_ok h
    obtain ⟨text, htext, h⟩ := bind_ok h
    exact ⟨buffer, text, hbuffer, okOr_eq_ok.mp htext, parseHead_accepted h⟩

def sampleHead : RequestHead where
  method := "GET".toList
  target := "/assets/a".toList
  version := "HTTP/1.1".toList
  headers := [("Host".toList, "é".toList), ("Content-Length".toList, "0".toList), ("Accept".toList, [])]
  method_word := by decide +kernel
  target_word := by decide +kernel
  version_word := by decide +kernel
  version_http := by decide
  plain := by
    intro h hmem
    simp only [List.mem_cons, List.not_mem_nil, or_false] at hmem
    rcases hmem with rfl | rfl | rfl <;> constructor <;> decide
  distinct := by decide
  bodiless := by decide

/-- A head that comes byte by byte. -/
theorem readRequest_inverts_print_sample :
    ∃ request, readRequest ((utf8 sampleHead.print).map (fun b => [b])) = .ok request ∧
      request.method = "GET".toList ∧ request.target = "/assets/a".toList ∧
      ∀ name value, request.headers.lookup name = some value ↔
        ∃ h ∈ sampleHead.headers, toAsciiLowercase h.1 = name ∧ h.2 = value := by
  refine readRequest_inverts_print.1 sampleHead _ ?_ ?_ (by decide +kernel)
  · intro chunk hchunk
    obtain ⟨b, -, rfl⟩ := List.mem_map.mp hchunk
    exact List.cons_ne_nil b []
  · induction utf8 sampleHead.print with
    | nil => rfl
    | cons b bytes ih => rw [List.map_cons, List.flatten_cons, ih, List.singleton_append]

end OrbitRelay.AssetHttp
