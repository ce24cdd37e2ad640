import OrbitRelay.AssetHttpHead

/-!
# Request heads in segments

What `read_request` makes of a stream is decided by its head, by where the read
begins that completes the head, and by what that read brings along from behind it.
-/
namespace OrbitRelay.AssetHttp

open AssetStore Codec Text

/-! ## The read that completes the head -/

/-- Bytes that end at their first blank line. -/
structure IsHead (head : Bytes) : Prop where
  ends : utf8 headEnd <:+ head
  first : ∀ p, p <+: head → utf8 headEnd <:+: p → p = head

/-- Where the read begins that reaches position `n`, and what it brings from there on. -/
def lastRead (n start : Nat) : List Bytes → Nat × Bytes
  | [] => (start, [])
  | chunk :: rest =>
    if n ≤ start + chunk.length then (start, chunk.drop (n - start)) else lastRead n (start + chunk.length) rest

theorem le_lastRead (n : Nat) (reads : List Bytes) : ∀ start, start ≤ (lastRead n start reads).1 := by
  induction reads with
  | nil => exact fun start => le_rfl
  | cons chunk reads ih =>
    intro start
    rw [lastRead]
    split
    · exact le_rfl
    · exact (Nat.le_add_right _ _).trans (ih _)

/-- The loop ends with the read that completes the head, if that begins within the limit. -/
theorem readHead_lastRead {head : Bytes} (hhead : IsHead head) {reads : List Bytes} {buffer : Bytes}
    (hreads : ∀ chunk ∈ reads, chunk ≠ []) (hwhole : head <+: buffer ++ reads.flatten)
    (hmore : buffer.length < head.length) :
    readHead buffer reads =
      if (lastRead head.length buffer.length reads).1 ≥ maxHeaderBytes then .error .request
      else .ok (head ++ (lastRead head.length buffer.length reads).2) := by
  induction reads generalizing buffer with
  | nil =>
    rw [List.flatten_nil, List.append_nil] at hwhole
    have hle := hwhole.length_le
    omega
  | cons chunk reads ih =>
    have hchunk := hreads chunk List.mem_cons_self
    rw [List.flatten_cons, ← List.append_assoc] at hwhole
    rw [readHead, lastRead, if_neg hchunk]
    by_cases hlast : head.length ≤ buffer.length + chunk.length
    · have hcovers : head <+: buffer ++ chunk :=
        List.prefix_of_prefix_length_le hwhole (List.prefix_append _ _) (by rw [List.length_append]; exact hlast)
      have hfound : utf8 headEnd <:+: buffer ++ chunk := hhead.ends.isInfix.trans hcovers.isInfix
      have hbuffer : buffer <+: head :=
        List.prefix_of_prefix_length_le ((List.prefix_append _ _).trans (List.prefix_append _ _)) hwhole hmore.le
      have hrest : buffer ++ chunk = head ++ chunk.drop (head.length - buffer.length) := by
        obtain ⟨more, rfl⟩ := hbuffer
        obtain ⟨tail, htail⟩ := hcovers
        rw [List.append_assoc] at htail
        have hsplit := List.append_cancel_left htail
        rw [← hsplit, List.length_append, Nat.add_sub_cancel_left, List.drop_left, List.append_assoc]
      rw [if_pos hlast, if_pos hfound, hrest]
    · have hlonger : (buffer ++ chunk).length < head.length := by
        rw [List.length_append]
        omega
      have hnone : ¬ utf8 headEnd <:+: buffer ++ chunk := by
        intro hfound
        have hprefix : buffer ++ chunk <+: head :=
          List.prefix_of_prefix_length_le (List.prefix_append _ _) hwhole hlonger.le
        rw [hhead.first _ hprefix hfound] at hlonger
        exact lt_irrefl _ hlonger
      have hnext := ih (fun x hx => hreads x (List.mem_cons_of_mem chunk hx)) hwhole hlonger
      rw [List.length_append] at hnext
      rw [if_neg hlast, if_neg hnone, hnext]
      by_cases hfull : buffer.length ≥ maxHeaderBytes
      · have hle := le_lastRead head.length reads (buffer.length + chunk.length)
        rw [if_pos hfull, if_pos (by omega)]
      · rw [if_neg hfull]

/-! ## Well-formed heads -/

/-- A header line: a name, a colon and a value. -/
def IsHeader (line : Str) : Prop :=
  ∃ name value, line = name ++ ':' :: value ∧ ':' ∉ name ∧ name ≠ [] ∧ OneLine value

/-- Name and value of a header line as they are kept. -/
def namedValue (line : Str) : Option (Str × Str) :=
  (splitOnce [':'] line).map fun (name, value) => (toAsciiLowercase (trim name), trim value)

/-- A request line of three fields, and headers of which the last `content-length` is `0`. -/
structure WellFormed (text : Str) (requestLine : Str) (lines : List Str) : Prop where
  split : split crlf ((split headEnd text).headD []) = requestLine :: lines
  requestLine : ∃ method target version, splitWhitespace requestLine = [method, target, version] ∧
    "HTTP/1.".toList <+: version
  headers : ∀ line ∈ lines, IsHeader line
  bodiless : ∀ value, (lines.filterMap namedValue).reverse.lookup "content-length".toList = some value → value = ['0']

theorem isHeader_iff {line : Str} :
    IsHeader line ↔ ∃ name value, splitOnce [':'] line = some (name, value) ∧ name ≠ [] ∧ OneLine value := by
  constructor
  · rintro ⟨name, value, rfl, hcolon, hname, hvalue⟩
    exact ⟨name, value, splitOnce_char hcolon value, hname, hvalue⟩
  · rintro ⟨name, value, hsplit, hname, hvalue⟩
    have hline := splitOnce_append hsplit
    rw [List.append_assoc] at hline
    refine ⟨name, value, hline, ?_, hname, hvalue⟩
    intro hcolon
    obtain ⟨x, y, rfl⟩ := List.append_of_mem hcolon
    have hfirst := splitOnce_first hsplit (x := x) (y := y ++ ':' :: value) (by rw [hline]; simp)
    simp at hfirst

theorem parseHeader_error {headers : AList (fun _ : Str => Str)} {line : Str} {e : HttpTaskError}
    (h : parseHeader headers line = .error e) : e = .request := by
  unfold parseHeader at h
  cases hsplit : splitOnce [':'] line with
  | none =>
    rw [hsplit] at h
    cases h
    rfl
  | some p =>
    rw [hsplit, okOr_some, ok_bind] at h
    dsimp only at h
    split at h
    · cases h
      rfl
    · cases h

theorem parseHeader_ok_iff {headers headers' : AList (fun _ : Str => Str)} {line : Str} :
    parseHeader headers line = .ok headers' ↔
      IsHeader line ∧ ∃ p, namedValue line = some p ∧ headers' = headers.insert p.1 p.2 := by
  rw [isHeader_iff]
  unfold parseHeader namedValue
  cases hsplit : splitOnce [':'] line with
  | none => simp
  | some p =>
    obtain ⟨name, value⟩ := p
    rw [okOr_some, ok_bind]
    dsimp only
    by_cases hbad : name = [] ∨ '\r' ∈ value ∨ '\n' ∈ value
    · rw [if_pos hbad]
      constructor
      · intro h
        cases h
      · rintro ⟨⟨n, v, heq, hname, hvalue⟩, -⟩
        cases heq
        rcases hbad with hnil | hr | hn
        · exact absurd hnil hname
        · exact absurd hr hvalue.1
        · exact absurd hn hvalue.2
    · rw [if_neg hbad]
      obtain ⟨hname, hvalue⟩ := not_or.mp hbad
      constructor
      · intro h
        cases h
        exact ⟨⟨name, value, rfl, hname, not_or.mp hvalue⟩, _, rfl, rfl⟩
      · rintro ⟨-, p, hp, rfl⟩
        cases hp
        rfl

/-- Of several headers of one name the last is kept. -/
theorem parseHeaders_ok_iff {lines : List Str} {headers headers' : AList (fun _ : Str => Str)}
    (h : lines.foldlM parseHeader headers = .ok headers') :
    (∀ line ∈ lines, IsHeader line) ∧ ∀ key, headers'.lookup key =
      ((lines.filterMap namedValue).reverse.lookup key).or (headers.lookup key) := by
  induction lines generalizing headers with
  | nil =>
    cases h
    exact ⟨fun line hline => absurd hline List.not_mem_nil, fun key => rfl⟩
  | cons line lines ih =>
    rw [List.foldlM_cons] at h
    obtain ⟨next, hnext, h⟩ := bind_ok h
    obtain ⟨hheader, p, hp, rfl⟩ := parseHeader_ok_iff.mp hnext
    obtain ⟨hall, hlookup⟩ := ih h
    refine ⟨List.forall_mem_cons.mpr ⟨hheader, hall⟩, ?_⟩
    intro key
    rw [hlookup, List.filterMap_cons_some hp, List.reverse_cons, List.lookup_append]
    cases (lines.filterMap namedValue).reverse.lookup key with
    | some value => rfl
    | none =>
      have hsingle : [p].lookup key = if key == p.1 then some p.2 else none := List.lookup_singleton
      rw [hsingle]
      by_cases hkey : key = p.1
      · rw [hkey, AList.lookup_insert]
        simp
      · rw [AList.lookup_insert_ne hkey]
        simp [hkey]

theorem exists_parseHeaders {lines : List Str} (h : ∀ line ∈ lines, IsHeader line)
    (headers : AList (fun _ : Str => Str)) : ∃ headers', lines.foldlM parseHeader headers = .ok headers' := by
  induction lines generalizing headers with
  | nil => exact ⟨headers, rfl⟩
  | cons line lines ih =>
    have hline := h line List.mem_cons_self
    obtain ⟨name, value, hsplit, -⟩ := isHeader_iff.mp hline
    have hp : namedValue line = some (toAsciiLowercase (trim name), trim value) := by
      rw [namedValue, hsplit]
      rfl
    rw [List.foldlM_cons, parseHeader_ok_iff.mpr ⟨hline, _, hp, rfl⟩, ok_bind]
    exact ih (fun x hx => h x (List.mem_cons_of_mem line hx)) _

theorem parseHeaders_error {lines : List Str} {headers : AList (fun _ : Str => Str)} {e : HttpTaskError}
    (h : lines.foldlM parseHeader headers = .error e) : e = .request := by
  induction lines generalizing headers with
  | nil => cases h
  | cons line lines ih =>
    rw [List.foldlM_cons] at h
    cases hnext : parseHeader headers line with
    | error d =>
      rw [hnext] at h
      cases h
      exact parseHeader_error hnext
    | ok next =>
      rw [hnext] at h
      exact ih h

theorem parseRequestLine_eq {line method target version : Str}
    (hfields : splitWhitespace line = [method, target, version]) (hversion : "HTTP/1.".toList <+: version) :
    parseRequestLine line = .ok (method, target) := by
  rw [parseRequestLine, hfields]
  exact if_pos hversion

/-- The parser accepts exactly the well-formed heads. -/
theorem parseHead_ok_iff (text : Str) :
    (∃ request, parseHead text = .ok request) ↔ ∃ requestLine lines, WellFormed text requestLine lines := by
  constructor
  · rintro ⟨request, h⟩
    obtain ⟨line, lines, version, hlines, hfields, hversion, hheaders, hbody⟩ := parseHead_ok h
    obtain ⟨hall, hlookup⟩ := parseHeaders_ok_iff hheaders
    refine ⟨line, lines, hlines, ⟨request.method, request.target, version, hfields, hversion⟩, hall, ?_⟩
    intro value hvalue
    apply hbody
    rw [hlookup, hvalue]
    rfl
  · rintro ⟨line, lines, hsplit, ⟨method, target, version, hfields, hversion⟩, hall, hbody⟩
    obtain ⟨headers, hheaders⟩ := exists_parseHeaders hall ∅
    obtain ⟨-, hlookup⟩ := parseHeaders_ok_iff hheaders
    unfold parseHead
    rw [hsplit]
    dsimp only
    rw [parseRequestLine_eq hfields hversion, ok_bind]
    dsimp only
    rw [hheaders, ok_bind]
    cases hlength : headers.lookup "content-length".toList with
    | none => exact ⟨_, rfl⟩
    | some value =>
      rw [hlookup] at hlength
      have hvalue := hbody value (by simpa using hlength)
      exact ⟨_, if_neg (not_not.mpr hvalue)⟩

theorem parseHead_error {text : Str} {e : HttpTaskError} (h : parseHead text = .error e) : e = .request := by
  unfold parseHead at h
  split at h
  · cases h
    rfl
  · rename_i line lines _
    cases hline : parseRequestLine line with
    | error d =>
      rw [hline] at h
      cases h
      unfold parseRequestLine at hline
      split at hline
      · split at hline
        · cases hline
        · cases hline
          rfl
      · cases hline
        rfl
    | ok p =>
      rw [hline, ok_bind] at h
      dsimp only at h
      cases hheaders : lines.foldlM parseHeader ∅ with
      | error d =>
        rw [hheaders] at h
        cases h
        exact parseHeaders_error hheaders
      | ok headers =>
        rw [hheaders, ok_bind] at h
        split at h
        · split at h
          · cases h
            rfl
          · cases h
        · cases h

/-! ## What decides a request -/

/-- The head of a request that is accepted when it comes alone. -/
def Acceptable (head : Bytes) : Prop :=
  ∃ text requestLine lines, utf8 text = head ∧ WellFormed text requestLine lines

/-- The read that completes the head begins within the limit, and brings nothing but UTF-8 along. -/
def Clean (head : Bytes) (reads : List Bytes) : Prop :=
  (lastRead head.length 0 reads).1 < maxHeaderBytes ∧ ∃ tail, utf8 tail = (lastRead head.length 0 reads).2

theorem split_headD {separator s before after : Str} (h : splitOnce separator s = some (before, after))
    (hs : s ≠ []) : (split separator s).headD [] = before := by
  obtain ⟨c, rest, rfl⟩ := List.exists_cons_of_ne_nil hs
  simp only [split, List.length_cons, splitUpTo, h, List.headD_cons]

/-- The text of a head ends at its first blank line, whatever follows. -/
theorem splitOnce_head {head : Bytes} (hhead : IsHead head) {text : Str} (htext : utf8 text = head) :
    ∃ front, text = front ++ headEnd ∧ ∀ tail, splitOnce headEnd (text ++ tail) = some (front, tail) := by
  obtain ⟨bytes, hbytes⟩ := hhead.ends
  obtain ⟨front, y, rfl, -, hy⟩ := utf8_eq_append_append headEnd_ascii (s := text) (b := [])
    (by rw [htext, List.append_nil]; exact hbytes.symm)
  obtain rfl := utf8_eq_nil hy
  rw [List.append_nil] at htext ⊢
  change utf8 (front ++ headEnd) = head at htext
  refine ⟨front, rfl, ?_⟩
  intro tail
  change splitOnce headEnd (front ++ headEnd ++ tail) = some (front, tail)
  obtain ⟨⟨before, after⟩, hfound⟩ := splitOnce_found headEnd front tail
  have hwhole := splitOnce_append hfound
  have hshort := splitOnce_first hfound rfl
  have hprefix : before ++ headEnd <+: front ++ headEnd := by
    refine List.prefix_of_prefix_length_le ⟨after, hwhole.symm⟩ (List.prefix_append _ tail) ?_
    rw [List.length_append, List.length_append]
    exact Nat.add_le_add_right hshort _
  obtain ⟨z, hz⟩ := hprefix
  have hbytes' : utf8 (before ++ headEnd) ++ utf8 z = head := by rw [← utf8_append, hz, htext]
  have hend : utf8 headEnd <:+: utf8 (before ++ headEnd) := by
    rw [utf8_append]
    exact (List.suffix_append _ _).isInfix
  have hall := hhead.first _ ⟨_, hbytes'⟩ hend
  rw [hall] at hbytes'
  obtain rfl := utf8_eq_nil (List.append_right_eq_self.mp hbytes')
  rw [List.append_nil] at hz
  obtain rfl := List.append_cancel_right hz
  rw [hfound, List.append_cancel_left hwhole]

/-- Nothing behind the head is parsed. -/
theorem parseHead_append {head : Bytes} (hhead : IsHead head) {text : Str} (htext : utf8 text = head) (tail : Str) :
    parseHead (text ++ tail) = parseHead text := by
  obtain ⟨front, rfl, hsplit⟩ := splitOnce_head hhead htext
  have hne : ∀ rest, front ++ headEnd ++ rest ≠ [] := fun rest => by simp [headEnd]
  have halone := split_headD (hsplit []) (hne [])
  rw [List.append_nil] at halone
  unfold parseHead
  rw [split_headD (hsplit tail) (hne tail), halone]

/-- What came with the head is decoded with it. -/
theorem fromUtf8_head {head : Bytes} (hhead : IsHead head) {tail : Bytes} {s : Str} :
    fromUtf8 (head ++ tail) = some s ↔ ∃ text rest, s = text ++ rest ∧ utf8 text = head ∧ utf8 rest = tail := by
  obtain ⟨bytes, rfl⟩ := hhead.ends
  constructor
  · intro h
    obtain ⟨x, y, rfl, hx, hy⟩ := (fromUtf8_append headEnd_ascii).mp h
    exact ⟨x ++ headEnd, y, rfl, by rw [utf8_append, utf8_fromUtf8 hx], utf8_fromUtf8 hy⟩
  · rintro ⟨text, rest, rfl, htext, rfl⟩
    rw [← htext, ← utf8_append, fromUtf8_utf8]

/-- A read that is not clean loses the request, and any other gives what the head says. -/
theorem readRequest_head {head : Bytes} (hhead : IsHead head) {reads : List Bytes}
    (hreads : ∀ chunk ∈ reads, chunk ≠ []) (hwhole : head <+: reads.flatten) :
    (∀ text, utf8 text = head → Clean head reads → readRequest reads = parseHead text) ∧
    ((∀ text, utf8 text ≠ head) ∨ ¬ Clean head reads → readRequest reads = .error .request) := by
  have hpos : ([] : Bytes).length < head.length := by
    have hle := hhead.ends.length_le
    have hfour : (utf8 headEnd).length = 4 := by decide
    rw [List.length_nil]
    omega
  have hbuffer : head <+: [] ++ reads.flatten := by rwa [List.nil_append]
  have hread := readHead_lastRead hhead hreads hbuffer hpos
  rw [List.length_nil] at hread
  constructor
  · rintro text htext ⟨hlimit, tail, htail⟩
    rw [if_neg (not_le.mpr hlimit)] at hread
    have hdecoded := (fromUtf8_head hhead).mpr ⟨text, tail, rfl, htext, htail⟩
    rw [readRequest, hread, ok_bind, hdecoded, okOr_some, ok_bind, parseHead_append hhead htext]
  · intro hbad
    by_cases hlimit : (lastRead head.length 0 reads).1 ≥ maxHeaderBytes
    · rw [if_pos hlimit] at hread
      rw [readRequest, hread, error_bind]
    · rw [if_neg hlimit] at hread
      rw [readRequest, hread, ok_bind]
      cases hdecoded : fromUtf8 (head ++ (lastRead head.length 0 reads).2) with
      | none => rfl
      | some s =>
        obtain ⟨text, rest, -, htext, hrest⟩ := (fromUtf8_head hhead).mp hdecoded
        rcases hbad with hnone | hunclean
        · exact absurd htext (hnone text)
        · exact absurd ⟨not_le.mp hlimit, rest, hrest⟩ hunclean

/-- A stream with a blank line in it has a head. -/
theorem exists_head {stream : Bytes} (h : utf8 headEnd <:+: stream) : ∃ head, IsHead head ∧ head <+: stream := by
  induction hn : stream.length using Nat.strong_induction_on generalizing stream with
  | _ n ih =>
    obtain ⟨front, back, hstream⟩ := h
    by_cases hshorter : ∃ p, p <+: front ++ utf8 headEnd ∧ utf8 headEnd <:+: p ∧ p.length < n
    · obtain ⟨p, hp, hfound, hlt⟩ := hshorter
      obtain ⟨head, hhead, hprefix⟩ := ih p.length hlt hfound rfl
      exact ⟨head, hhead, hprefix.trans (hp.trans ⟨back, hstream⟩)⟩
    · refine ⟨front ++ utf8 headEnd, ⟨List.suffix_append _ _, ?_⟩, ⟨back, hstream⟩⟩
      intro p hp hfound
      have hle : n ≤ p.length := not_lt.mp (fun hlt => hshorter ⟨p, hp, hfound, hlt⟩)
      refine hp.eq_of_length_le ?_
      have hwhole := congrArg List.length hstream
      rw [List.length_append] at hwhole
      omega

/-- Two readings of one head give the same result, unless the head is acceptable and just one of them is clean. -/
theorem same_request_iff {head : Bytes} (hhead : IsHead head) {reads reads' : List Bytes}
    (hreads : ∀ chunk ∈ reads, chunk ≠ []) (hwhole : head <+: reads.flatten)
    (hreads' : ∀ chunk ∈ reads', chunk ≠ []) (hwhole' : head <+: reads'.flatten) :
    readRequest reads = readRequest reads' ↔ (Acceptable head → (Clean head reads ↔ Clean head reads')) := by
  obtain ⟨hgood, hbad⟩ := readRequest_head hhead hreads hwhole
  obtain ⟨hgood', hbad'⟩ := readRequest_head hhead hreads' hwhole'
  constructor
  · rintro h ⟨text, line, lines, htext, hform⟩
    obtain ⟨request, hparse⟩ := (parseHead_ok_iff text).mpr ⟨line, lines, hform⟩
    constructor
    · intro hclean
      by_contra hunclean
      rw [hgood text htext hclean, hbad' (.inr hunclean), hparse] at h
      cases h
    · intro hclean
      by_contra hunclean
      rw [hgood' text htext hclean, hbad (.inr hunclean), hparse] at h
      cases h
  · intro h
    by_cases htext : ∃ text, utf8 text = head
    · obtain ⟨text, htext⟩ := htext
      cases hparse : parseHead text with
      | ok request =>
        obtain ⟨line, lines, hform⟩ := (parseHead_ok_iff text).mp ⟨request, hparse⟩
        have hiff := h ⟨text, line, lines, htext, hform⟩
        by_cases hclean : Clean head reads
        · rw [hgood text htext hclean, hgood' text htext (hiff.mp hclean)]
        · rw [hbad (.inr hclean), hbad' (.inr (fun hclean' => hclean (hiff.mpr hclean')))]
      | error e =>
        obtain rfl := parseHead_error hparse
        have hany : ∀ {reads : List Bytes}, (Clean head reads → readRequest reads = parseHead text) →
            (¬ Clean head reads → readRequest reads = .error .request) → readRequest reads = .error .request := by
          intro reads hclean hunclean
          by_cases hc : Clean head reads
          · rw [hclean hc, hparse]
          · exact hunclean hc
        rw [hany (hgood text htext) (fun hc => hbad (.inr hc)), hany (hgood' text htext) (fun hc => hbad' (.inr hc))]
    · have hnone : ∀ text, utf8 text ≠ head := fun text heq => htext ⟨text, heq⟩
      rw [hbad (.inl hnone), hbad' (.inl hnone)]

/-! ## All readings of a head -/

/-- Reads of up to 1024 bytes that bring the head and anything behind it. -/
structure Divides (head : Bytes) (reads : List Bytes) : Prop where
  sizes : ∀ chunk ∈ reads, chunk ≠ [] ∧ chunk.length ≤ 1024
  whole : head <+: reads.flatten

/-- Reads of one byte. -/
def singles (bytes : Bytes) : List Bytes := bytes.map fun b => [b]

theorem flatten_singles (bytes : Bytes) : (singles bytes).flatten = bytes := by
  induction bytes with
  | nil => rfl
  | cons b bytes ih =>
    change [b] ++ (singles bytes).flatten = b :: bytes
    rw [ih, List.singleton_append]

theorem lastRead_singles {n : Nat} (bytes : Bytes) (reads : List Bytes) :
    ∀ {start}, start + bytes.length < n →
      lastRead n start (singles bytes ++ reads) = lastRead n (start + bytes.length) reads := by
  induction bytes with
  | nil => exact fun _ => rfl
  | cons b bytes ih =>
    intro start hlt
    rw [List.length_cons] at hlt ⊢
    change lastRead n start ([b] :: (singles bytes ++ reads)) = _
    rw [lastRead, List.length_singleton, if_neg (by omega), ih (by omega)]
    congr 1
    omega

theorem divides_singles {head : Bytes} {k : Nat} {last : Bytes} (hne : last ≠ []) (hsize : last.length ≤ 1024)
    (hlast : head.drop k <+: last) : Divides head (singles (head.take k) ++ [last]) where
  sizes := by
    intro chunk hchunk
    rcases List.mem_append.mp hchunk with hsingle | hchunk
    · obtain ⟨b, -, rfl⟩ := List.mem_map.mp hsingle
      exact ⟨List.cons_ne_nil b [], by simp⟩
    · obtain rfl := List.mem_singleton.mp hchunk
      exact ⟨hne, hsize⟩
  whole := by
    rw [List.flatten_append, flatten_singles, List.flatten_singleton]
    obtain ⟨more, rfl⟩ := hlast
    rw [← List.append_assoc, List.take_append_drop]
    exact List.prefix_append head more

/-- One byte after the other, and the rest of the head with what follows in one read. -/
theorem lastRead_divided {head more : Bytes} {k : Nat} (hk : k < head.length) :
    lastRead head.length 0 (singles (head.take k) ++ [head.drop k ++ more]) = (k, more) := by
  have hlength : (head.take k).length = k := List.length_take_of_le hk.le
  have hrest : (head.drop k).length = head.length - k := List.length_drop
  rw [lastRead_singles _ _ (by omega), hlength, Nat.zero_add, lastRead, List.length_append, hrest,
    if_pos (by omega), ← hrest, List.drop_left]

/-- The read that completes the head begins less than 1024 bytes before its end. -/
theorem lastRead_late {n : Nat} {reads : List Bytes} (hsizes : ∀ chunk ∈ reads, chunk.length ≤ 1024) :
    ∀ {start}, n ≤ start + reads.flatten.length → n ≤ (lastRead n start reads).1 + 1024 := by
  induction reads with
  | nil =>
    intro start hn
    rw [List.flatten_nil, List.length_nil] at hn
    rw [lastRead]
    omega
  | cons chunk reads ih =>
    intro start hn
    have hchunk := hsizes chunk List.mem_cons_self
    rw [List.flatten_cons, List.length_append] at hn
    rw [lastRead]
    split
    · dsimp only
      omega
    · exact ih (fun x hx => hsizes x (List.mem_cons_of_mem chunk hx)) (by omega)

theorem invalid_byte (s : Str) : utf8 s ≠ [0xff] := by
  intro h
  have hread := fromUtf8_eq_some.mpr h
  have hnone : fromUtf8 [0xff] = none := by decide +kernel
  rw [hnone] at hread
  cases hread

/-- An acceptable head of up to 17407 bytes is accepted in one division and refused in another. -/
theorem exists_disagreement {head : Bytes} (hpos : 0 < head.length) (hlength : head.length ≤ maxHeaderBytes + 1023) :
    ∃ reads reads', Divides head reads ∧ Divides head reads' ∧ Clean head reads ∧ ¬ Clean head reads' := by
  have hmax : maxHeaderBytes = 16384 := rfl
  obtain ⟨k, hk, hlimit, hsize⟩ : ∃ k, k < head.length ∧ k < maxHeaderBytes ∧ head.length ≤ k + 1024 :=
    ⟨min (head.length - 1) 16383, by omega, by omega, by omega⟩
  have hrest : (head.drop k).length = head.length - k := List.length_drop
  have hne : ∀ {j} (more : Bytes), j < head.length → head.drop j ++ more ≠ [] := by
    intro j more hj hnil
    have hlen := congrArg List.length hnil
    rw [List.length_append, List.length_drop, List.length_nil] at hlen
    omega
  refine ⟨singles (head.take k) ++ [head.drop k ++ []], ?_⟩
  have hclean : Clean head (singles (head.take k) ++ [head.drop k ++ []]) := by
    unfold Clean
    rw [lastRead_divided hk]
    exact ⟨hlimit, [], rfl⟩
  have hdivides : Divides head (singles (head.take k) ++ [head.drop k ++ []]) :=
    divides_singles (hne [] hk) (by rw [List.length_append, hrest, List.length_nil]; omega) (List.prefix_append _ _)
  have hlast : head.length - 1 < head.length := by omega
  have htail : (head.drop (head.length - 1)).length = 1 := by
    rw [List.length_drop]
    omega
  by_cases hshort : head.length ≤ maxHeaderBytes
  · refine ⟨singles (head.take (head.length - 1)) ++ [head.drop (head.length - 1) ++ [0xff]], hdivides, ?_, hclean, ?_⟩
    · exact divides_singles (hne [0xff] hlast) (by rw [List.length_append, htail]; decide) (List.prefix_append _ _)
    · unfold Clean
      rw [lastRead_divided hlast]
      rintro ⟨-, s, hs⟩
      exact invalid_byte s hs
  · refine ⟨singles (head.take (head.length - 1)) ++ [head.drop (head.length - 1) ++ []], hdivides, ?_, hclean, ?_⟩
    · exact divides_singles (hne [] hlast) (by rw [List.length_append, htail]; decide) (List.prefix_append _ _)
    · unfold Clean
      rw [lastRead_divided hlast]
      rintro ⟨hlt, -⟩
      dsimp only at hlt
      omega

theorem IsHead.length_pos {head : Bytes} (hhead : IsHead head) : 0 < head.length := by
  have hle := hhead.ends.length_le
  have hfour : (utf8 headEnd).length = 4 := by decide
  omega

/-- When two readings of a head agree, and which heads are read alike in all divisions of all streams: those that are
never accepted. -/
theorem requests_agree_iff {head : Bytes} (hhead : IsHead head) :
    (∀ reads reads', Divides head reads → Divides head reads' →
      (readRequest reads = readRequest reads' ↔ (Acceptable head → (Clean head reads ↔ Clean head reads')))) ∧
    ((∀ reads reads', Divides head reads → Divides head reads' → readRequest reads = readRequest reads') ↔
      (Acceptable head → maxHeaderBytes + 1023 < head.length)) := by
  have hpair : ∀ reads reads', Divides head reads → Divides head reads' →
      (readRequest reads = readRequest reads' ↔ (Acceptable head → (Clean head reads ↔ Clean head reads'))) :=
    fun reads reads' h h' => same_request_iff hhead (fun chunk hc => (h.sizes chunk hc).1) h.whole
      (fun chunk hc => (h'.sizes chunk hc).1) h'.whole
  refine ⟨hpair, ?_, ?_⟩
  · intro hall hacceptable
    by_contra hlength
    obtain ⟨reads, reads', h, h', hclean, hunclean⟩ := exists_disagreement hhead.length_pos (not_lt.mp hlength)
    exact hunclean (((hpair reads reads' h h').mp (hall reads reads' h h') hacceptable).mp hclean)
  · intro hlong reads reads' h h'
    rw [hpair reads reads' h h']
    intro hacceptable
    have hlate : ∀ {reads}, Divides head reads → ¬ Clean head reads := by
      rintro reads h ⟨hlimit, -⟩
      have hwhole := h.whole.length_le
      have hstart : head.length ≤ (lastRead head.length 0 reads).1 + 1024 :=
        lastRead_late (fun chunk hc => (h.sizes chunk hc).2) (by omega)
      have hlt := hlong hacceptable
      omega
    exact ⟨fun hclean => absurd hclean (hlate h), fun hclean => absurd hclean (hlate h')⟩

theorem RequestHead.isHead (r : RequestHead) : IsHead (utf8 r.print) where
  ends := by
    rw [r.print_eq, utf8_append]
    exact List.suffix_append _ _
  first := fun _ => r.print_ends

/-- The printed sample head, read byte by byte and read at once with a stray byte behind it. -/
theorem requests_agree_iff_sample :
    readRequest (singles (utf8 sampleHead.print)) = readRequest [utf8 sampleHead.print ++ [0xff]] ↔
      (Acceptable (utf8 sampleHead.print) → (Clean (utf8 sampleHead.print) (singles (utf8 sampleHead.print)) ↔
        Clean (utf8 sampleHead.print) [utf8 sampleHead.print ++ [0xff]])) := by
  refine (requests_agree_iff sampleHead.isHead).1 _ _ ⟨?_, ?_⟩ ⟨?_, ?_⟩
  · intro chunk hchunk
    obtain ⟨b, -, rfl⟩ := List.mem_map.mp hchunk
    exact ⟨List.cons_ne_nil b [], by simp⟩
  · rw [flatten_singles]
  · intro chunk hchunk
    obtain rfl := List.mem_singleton.mp hchunk
    exact ⟨by simp, by decide +kernel⟩
  · rw [List.flatten_singleton]
    exact List.prefix_append _ _

/-- A byte behind the head decides about a request, if it comes in the same read. -/
theorem request_depends_on_segments :
    ¬ ∀ (stream : Bytes) (reads reads' : List Bytes), utf8 headEnd <:+: stream →
      (∀ chunk ∈ reads ++ reads', chunk ≠ [] ∧ chunk.length ≤ 1024) → reads.flatten = stream → reads'.flatten = stream →
      readRequest reads = readRequest reads' := by
  intro h
  have hsame := h (utf8 "GET / HTTP/1.1\r\n\r\n".toList ++ [0xff])
    [utf8 "GET / HTTP/1.1\r\n\r\n".toList, [0xff]] [utf8 "GET / HTTP/1.1\r\n\r\n".toList ++ [0xff]]
    (by decide +kernel) (by decide +kernel) rfl rfl
  have haccepted : (readRequest [utf8 "GET / HTTP/1.1\r\n\r\n".toList, [0xff]]).toOption.isSome = true := by
    decide +kernel
  have hrefused : (readRequest [utf8 "GET / HTTP/1.1\r\n\r\n".toList ++ [0xff]]).toOption.isSome = false := by
    decide +kernel
  rw [hsame, hrefused] at haccepted
  cases haccepted

end OrbitRelay.AssetHttp
