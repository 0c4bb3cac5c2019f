import Fywaf.Proxy.Segments
import Fywaf.Std.Checks

/-!
# Requests that were read

What the parser guarantees about a request it accepted, whatever the client sent: the request line
is made of words, header names are folded, trimmed and free of colons, values are trimmed, neither
contains CR LF, the declared length is at most the length of the body, and nothing announces a
chunked body.

## Main definitions

* `Proxy.headerOf`, `Proxy.headerLines` — the headers of a head, line by line
* `Proxy.WellRead` — the guarantee

## Main results

* `Proxy.parseHeaders_eq_ok_iff` — the header loop is a sequence of insertions
* `Proxy.parseHeadLines_eq_ok_iff`, `Proxy.parseHeadLines_eq_ok` — everything an accepted head says
* `Proxy.wellRead_of_read` — requests that were read are well read
-/

namespace Fywaf

namespace Proxy

/-! ### Header lines -/

/-- The name and value of a header line. -/
def headerOf (line : Str) : Option (Str × Str) :=
  if line = [] then none
  else (splitOnce ':' line).map fun e => (toAsciiLowercase (trim e.1), trim e.2)

/-- **The header loop is a sequence of insertions**, one for each line that is not empty. -/
theorem parseHeaders_eq_ok_iff {lines : List Str} : ∀ {headers headers' : HashMap Str Str},
    parseHeaders headers lines = .ok headers' ↔
      (∀ line ∈ lines, line ≠ [] → ':' ∈ line) ∧
        headers' = headers.insertAll (lines.filterMap headerOf) := by
  induction lines with
  | nil =>
    intro headers headers'
    rw [parseHeaders, Except.ok.injEq]
    simp [HashMap.insertAll, eq_comm]
  | cons line lines ih =>
    intro headers headers'
    rw [parseHeaders, insertHeader, List.forall_mem_cons, List.filterMap_cons, headerOf]
    by_cases hnil : line = []
    · simp [hnil, ih]
    · simp only [ne_eq, hnil, not_false_eq_true, true_imp_iff, ↓reduceIte]
      cases hsplit : splitOnce ':' line with
      | none => simp [splitOnce_eq_none_iff.mp hsplit]
      | some e =>
        have hmem : ':' ∈ line := by
          rw [(splitOnce_eq_some_iff.mp hsplit).1]
          simp
        simp only [Option.map_some, hmem, true_and, ih, HashMap.insertAll]

/-- A header that was read from a line of a head. -/
structure CleanHeader (name value : Str) : Prop where
  name_lower : toAsciiLowercase name = name
  name_ends : CleanEnds isWhitespace name
  name_colon : ':' ∉ name
  name_crlf : NoPair '\r' '\n' name
  value_ends : CleanEnds isWhitespace value
  value_crlf : NoPair '\r' '\n' value

/-- Folding does not change where the pair CR LF stands. -/
theorem noPair_toAsciiLowercase {s : Str} (h : NoPair '\r' '\n' s) :
    NoPair '\r' '\n' (toAsciiLowercase s) := by
  rintro ⟨l, m, hlm⟩
  have hsplit := hlm
  rw [List.append_assoc] at hsplit
  obtain ⟨a, r, rfl, -, hr⟩ :=
    List.map_eq_append_iff.mp (show s.map Char.toLower = _ from hsplit.symm)
  obtain ⟨b, c, rfl, hb, -⟩ := List.map_eq_append_iff.mp hr
  obtain ⟨x, b', rfl, hx, hb'⟩ := List.map_eq_cons_iff.mp hb
  obtain ⟨y, b'', rfl, hy, hb''⟩ := List.map_eq_cons_iff.mp hb'
  obtain rfl := List.map_eq_nil_iff.mp hb''
  obtain rfl : x = '\r' := (toLower_eq_iff (by decide) (by decide)).mp hx
  obtain rfl : y = '\n' := (toLower_eq_iff (by decide) (by decide)).mp hy
  exact h ⟨a, c, by simp⟩

/-- Folding leaves clean ends clean. -/
theorem cleanEnds_toAsciiLowercase {s : Str} (h : CleanEnds isWhitespace s) :
    CleanEnds isWhitespace (toAsciiLowercase s) where
  head := by
    intro c hc
    rw [toAsciiLowercase, List.head?_map] at hc
    obtain ⟨d, hd, rfl⟩ := Option.map_eq_some_iff.mp hc
    rw [isWhitespace_toLower]
    exact h.head d hd
  last := by
    intro c hc
    rw [toAsciiLowercase, List.getLast?_map] at hc
    obtain ⟨d, hd, rfl⟩ := Option.map_eq_some_iff.mp hc
    rw [isWhitespace_toLower]
    exact h.last d hd

theorem cleanHeader_of_headerOf {line : Str} (h : NoPair '\r' '\n' line) {e : Str × Str}
    (he : headerOf line = some e) : CleanHeader e.1 e.2 := by
  rw [headerOf] at he
  split at he
  · cases he
  · obtain ⟨⟨n, v⟩, hsplit, rfl⟩ := Option.map_eq_some_iff.mp he
    obtain ⟨rfl, hcolon⟩ := splitOnce_eq_some_iff.mp hsplit
    have hname : trim n <:+: n ++ ':' :: v :=
      (trim_isInfix n).trans (List.prefix_append _ _).isInfix
    have hvalue : trim v <:+: n ++ ':' :: v :=
      (trim_isInfix v).trans (List.suffix_append (n ++ [':']) v |>.isInfix.trans (by simp))
    exact
      { name_lower := toAsciiLowercase_idem _
        name_ends := cleanEnds_toAsciiLowercase (cleanEnds_trimMatches _ _)
        name_colon := fun hmem => hcolon
          ((trim_isInfix n).subset ((mem_toAsciiLowercase_iff (by decide) (by decide)).mp hmem))
        name_crlf := noPair_toAsciiLowercase (h.of_infix hname)
        value_ends := cleanEnds_trimMatches _ _
        value_crlf := h.of_infix hvalue }

/-! ### Heads -/

/-- The lines behind the request line. -/
def headerLines (headerText : Str) : List Str := (splitPair '\r' '\n' headerText).tail

/-- A request line that is accepted has three words. -/
theorem parseRequestLine_eq_ok {line method path version : Str}
    (h : parseRequestLine line = .ok (method, path, version)) :
    splitWhitespace line = [method, path, version] ∧
      "HTTP/1.".toList.isPrefixOf version = true := by
  rw [parseRequestLine] at h
  split at h
  · cases h
  · cases h
  · cases h
  · next m p v rest hwords =>
    split at h
    · cases h
    · next hrest =>
      split at h
      · next hv =>
        simp only [Except.ok.injEq, Prod.mk.injEq] at h
        obtain ⟨rfl, rfl, rfl⟩ := h
        rw [hwords, not_not.mp hrest]
        exact ⟨rfl, hv⟩
      · cases h

variable {limits : Limits}

/-- The check on a size is passed. -/
theorem overLimit_body_eq_none_iff {n : ℕ} :
    overLimit limits.body .bodyTooLarge n = none ↔ ∀ m ∈ limits.body, n ≤ m := by
  rw [overLimit_eq_none_iff]
  push Not
  rfl

/-- The length that a header declares. -/
theorem contentLength_eq_ok_iff {headers : HashMap Str Str} {v : Str} {n : ℕ}
    (hv : headers.get? "content-length".toList = some v) :
    contentLength headers = .ok n ↔ parseUnsigned 64 v = some n := by
  simp only [contentLength, hv]
  cases parseUnsigned 64 v <;> simp

theorem checkHeaders_eq_ok_iff {headers : HashMap Str Str} {n : ℕ} :
    checkHeaders limits headers = .ok n ↔
      ¬ isChunked headers = true ∧ contentLength headers = .ok n ∧ ∀ m ∈ limits.body, n ≤ m := by
  rw [checkHeaders]
  by_cases hchunk : isChunked headers = true
  · simp [hchunk]
  · rw [if_neg hchunk]
    cases hlen : contentLength headers with
    | error e => simp
    | ok n' =>
      cases hover : overLimit limits.body .bodyTooLarge n' with
      | some e =>
        have hbig : ¬ ∀ m ∈ limits.body, n' ≤ m := fun h => by
          rw [overLimit_body_eq_none_iff.mpr h] at hover
          cases hover
        simp only [hover]
        refine iff_of_false (fun h => by cases h) ?_
        rintro ⟨-, ⟨⟩, h⟩
        exact hbig h
      | none =>
        have hsmall := overLimit_body_eq_none_iff.mp hover
        simp only [hover]
        constructor
        · rintro ⟨⟩
          exact ⟨hchunk, rfl, hsmall⟩
        · rintro ⟨-, ⟨⟩, -⟩
          rfl

/-- **What an accepted head is**: a request line, header lines that are inserted one by one, and
headers that pass the checks. -/
theorem parseHeadLines_eq_ok_iff {text : Str} {head : RequestHead} :
    parseHeadLines limits text = .ok head ↔ ∃ first lines,
      splitPair '\r' '\n' text = first :: lines ∧
      parseRequestLine first = .ok (head.method, head.path, head.version) ∧
      (∀ line ∈ lines, line ≠ [] → ':' ∈ line) ∧
      head.headers = HashMap.empty.insertAll (lines.filterMap headerOf) ∧
      checkHeaders limits head.headers = .ok head.contentLength := by
  constructor
  · intro h
    rw [parseHeadLines] at h
    split at h
    · cases h
    · next first lines hlines =>
      split at h
      · cases h
      · next method path version hline =>
        split at h
        · cases h
        · next headers hheaders =>
          split at h
          · cases h
          · next n hcheck =>
            obtain rfl := Except.ok.inj h
            obtain ⟨hcolons, hins⟩ := parseHeaders_eq_ok_iff.mp hheaders
            exact ⟨first, lines, hlines, hline, hcolons, hins, hcheck⟩
  · rintro ⟨first, lines, hlines, hline, hcolons, hins, hcheck⟩
    have hheaders := parseHeaders_eq_ok_iff.mpr ⟨hcolons, hins⟩
    simp only [parseHeadLines, hlines, hline, hheaders, hcheck]

/-- **Everything an accepted head says.** -/
theorem parseHeadLines_eq_ok {text : Str} {head : RequestHead}
    (h : parseHeadLines limits text = .ok head) :
    (IsWord head.method ∧ IsWord head.path ∧ IsWord head.version ∧
      "HTTP/1.".toList.isPrefixOf head.version = true) ∧
    (∀ line ∈ headerLines text, line ≠ [] → ':' ∈ line) ∧
    head.headers = HashMap.empty.insertAll ((headerLines text).filterMap headerOf) ∧
    isChunked head.headers = false ∧
    contentLength head.headers = .ok head.contentLength := by
  obtain ⟨first, lines, hlines, hline, hcolons, hins, hcheck⟩ := parseHeadLines_eq_ok_iff.mp h
  obtain ⟨hwords, hv⟩ := parseRequestLine_eq_ok hline
  have hword : ∀ w ∈ [head.method, head.path, head.version], IsWord w := fun w hw =>
    isWord_of_mem_splitWhitespace (hwords ▸ hw)
  have htail : headerLines text = lines := by rw [headerLines, hlines, List.tail_cons]
  obtain ⟨hchunk, hlen, -⟩ := checkHeaders_eq_ok_iff.mp hcheck
  exact ⟨⟨hword _ (by simp), hword _ (by simp), hword _ (by simp), hv⟩, htail ▸ hcolons,
    htail ▸ hins, eq_false_of_ne_true hchunk, hlen⟩

/-- Each header of an accepted head is clean. -/
theorem cleanHeader_of_head {text : Str} {head : RequestHead}
    (h : parseHeadLines limits text = .ok head) {k v : Str}
    (hk : head.headers.get? k = some v) : CleanHeader k v := by
  obtain ⟨-, -, hins, -⟩ := parseHeadLines_eq_ok h
  rw [hins, HashMap.get?_insertAll_empty, lastOf_eq_some_iff_append] at hk
  obtain ⟨a, b, hab, -⟩ := hk
  have hmem : (k, v) ∈ (headerLines text).filterMap headerOf := by rw [hab]; simp
  obtain ⟨line, hline, he⟩ := List.mem_filterMap.mp hmem
  exact cleanHeader_of_headerOf (noPair_of_mem_splitPair (List.mem_of_mem_tail hline)) he

/-! ### Requests -/

/-- What the reader guarantees about a request. -/
structure WellRead (request : HttpRequest) : Prop where
  method : IsWord request.method
  path : IsWord request.path
  version : IsWord request.version
  http1 : "HTTP/1.".toList.isPrefixOf request.version = true
  headers : ∀ k v, request.headers.get? k = some v → CleanHeader k v
  notChunked : isChunked request.headers = false
  length : ∃ n ≤ request.body.length, contentLength request.headers = .ok n

/-- A length that was declared is at most that of the body. -/
theorem WellRead.parse_length {request : HttpRequest} (hr : WellRead request) {v : Str}
    (hv : request.headers.get? "content-length".toList = some v) :
    ∃ n ≤ request.body.length, parseUnsigned 64 v = some n := by
  obtain ⟨n, hn, hcl⟩ := hr.length
  exact ⟨n, hn, (contentLength_eq_ok_iff hv).mp hcl⟩

theorem outcome_eq_some_iff {stream : Bytes} {pos ahead : ℕ} {r : HttpRequest} :
    outcome limits stream pos ahead = some r ↔
      ∃ head text, fromUtf8 (stream.take pos) = some text ∧
        parseHeadLines limits text = .ok head ∧
        pos + 4 + head.contentLength ≤ stream.length ∧
        r = ⟨head.method, head.path, head.version, head.headers,
          (stream.drop (pos + 4)).take (max ahead head.contentLength)⟩ := by
  rw [outcome, Option.bind_eq_some_iff]
  simp only [parseHead, toOption_eq_some_iff]
  constructor
  · rintro ⟨head, hhead, hr⟩
    cases htext : fromUtf8 (stream.take pos) with
    | none => rw [htext] at hhead; cases hhead
    | some text =>
      rw [htext] at hhead
      split at hr
      · next hlen => exact ⟨head, text, rfl, hhead, hlen, (Option.some.inj hr).symm⟩
      · cases hr
  · rintro ⟨head, text, htext, hhead, hlen, rfl⟩
    exact ⟨head, by simp only [htext, hhead], by rw [if_pos hlen]⟩

/-- An accepted request, in terms of the stream. -/
theorem eq_of_read {s : Socket} {r : HttpRequest} (h : readHttpRequest limits s = .ok r) :
    ∃ pos text head, findHeaderEnd s.bytes = some pos ∧
      fromUtf8 (s.bytes.take pos) = some text ∧ parseHeadLines limits text = .ok head ∧
      r.method = head.method ∧ r.path = head.path ∧ r.version = head.version ∧
      r.headers = head.headers ∧ head.contentLength ≤ r.body.length := by
  have hsome := toOption_eq_some_iff.mpr h
  rcases readHttpRequest_cases limits s with ⟨pos, ahead, k, hpos, -, -, -, hover, hres⟩ | ⟨hres, -⟩
  · rw [hsome] at hres
    obtain ⟨head, text, htext, hhead, hlen, rfl⟩ := outcome_eq_some_iff.mp hres.symm
    refine ⟨pos, text, head, hpos, htext, hhead, rfl, rfl, rfl, rfl, ?_⟩
    rw [List.length_take, List.length_drop]
    omega
  · rw [hsome] at hres
    cases hres

/-- **Requests that were read are well read.** -/
theorem wellRead_of_read {s : Socket} {r : HttpRequest} (h : readHttpRequest limits s = .ok r) :
    WellRead r := by
  obtain ⟨pos, text, head, -, -, hhead, hm, hp, hv, hh, hlen⟩ := eq_of_read h
  obtain ⟨⟨hm', hp', hv', h1⟩, -, -, hchunk, hcl⟩ := parseHeadLines_eq_ok hhead
  exact
    { method := hm ▸ hm'
      path := hp ▸ hp'
      version := hv ▸ hv'
      http1 := hv ▸ h1
      headers := fun k v hk => cleanHeader_of_head hhead (hh ▸ hk)
      notChunked := hh ▸ hchunk
      length := ⟨_, hlen, hh ▸ hcl⟩ }

/-! ### A request -/

/-- A form post of one byte, in one piece. -/
def postSocket : Socket where
  segments := [asBytes "POST /a HTTP/1.1\r\nA: b\r\nContent-Length: 1\r\n\r\nX".toList]
  nonempty := by decide
  fails := false

/-- What is read of it. -/
def postRequest : HttpRequest where
  method := "POST".toList
  path := "/a".toList
  version := "HTTP/1.1".toList
  headers := ⟨[("content-length".toList, ['1']), ("a".toList, ['b'])], by decide⟩
  body := asBytes ['X']

theorem read_postSocket : readHttpRequest .source postSocket = .ok postRequest := by
  decide +kernel

end Proxy

end Fywaf
