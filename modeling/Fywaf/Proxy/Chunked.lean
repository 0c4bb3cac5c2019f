import Fywaf.Proxy.Parsed

/-!
# Requests that announce a chunked body

The reader looks for `chunked` in the header map, behind the header loop. The loop keeps the last
value of a name, so of several `Transfer-Encoding` lines only the last one is looked at: an earlier
line that announces a chunked body is overwritten, and the request is read.

## Main definitions

* `Proxy.AnnouncesChunked`, `Proxy.LastAnnouncesChunked` — some line says so, or the last one
* `Proxy.InOrder` — nothing else about the request is refused
* `Proxy.ChunkedRefused` — a request that announces a chunked body is refused

## Main results

* `Proxy.isChunked_iff` — the reader looks at the last line
* `Proxy.parseHeadLines_isOk_iff` — exactly which heads are accepted
* `Proxy.accepted_iff` — exactly which streams are accepted in some pieces
* `Proxy.chunkedRefused_iff` — exactly when a chunked body is refused
-/

namespace Fywaf

namespace Proxy

/-! ### Announcing lines -/

/-- A value that announces a chunked body. -/
def IsChunkedValue (value : Str) : Prop :=
  contains (toAsciiLowercase value) "chunked".toList = true

instance : DecidablePred IsChunkedValue := fun _ => inferInstanceAs (Decidable (_ = true))

/-- One of the lines is a `Transfer-Encoding` header that announces a chunked body. -/
def AnnouncesChunked (lines : List Str) : Prop :=
  ∃ value, ("transfer-encoding".toList, value) ∈ lines.filterMap headerOf ∧ IsChunkedValue value

/-- The last `Transfer-Encoding` header announces a chunked body. -/
def LastAnnouncesChunked (lines : List Str) : Prop :=
  ∃ value, lastOf "transfer-encoding".toList (lines.filterMap headerOf) = some value ∧
    IsChunkedValue value

/-- **The reader looks at the last line.** -/
theorem isChunked_iff {lines : List Str} :
    isChunked (HashMap.empty.insertAll (lines.filterMap headerOf)) = true ↔
      LastAnnouncesChunked lines := by
  rw [isChunked, HashMap.get?_insertAll_empty, Option.any_eq_true]
  rfl

/-! ### Accepted heads -/

variable {limits : Limits}

/-- A head whose request line and header lines are in order, and that declares `n` bytes. -/
structure HeadInOrder (limits : Limits) (text : Str) (n : ℕ) : Prop where
  requestLine : ∃ first ∈ (splitPair '\r' '\n' text).head?, ∃ words,
    parseRequestLine first = .ok words
  colons : ∀ line ∈ headerLines text, line ≠ [] → ':' ∈ line
  length : contentLength (HashMap.empty.insertAll ((headerLines text).filterMap headerOf)) = .ok n
  small : ∀ m ∈ limits.body, n ≤ m

/-- **Exactly which heads are accepted**: those in order whose last `Transfer-Encoding` header does
not announce a chunked body. -/
theorem parseHeadLines_isOk_iff {text : Str} {n : ℕ} :
    (∃ head, parseHeadLines limits text = .ok head ∧ head.contentLength = n) ↔
      HeadInOrder limits text n ∧ ¬ LastAnnouncesChunked (headerLines text) := by
  have htail : ∀ {first : Str} {lines : List Str}, splitPair '\r' '\n' text = first :: lines →
      headerLines text = lines := fun h => by rw [headerLines, h, List.tail_cons]
  constructor
  · rintro ⟨head, hok, rfl⟩
    obtain ⟨first, lines, hsplit, hline, hcolons, hheaders, hcheck⟩ :=
      parseHeadLines_eq_ok_iff.mp hok
    rw [← htail hsplit] at hcolons hheaders
    rw [hheaders] at hcheck
    obtain ⟨hchunk, hlen, hsmall⟩ := checkHeaders_eq_ok_iff.mp hcheck
    have hfirst : first ∈ (splitPair '\r' '\n' text).head? := by rw [hsplit]; rfl
    exact ⟨⟨⟨first, hfirst, _, hline⟩, hcolons, hlen, hsmall⟩, isChunked_iff.not.mp hchunk⟩
  · rintro ⟨⟨⟨first, hfirst, words, hline⟩, hcolons, hlen, hsmall⟩, hlast⟩
    obtain ⟨lines, hsplit⟩ := List.head?_eq_some_iff.mp hfirst
    have hcheck := checkHeaders_eq_ok_iff.mpr ⟨isChunked_iff.not.mpr hlast, hlen, hsmall⟩
    rw [htail hsplit] at hcolons hcheck
    exact ⟨⟨words.1, words.2.1, words.2.2, _, n⟩,
      parseHeadLines_eq_ok_iff.mpr ⟨first, lines, hsplit, hline, hcolons, rfl, hcheck⟩, rfl⟩

/-! ### Accepted streams -/

/-- Nothing but a `Transfer-Encoding` header can make the reader refuse the stream, if it comes in
suitable pieces: the head ends at `pos` within reach, is text, is in order, and the declared body
is there. -/
structure InOrder (stream : Bytes) (pos : ℕ) (text : Str) (n : ℕ) : Prop where
  headerEnd : findHeaderEnd stream = some pos
  reach : pos + 4 ≤ maxHeaderSize + headerChunk
  isText : fromUtf8 (stream.take pos) = some text
  head : HeadInOrder .source text n
  body : pos + 4 + n ≤ stream.length

/-- **Exactly which streams are accepted in some pieces.** -/
theorem accepted_iff {stream : Bytes} :
    (∃ s : Socket, s.bytes = stream ∧ ∃ r, readHttpRequest .source s = .ok r) ↔
      ∃ pos text n, InOrder stream pos text n ∧ ¬ LastAnnouncesChunked (headerLines text) := by
  have hchunk : headerChunk = 2048 := rfl
  constructor
  · rintro ⟨s, rfl, r, hr⟩
    have hsome := toOption_eq_some_iff.mpr hr
    rcases readHttpRequest_cases .source s with
      ⟨pos, ahead, k, hpos, -, hlim, hover, -, hres⟩ | ⟨hres, -⟩
    · rw [hsome] at hres
      obtain ⟨head, text, htext, hhead, hlen, -⟩ := outcome_eq_some_iff.mp hres.symm
      obtain ⟨hin, hlast⟩ := parseHeadLines_isOk_iff.mp ⟨head, hhead, rfl⟩
      rw [overHeader_source] at hlim
      exact ⟨pos, text, head.contentLength, ⟨hpos, by omega, htext, hin, hlen⟩, hlast⟩
    · rw [hsome] at hres
      cases hres
  · rintro ⟨pos, text, n, ⟨hpos, hreach, htext, hin, hbody⟩, hlast⟩
    obtain ⟨head, hhead, rfl⟩ := parseHeadLines_isOk_iff.mpr ⟨hin, hlast⟩
    -- the blank line ends the last read, which is as long as it can be
    obtain ⟨m, hm⟩ : ∃ m, m = min (pos + 4) headerChunk := ⟨_, rfl⟩
    have hread : (readHttpRequest .source (cut (pos + 4 - m) m stream)).toOption =
        outcome .source stream pos (pos + 4 - m + m - (pos + 4)) :=
      readHttpRequest_cut hpos (by omega) (by omega) (by omega) (by omega)
        fun n hn => overHeader_source_le (by omega)
    rw [outcome_eq_some_iff.mpr ⟨head, text, htext, hhead, hbody, rfl⟩] at hread
    exact ⟨_, bytes_cut _ _ _, _, toOption_eq_some_iff.mp hread⟩

/-! ### Chunked bodies -/

/-- A stream whose head has a line that announces a chunked body is refused, in whatever pieces it
arrives. A head that is not text has no lines, and is taken to announce one. -/
def ChunkedRefused (stream : Bytes) : Prop :=
  ∀ pos, findHeaderEnd stream = some pos →
    (∀ text, fromUtf8 (stream.take pos) = some text → AnnouncesChunked (headerLines text)) →
    ∀ s : Socket, s.bytes = stream → ∃ e, readHttpRequest .source s = .error e

/-- **Exactly when a chunked body is refused**: when the last `Transfer-Encoding` line announces it
as well, or something else about the request is not in order. -/
theorem chunkedRefused_iff (stream : Bytes) :
    ChunkedRefused stream ↔
      ∀ pos text n, InOrder stream pos text n → AnnouncesChunked (headerLines text) →
        LastAnnouncesChunked (headerLines text) := by
  constructor
  · intro hrefused pos text n hin hannounces
    by_contra hlast
    obtain ⟨s, hs, r, hr⟩ := accepted_iff.mpr ⟨pos, text, n, hin, hlast⟩
    have htext : ∀ text', fromUtf8 (stream.take pos) = some text' →
        AnnouncesChunked (headerLines text') := fun text' htext' => by
      obtain rfl := Option.some.inj (hin.isText.symm.trans htext')
      exact hannounces
    obtain ⟨e, he⟩ := hrefused pos hin.headerEnd htext s hs
    rw [hr] at he
    cases he
  · intro hlast pos hpos hannounces s hs
    cases hr : readHttpRequest .source s with
    | error e => exact ⟨e, rfl⟩
    | ok r =>
      obtain ⟨pos', text, n, hin, hnot⟩ := accepted_iff.mp ⟨s, hs, r, hr⟩
      obtain rfl := Option.some.inj (hpos.symm.trans hin.headerEnd)
      exact absurd (hlast pos text n hin (hannounces text hin.isText)) hnot

/-- A request with two `Transfer-Encoding` lines, of which the first announces a chunked body. -/
def overwrittenStream : Bytes :=
  asBytes ("POST / HTTP/1.1\r\nTransfer-Encoding: chunked\r\n".toList ++
    "Transfer-Encoding: identity\r\n\r\n".toList)

/-- The second line hides the first one, and the request is read. -/
theorem overwritten_is_read : ¬ ∀ stream : Bytes, ChunkedRefused stream := by
  intro h
  have hpos : findHeaderEnd overwrittenStream = some 72 := by decide
  have hlines : ("transfer-encoding".toList, "chunked".toList) ∈
      (headerLines ("POST / HTTP/1.1\r\nTransfer-Encoding: chunked\r\n".toList ++
        "Transfer-Encoding: identity".toList)).filterMap headerOf := by decide
  have htext : fromUtf8 (overwrittenStream.take 72) =
      some ("POST / HTTP/1.1\r\nTransfer-Encoding: chunked\r\n".toList ++
        "Transfer-Encoding: identity".toList) := by decide +kernel
  obtain ⟨e, he⟩ := h overwrittenStream 72 hpos
    (fun text htext' => by
      obtain rfl := Option.some.inj (htext.symm.trans htext')
      exact ⟨_, hlines, by decide⟩)
    (.push overwrittenStream .closed) (by rw [Socket.bytes_push, Socket.bytes_closed,
      List.append_nil])
  have hok : (readHttpRequest .source (.push overwrittenStream .closed)).isOk = true := by
    decide +kernel
  rw [he] at hok
  cases hok

end Proxy

end Fywaf
