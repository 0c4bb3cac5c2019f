import Fywaf.Proxy.Reparse

/-!
# The declared length of what is written

A message is framed unambiguously when its head has one `Content-Length` line and that line says
how long the body is. The proxy copies the client's own `Content-Length` line and adds one as soon
as there is a body, so a request with a declared body leaves it with two.

## Main definitions

* `Proxy.splitMessage`, `Proxy.contentLengths` — a message by the proxy's own grammar
* `Proxy.FramedBy` — one length line, and it tells the truth
* `Proxy.OneLength`, `Proxy.NoExtraLine` — when it is so

## Main results

* `Proxy.splitMessage_written` — the lines of what is written
* `Proxy.framed_iff` — exactly when a forwarded request is framed unambiguously
-/

namespace Fywaf

namespace Proxy

/-! ### Messages -/

/-- The lines between the first line and the blank line, and what follows the blank line. -/
def splitMessage (bytes : Bytes) : Option (List Str × Bytes) :=
  (findHeaderEnd bytes).bind fun pos =>
    (fromUtf8 (bytes.take pos)).map fun text => (headerLines text, bytes.drop (pos + 4))

/-- The values of the lines named `Content-Length`, in any case. -/
def contentLengths (lines : List Str) : List Str :=
  (lines.filterMap headerOf).filterMap fun e =>
    if e.1 = "content-length".toList then some e.2 else none

/-- A decimal number. -/
def IsDecimal (v : Str) (n : ℕ) : Prop :=
  v ≠ [] ∧ (∀ c ∈ v, c.isDigit = true) ∧ Nat.ofDigitChars 10 v 0 = n

/-- The blank line is followed by the body, exactly one line is named `Content-Length`, and its
value is the length of the body. -/
def FramedBy (out body : Bytes) : Prop :=
  ∃ lines v, splitMessage out = some (lines, body) ∧ contentLengths lines = [v] ∧
    IsDecimal v body.length

/-- The client declared nothing; or it declared nothing but digits, sent no body and, the request
being accepted, declared zero. -/
def OneLength (request : HttpRequest) : Prop :=
  request.headers.get? "content-length".toList = none ∨
    (request.body = [] ∧ ∃ v, request.headers.get? "content-length".toList = some v ∧
      ∀ c ∈ v, c.isDigit = true)

/-- What the configured upstream brings into the first two lines ends neither the line nor the
head: it adds no blank line and no `Content-Length` line. -/
def NoExtraLine (request : HttpRequest) (upstream : Upstream) : Prop :=
  ∀ l ∈ headerLines (requestLine request upstream) ++ headerLines (hostLine upstream),
    l ≠ [] ∧ contentLengths [l] = []

/-! ### The lines of what is written -/

variable {request : HttpRequest} {order : HashOrder Str Str} {upstream : Upstream}
  {clientIp : IpAddr}

theorem contentLengths_append (l m : List Str) :
    contentLengths (l ++ m) = contentLengths l ++ contentLengths m := by
  rw [contentLengths, List.filterMap_append, List.filterMap_append]
  rfl

theorem contentLengths_eq_nil_iff {lines : List Str} :
    contentLengths lines = [] ↔ ∀ l ∈ lines, contentLengths [l] = [] := by
  induction lines with
  | nil => exact iff_of_true rfl fun _ h => absurd h List.not_mem_nil
  | cons l lines ih =>
    rw [← List.singleton_append, contentLengths_append, List.append_eq_nil_iff, ih,
      List.singleton_append, List.forall_mem_cons]

variable (order upstream clientIp) in
/-- The pieces of the head that was written, one of them the `Host` line. -/
theorem pieces_upstreamLines (hr : WellRead request) : ∃ first w,
    splitPair '\r' '\n' (joinPair '\r' '\n' (upstreamLines order request upstream clientIp)) =
      first :: (headerLines (requestLine request upstream) ++
        ("Host: ".toList ++ w) :: headerLines (hostLine upstream) ++
          (addedHeaders order request clientIp).map headerLine) := by
  have hpieces : ∀ l : Str, ∃ p, splitPair '\r' '\n' l = p :: headerLines l := fun l => by
    obtain ⟨p, ps, hp⟩ := List.exists_cons_of_ne_nil (splitPair_ne_nil (a := '\r') (b := '\n') l)
    exact ⟨p, by rw [headerLines, hp, List.tail_cons]⟩
  obtain ⟨first, hfirst⟩ := hpieces (requestLine request upstream)
  obtain ⟨w, hw⟩ := hpieces upstream.authority
  have hcr : '\r' ∉ "Host: ".toList := by decide
  have hhost : splitPair '\r' '\n' (hostLine upstream) =
      ("Host: ".toList ++ w) :: headerLines upstream.authority := by
    have hcut := splitPair_append_left (b := '\n') hcr upstream.authority
    rw [hw] at hcut
    exact hcut
  have htail : headerLines (hostLine upstream) = headerLines upstream.authority := by
    rw [headerLines, hhost, List.tail_cons]
  refine ⟨first, w, ?_⟩
  rw [splitPair_upstreamLines order clientIp upstream hr, hfirst, hhost, htail, List.cons_append,
    List.cons_append]

/-- A message whose head is `text`: the body is found exactly when no header line is empty. -/
theorem splitMessage_eq_some_iff {text : Str} {body : Bytes} {lines : List Str} :
    splitMessage (asBytes text ++ blankLine ++ body) = some (lines, body) ↔
      (∀ l ∈ headerLines text, l ≠ []) ∧ lines = headerLines text := by
  obtain ⟨htake, hdrop, hlength⟩ := message_parts (asBytes text) body
  have hcrlf : ∀ l ∈ splitPair '\r' '\n' text, NoPair '\r' '\n' l :=
    fun l hl => noPair_of_mem_splitPair hl
  have hend := findHeaderEnd_lines_iff (splitPair_ne_nil text) hcrlf body
  rw [joinPair_splitPair] at hend
  rw [headerLines, ← hend]
  constructor
  · intro h
    obtain ⟨pos, hpos, h⟩ := Option.bind_eq_some_iff.mp h
    obtain ⟨text', htext, h⟩ := Option.map_eq_some_iff.mp h
    obtain ⟨rfl, hbody⟩ := Prod.mk.inj h
    -- a blank line further left would leave more than the body behind it
    have hle := length_of_findHeaderEnd hpos
    have hlen := congrArg List.length hbody
    rw [List.length_drop] at hlen
    obtain rfl : pos = (asBytes text).length := by omega
    rw [htake, fromUtf8_asBytes] at htext
    obtain rfl := Option.some.inj htext
    exact ⟨hpos, rfl⟩
  · rintro ⟨hpos, rfl⟩
    rw [splitMessage, hpos, Option.bind_some, htake, fromUtf8_asBytes, Option.map_some, hdrop,
      headerLines]

/-- **The lines of what is written**: the body is found behind the blank line exactly when the
upstream adds no blank line, and then the lines are those of the two first lines and the added
headers. -/
theorem splitMessage_written (hr : WellRead request) {out : Bytes}
    (hout : out = asBytes (joinPair '\r' '\n' (upstreamLines order request upstream clientIp)) ++
      blankLine ++ request.body) :
    ∃ w, ∀ lines, splitMessage out = some (lines, request.body) ↔
      (∀ l ∈ headerLines (requestLine request upstream) ++ headerLines (hostLine upstream),
        l ≠ []) ∧
      lines = headerLines (requestLine request upstream) ++
        ("Host: ".toList ++ w) :: headerLines (hostLine upstream) ++
          (addedHeaders order request clientIp).map headerLine := by
  obtain ⟨first, w, hsplit⟩ := pieces_upstreamLines order upstream clientIp hr
  refine ⟨w, fun lines => ?_⟩
  have hhost : "Host: ".toList ++ w ≠ [] := List.append_ne_nil_of_left_ne_nil (by decide) w
  have hadded : ∀ l ∈ (addedHeaders order request clientIp).map headerLine, l ≠ [] := by
    intro l hl
    obtain ⟨e, -, rfl⟩ := List.mem_map.mp hl
    exact headerLine_ne_nil e
  rw [hout, splitMessage_eq_some_iff, headerLines, hsplit, List.tail_cons]
  refine and_congr_left fun _ => ?_
  simp only [List.forall_mem_append, List.forall_mem_cons]
  exact ⟨fun h => ⟨h.1.1, h.1.2.2⟩, fun h => ⟨⟨h.1, hhost, h.2⟩, hadded⟩⟩

/-! ### The length lines -/

/-- The length lines of the added headers: the client's own, and the proxy's. -/
theorem contentLengths_added (hr : WellRead request) :
    contentLengths ((addedHeaders order request clientIp).map headerLine) =
      (request.headers.get? "content-length".toList).toList ++
        (if request.body ≠ [] then [decimal request.body.length]
        else if request.headers.containsKey "content-length".toList then []
        else [['0']]) := by
  have hcopied : notCopied "content-length".toList = false := by decide
  have hconn : ¬ toAsciiLowercase "Connection".toList = "content-length".toList := by decide
  have hxff : ¬ toAsciiLowercase "x-forwarded-for".toList = "content-length".toList := by decide
  have hlower : toAsciiLowercase "Content-Length".toList = "content-length".toList := by decide
  rw [contentLengths, filterMap_headerOf_added hr, addedHeaders, List.map_append, List.map_append,
    lowercase_copiedHeaders hr, List.filterMap_append, List.filterMap_append,
    filterMap_key nodup_copiedHeaders, lastOf_copiedHeaders, hcopied]
  have hown : ([("x-forwarded-for".toList, forwardedFor request clientIp),
      ("Connection".toList, "close".toList)].map fun e => (toAsciiLowercase e.1, e.2)).filterMap
        (fun e => if e.1 = "content-length".toList then some e.2 else none) = [] := by
    simp only [List.map_cons, List.map_nil, List.filterMap_cons, if_neg hconn, if_neg hxff,
      List.filterMap_nil]
  have hlen : ∀ v : Str, ([("Content-Length".toList, v)].map fun e =>
      (toAsciiLowercase e.1, e.2)).filterMap
        (fun e => if e.1 = "content-length".toList then some e.2 else none) = [v] := by
    intro v
    simp only [List.map_cons, List.map_nil, List.filterMap_cons, if_pos hlower, List.filterMap_nil]
  rw [hown, List.append_nil, lengthHeaders]
  refine congrArg _ ?_
  split
  · exact hlen _
  · cases request.headers.containsKey "content-length".toList
    · exact hlen _
    · rfl

/-- The lines of the upstream: only the extra ones can be named `Content-Length`. -/
theorem contentLengths_host (w : Str) : contentLengths ["Host: ".toList ++ w] = [] := by
  have hcolon : ':' ∉ "Host".toList := by decide
  have hcut : "Host: ".toList ++ w = "Host".toList ++ ':' :: ' ' :: w := rfl
  have hname : ¬ toAsciiLowercase (trim "Host".toList) = "content-length".toList := by
    decide
  have hhost : headerOf ("Host: ".toList ++ w) =
      some (toAsciiLowercase (trim "Host".toList), trim (' ' :: w)) := by
    rw [headerOf, if_neg (List.append_ne_nil_of_left_ne_nil (by decide) w), hcut,
      splitOnce_append hcolon, Option.map_some]
  simp only [contentLengths, List.filterMap_cons, hhost, if_neg hname, List.filterMap_nil]

/-- A declared length that was accepted with no body is zero. -/
theorem isDecimal_zero_iff (hr : WellRead request) (hbody : request.body = []) {v : Str}
    (hv : request.headers.get? "content-length".toList = some v) :
    IsDecimal v request.body.length ↔ ∀ c ∈ v, c.isDigit = true := by
  refine ⟨fun h => h.2.1, fun hdigits => ?_⟩
  have hzero : request.body.length = 0 := by rw [hbody]; rfl
  obtain ⟨n, hn, hparse⟩ := hr.parse_length hv
  obtain ⟨hne, hval⟩ := ofDigitChars_of_parseUnsigned hdigits hparse
  exact ⟨hne, hdigits, by omega⟩

theorem isDecimal_decimal (n : ℕ) : IsDecimal (decimal n) n :=
  ⟨decimal_ne_nil n, fun _ => decimal_digits, Nat.ofDigitChars_ten_toDigits⟩

theorem append_singleton_eq_iff {α : Type} {l : List α} {a b : α} :
    l ++ [a] = [b] ↔ l = [] ∧ a = b := by
  constructor
  · intro h
    have hlen := congrArg List.length h
    rw [List.length_append, List.length_singleton, List.length_singleton] at hlen
    obtain rfl : l = [] := List.eq_nil_of_length_eq_zero (by omega)
    exact ⟨rfl, List.singleton_inj.mp h⟩
  · rintro ⟨rfl, rfl⟩
    rfl

/-- One length line that tells the truth, given those the upstream brings in. -/
theorem oneLength_iff (hr : WellRead request) (extra : List Str) :
    (∃ v, extra ++ contentLengths ((addedHeaders order request clientIp).map headerLine) = [v] ∧
      IsDecimal v request.body.length) ↔ OneLength request ∧ extra = [] := by
  rw [contentLengths_added hr, OneLength, HashMap.containsKey]
  cases hget : request.headers.get? "content-length".toList with
  | none =>
    -- the proxy adds the only line
    have hzero : request.body = [] → IsDecimal ['0'] request.body.length := fun h => by
      rw [h]
      exact isDecimal_decimal 0
    have hadded : ∃ d, IsDecimal d request.body.length ∧ (none : Option Str).toList ++
        (if request.body ≠ [] then [decimal request.body.length]
        else if (none : Option Str).isSome = true then [] else [['0']]) = [d] := by
      by_cases hbody : request.body = []
      · exact ⟨['0'], hzero hbody, by rw [if_neg (not_not.mpr hbody)]; rfl⟩
      · exact ⟨_, isDecimal_decimal _, by rw [if_pos hbody]; rfl⟩
    obtain ⟨d, hd, heq⟩ := hadded
    rw [heq]
    constructor
    · rintro ⟨v, hv, -⟩
      exact ⟨Or.inl rfl, (append_singleton_eq_iff.mp hv).1⟩
    · rintro ⟨-, rfl⟩
      exact ⟨d, rfl, hd⟩
  | some v =>
    by_cases hbody : request.body = []
    · -- the client's line is the only one
      rw [if_neg (not_not.mpr hbody), Option.isSome_some, if_pos rfl, List.append_nil,
        Option.toList_some]
      constructor
      · rintro ⟨v', hv', hdec⟩
        obtain ⟨hnil, rfl⟩ := append_singleton_eq_iff.mp hv'
        exact ⟨Or.inr ⟨hbody, v, rfl, hdec.2.1⟩, hnil⟩
      · rintro ⟨hone, rfl⟩
        rcases hone with hnone | ⟨-, v', hv', hdigits⟩
        · cases hnone
        · obtain rfl := Option.some.inj hv'
          exact ⟨v, rfl, (isDecimal_zero_iff hr hbody hget).mpr hdigits⟩
    · -- the client's line and the proxy's
      rw [if_pos hbody, Option.toList_some]
      constructor
      · rintro ⟨v', hv', -⟩
        have hlen := congrArg List.length hv'
        simp only [List.length_append, List.length_cons, List.length_nil] at hlen
        omega
      · rintro ⟨hnone | ⟨hnil, -⟩, -⟩
        · cases hnone
        · exact absurd hnil hbody

/-- **Exactly when a forwarded request is framed unambiguously.** -/
theorem framed_iff {limits : Limits} {s : Socket} {out : Bytes}
    (hread : readHttpRequest limits s = .ok request)
    (hbuild : buildUpstreamRequest order request upstream clientIp = .ok out) :
    FramedBy out request.body ↔ OneLength request ∧ NoExtraLine request upstream := by
  have hr := wellRead_of_read hread
  obtain ⟨w, hsplit⟩ := splitMessage_written hr (buildUpstreamRequest_eq_ok hbuild).1
  have hextra : NoExtraLine request upstream ↔
      (∀ l ∈ headerLines (requestLine request upstream) ++ headerLines (hostLine upstream),
        l ≠ []) ∧
      contentLengths (headerLines (requestLine request upstream)) ++
        contentLengths (headerLines (hostLine upstream)) = [] := by
    rw [← contentLengths_append, contentLengths_eq_nil_iff, NoExtraLine]
    exact forall₂_and
  have hlengths : contentLengths (headerLines (requestLine request upstream) ++
      ("Host: ".toList ++ w) :: headerLines (hostLine upstream) ++
        (addedHeaders order request clientIp).map headerLine) =
      contentLengths (headerLines (requestLine request upstream)) ++
        contentLengths (headerLines (hostLine upstream)) ++
        contentLengths ((addedHeaders order request clientIp).map headerLine) := by
    rw [contentLengths_append, contentLengths_append, ← List.singleton_append,
      contentLengths_append, contentLengths_host, List.nil_append]
  rw [FramedBy, hextra, ← and_assoc, and_right_comm, ← oneLength_iff hr, and_comm]
  constructor
  · rintro ⟨lines, v, hlines, hone, hdec⟩
    obtain ⟨hblank, rfl⟩ := (hsplit lines).mp hlines
    exact ⟨hblank, v, hlengths ▸ hone, hdec⟩
  · rintro ⟨hblank, v, hone, hdec⟩
    exact ⟨_, v, (hsplit _).mpr ⟨hblank, rfl⟩, hlengths.trans hone, hdec⟩

/-- `postRequest` for `apiUpstream`. -/
theorem framed_postRequest : ∃ out,
    buildUpstreamRequest .stored postRequest apiUpstream localhost = .ok out ∧
      (FramedBy out postRequest.body ↔
        OneLength postRequest ∧ NoExtraLine postRequest apiUpstream) := by
  obtain ⟨out, hout⟩ := build_postRequest
  exact ⟨out, hout, framed_iff read_postSocket hout⟩

/-- The length that `postRequest` declares is written twice. -/
theorem postRequest_two_lengths : ¬ ∀ (s : Socket) (request : HttpRequest)
    (order : HashOrder Str Str) (upstream : Upstream) (clientIp : IpAddr) (out : Bytes),
    readHttpRequest .source s = .ok request →
    buildUpstreamRequest order request upstream clientIp = .ok out →
    FramedBy out request.body := by
  intro h
  obtain ⟨out, hout⟩ := build_postRequest
  obtain ⟨lines, v, hsplit, hone, -⟩ := h _ _ _ _ _ _ read_postSocket hout
  have htwo : (splitMessage (asBytes (joinPair '\r' '\n'
      (upstreamLines .stored postRequest apiUpstream localhost)) ++ blankLine ++
        postRequest.body)).map (fun m => (contentLengths m.1).length) = some 2 := by
    decide +kernel
  rw [← (buildUpstreamRequest_eq_ok hout).1, hsplit, Option.map_some, hone] at htwo
  cases htwo

end Proxy

end Fywaf
