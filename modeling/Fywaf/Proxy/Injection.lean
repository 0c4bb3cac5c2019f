import Fywaf.Proxy.Framing

/-!
# Line breaks inside headers

Lines are cut at CR LF, names and values are trimmed at their ends only, and written back as they
are. A CR or LF alone inside a name or value therefore survives, and an upstream that ends its
lines at LF sees header lines there which the proxy has not seen: its check for chunked bodies,
for one, does not apply to them.

## Main definitions

* `Proxy.NoInjection` — no header has a line break inside
* `Proxy.CleanLines`, `Proxy.CleanUpstream` — the streams and upstreams for which that is so
* `Proxy.headerBlock` — the lines as they are written

## Main results

* `Proxy.noInjection_iff` — which streams give headers without line breaks
* `Proxy.splitLax_headerBlock_iff` — when a bare LF is no line break either
* `Proxy.injection_iff` — both together
-/

namespace Fywaf

namespace Proxy

/-- Neither CR nor LF. -/
def NoLineBreak (s : Str) : Prop := '\r' ∉ s ∧ '\n' ∉ s

/-- No name and no value has a line break inside. -/
def NoInjection (request : HttpRequest) : Prop :=
  ∀ name value, request.headers.get? name = some value → NoLineBreak name ∧ NoLineBreak value

/-- No line break inside the name or value of a header line, unless a later line of the same name
replaces it. -/
def CleanLines (lines : List Str) : Prop :=
  ∀ pre line post name value, lines = pre ++ line :: post →
    splitOnce ':' line = some (name, value) →
    (∀ later ∈ post, ∀ name' value', splitOnce ':' later = some (name', value') →
      toAsciiLowercase (trim name') ≠ toAsciiLowercase (trim name)) →
    NoLineBreak (trim name) ∧ NoLineBreak (trim value)

/-- Every LF in the configured host and base path stands behind a CR. -/
def CleanUpstream (upstream : Upstream) : Prop :=
  Paired '\r' '\n' upstream.host ∧ Paired '\r' '\n' upstream.basePath

/-- The lines as they are written, each with its CR LF. -/
def headerBlock (order : HashOrder Str Str) (request : HttpRequest) (upstream : Upstream)
    (clientIp : IpAddr) : Str :=
  (upstreamLines order request upstream clientIp).flatMap fun l => l ++ ['\r', '\n']

/-! ### Streams -/

theorem noLineBreak_toAsciiLowercase {s : Str} :
    NoLineBreak (toAsciiLowercase s) ↔ NoLineBreak s := by
  rw [NoLineBreak, NoLineBreak, mem_toAsciiLowercase_iff (by decide) (by decide),
    mem_toAsciiLowercase_iff (by decide) (by decide)]

theorem headerOf_eq_some_iff {line : Str} {e : Str × Str} : headerOf line = some e ↔
    ∃ name value, splitOnce ':' line = some (name, value) ∧
      e = (toAsciiLowercase (trim name), trim value) := by
  rw [headerOf]
  split
  · next h =>
    rw [h]
    refine iff_of_false (fun h => by cases h) ?_
    rintro ⟨name, value, hsplit, -⟩
    cases hsplit
  · rw [Option.map_eq_some_iff]
    constructor
    · rintro ⟨⟨name, value⟩, hsplit, rfl⟩
      exact ⟨name, value, hsplit, rfl⟩
    · rintro ⟨name, value, hsplit, rfl⟩
      exact ⟨_, hsplit, rfl⟩

/-- The last values of header lines, in terms of the lines. -/
theorem cleanLines_iff {lines : List Str} : CleanLines lines ↔
    ∀ name value, lastOf name (lines.filterMap headerOf) = some value →
      NoLineBreak name ∧ NoLineBreak value := by
  constructor
  · intro h name value hlast
    obtain ⟨a, b, hab, hb⟩ := lastOf_eq_some_iff_append.mp hlast
    obtain ⟨l₁, l₂, rfl, -, hl₂⟩ := List.filterMap_eq_append_iff.mp hab
    obtain ⟨m₁, line, m₂, rfl, hm₁, hline, rfl⟩ := List.filterMap_eq_cons_iff.mp hl₂
    obtain ⟨n, v, hsplit, he⟩ := headerOf_eq_some_iff.mp hline
    obtain ⟨rfl, rfl⟩ := Prod.mk.inj he
    rw [noLineBreak_toAsciiLowercase]
    refine h (l₁ ++ m₁) line m₂ n v (by rw [List.append_assoc]) hsplit
      fun later hlater n' v' hs => ?_
    exact hb (toAsciiLowercase (trim n'), trim v')
      (List.mem_filterMap.mpr ⟨later, hlater, headerOf_eq_some_iff.mpr ⟨n', v', hs, rfl⟩⟩)
  · rintro h pre line post n v rfl hsplit hlater
    rw [← noLineBreak_toAsciiLowercase (s := trim n)]
    refine h _ _ (lastOf_eq_some_iff_append.mpr ⟨pre.filterMap headerOf, post.filterMap headerOf,
      ?_, fun e he => ?_⟩)
    · rw [List.filterMap_append, List.filterMap_cons,
        headerOf_eq_some_iff.mpr ⟨n, v, hsplit, rfl⟩]
    · obtain ⟨later, hmem, hhead⟩ := List.mem_filterMap.mp he
      obtain ⟨n', v', hs, rfl⟩ := headerOf_eq_some_iff.mp hhead
      exact hlater later hmem n' v' hs

/-- The header lines of a stream that was accepted. -/
theorem splitMessage_of_read {limits : Limits} {s : Socket} {request : HttpRequest}
    (h : readHttpRequest limits s = .ok request) : ∃ lines rest,
      splitMessage s.bytes = some (lines, rest) ∧
        request.headers = HashMap.empty.insertAll (lines.filterMap headerOf) := by
  obtain ⟨pos, text, head, hpos, htext, hhead, -, -, -, hh, -⟩ := eq_of_read h
  obtain ⟨-, -, hins, -⟩ := parseHeadLines_eq_ok hhead
  refine ⟨headerLines text, s.bytes.drop (pos + 4), ?_, hh.trans hins⟩
  rw [splitMessage, hpos, Option.bind_some, htext, Option.map_some]

/-- A message has one sequence of header lines. -/
theorem forall_splitMessage_iff {bytes : Bytes} {lines : List Str} {rest : Bytes}
    (h : splitMessage bytes = some (lines, rest)) {p : List Str → Prop} :
    (∀ lines rest, splitMessage bytes = some (lines, rest) → p lines) ↔ p lines := by
  constructor
  · exact fun hall => hall lines rest h
  · intro hp lines' rest' h'
    rw [h, Option.some.injEq, Prod.mk.injEq] at h'
    exact h'.1 ▸ hp

/-- **Which streams give headers without line breaks.** -/
theorem noInjection_iff {limits : Limits} {s : Socket} {request : HttpRequest}
    (h : readHttpRequest limits s = .ok request) :
    NoInjection request ↔
      ∀ lines rest, splitMessage s.bytes = some (lines, rest) → CleanLines lines := by
  obtain ⟨lines, rest, hsplit, hins⟩ := splitMessage_of_read h
  rw [forall_splitMessage_iff hsplit, cleanLines_iff, NoInjection, hins]
  simp only [HashMap.get?_insertAll_empty]

/-! ### What is written -/

variable {request : HttpRequest} {order : HashOrder Str Str} {upstream : Upstream}
  {clientIp : IpAddr}

theorem not_lf_of_no_blank {s : Str} (h : ∀ c ∈ s, isWhitespace c = false) : '\n' ∉ s :=
  fun hmem => absurd (h _ hmem) (by decide)

theorem paired_of_no_blank {s : Str} (h : ∀ c ∈ s, isWhitespace c = false) :
    Paired '\r' '\n' s :=
  pairedAfter_of_not_mem (not_lf_of_no_blank h)

theorem paired_mergeUpstreamPath_iff {basePath path : Str} (hpath : IsWord path) :
    Paired '\r' '\n' (mergeUpstreamPath basePath path) ↔ Paired '\r' '\n' basePath := by
  have hincoming : ∃ rest, (if path.head? = some '/' then path else '/' :: path) = '/' :: rest ∧
      ∀ c ∈ rest, isWhitespace c = false := by
    split
    · next h =>
      obtain ⟨rest, rfl⟩ := List.head?_eq_some_iff.mp h
      exact ⟨rest, rfl, fun c hc => hpath.2 c (List.mem_cons_of_mem _ hc)⟩
    · exact ⟨path, rfl, hpath.2⟩
  obtain ⟨rest, heq, hrest⟩ := hincoming
  have hroot : Paired '\r' '\n' ('/' :: rest) :=
    (paired_cons (by decide) (by decide)).mpr (paired_of_no_blank hrest)
  have hslash : Paired '\r' '\n' (['/'] : Str) := by decide
  rw [mergeUpstreamPath, heq]
  split
  · next hbase =>
    rw [hbase]
    exact iff_of_true hroot hslash
  · split
    · rfl
    · rw [paired_append_cons (by decide) (by decide),
        and_iff_left (paired_of_no_blank hrest)]

theorem paired_requestLine_iff (hr : WellRead request) :
    Paired '\r' '\n' (requestLine request upstream) ↔ Paired '\r' '\n' upstream.basePath := by
  rw [requestLine, List.append_assoc, List.cons_append, paired_append_cons (by decide) (by decide),
    paired_append_cons (by decide) (by decide), paired_mergeUpstreamPath_iff hr.path,
    and_iff_left (paired_of_no_blank hr.version.2),
    and_iff_right (paired_of_no_blank hr.method.2)]

theorem paired_hostLine_iff :
    Paired '\r' '\n' (hostLine upstream) ↔ Paired '\r' '\n' upstream.host := by
  have hname : Paired '\r' '\n' "Host".toList := by decide
  have hport : Paired '\r' '\n' (decimal upstream.port.toNat) :=
    paired_of_no_blank fun c hc => (IpAddr.isGraphic_decimal hc).not_whitespace
  rw [hostLine_eq, headerLine_eq, paired_append_cons (by decide) (by decide),
    paired_cons (by decide) (by decide), and_iff_right hname, Upstream.authority,
    paired_append_cons (by decide) (by decide), and_iff_left hport]

theorem not_lf_of_graphic {s : Str} (h : ∀ c ∈ s, IsGraphic c) : '\n' ∉ s :=
  fun hmem => absurd (h _ hmem) (by decide)

/-- The forwarding chain has no LF when the request has no line break. -/
theorem not_lf_forwardedFor (hr : NoInjection request) :
    '\n' ∉ forwardedFor request clientIp := by
  have hip : '\n' ∉ clientIp.display :=
    not_lf_of_graphic fun c => IpAddr.isGraphic_of_mem_display
  rcases forwardedFor_cases request clientIp with h | ⟨existing, hx, -, h⟩
  · rwa [h]
  · rw [h, List.mem_append, List.mem_cons, List.mem_cons, not_or, not_or, not_or]
    exact ⟨(hr _ _ hx).2.2, by decide, by decide, hip⟩

/-- The added headers have no LF when the request has no line break. -/
theorem not_lf_of_mem_addedHeaders (hr : NoInjection request) {e : Str × Str}
    (h : e ∈ addedHeaders order request clientIp) : '\n' ∉ headerLine e := by
  have hparts : '\n' ∉ e.1 ∧ '\n' ∉ e.2 := by
    rcases addedHeaders_cases h with hget | ⟨⟨-, hname⟩, hvalue⟩
    · exact ⟨(hr _ _ hget).1.2, (hr _ _ hget).2.2⟩
    · refine ⟨not_lf_of_graphic hname, ?_⟩
      rcases hvalue with hchain | hgraphic
      · rw [hchain]
        exact not_lf_forwardedFor hr
      · exact not_lf_of_graphic hgraphic
  rw [headerLine_eq, List.mem_append, List.mem_cons, List.mem_cons, not_or, not_or, not_or]
  exact ⟨hparts.1, by decide, by decide, hparts.2⟩

/-- **When a bare LF is no line break either.** -/
theorem splitLax_headerBlock_iff (hr : WellRead request) (hclean : NoInjection request) :
    splitLax '\r' '\n' (headerBlock order request upstream clientIp) =
        splitPair '\r' '\n' (headerBlock order request upstream clientIp) ↔
      CleanUpstream upstream := by
  have hcrlf : '\r' ≠ '\n' := by decide
  have hne : upstreamLines order request upstream clientIp ≠ [] := by simp [upstreamLines]
  have hadded : ∀ p ∈ (addedHeaders order request clientIp).map headerLine, '\n' ∉ p := by
    intro p hp
    obtain ⟨e, he, rfl⟩ := List.mem_map.mp hp
    exact not_lf_of_mem_addedHeaders hclean he
  rw [headerBlock, flatMap_append_pair hne, splitLax_eq_iff hcrlf,
    splitPair_upstreamLines order clientIp upstream hr, List.forall_mem_append,
    List.forall_mem_append, ← paired_iff_pieces hcrlf, ← paired_iff_pieces hcrlf,
    paired_requestLine_iff hr, paired_hostLine_iff, and_iff_left hadded, CleanUpstream, and_comm]

/-- What is written is the header block, the blank line and the body. -/
theorem eq_headerBlock_of_build {out : Bytes}
    (h : buildUpstreamRequest order request upstream clientIp = .ok out) :
    out = asBytes (headerBlock order request upstream clientIp ++ ['\r', '\n']) ++
      request.body := by
  rw [buildUpstreamRequest] at h
  split at h
  · cases h
  · exact (Except.ok.inj h).symm

/-- **Exactly when no line break is injected**: neither into the headers that were read, nor, for
an upstream that ends its lines at LF, into the header block that is written. -/
theorem injection_iff {limits : Limits} {s : Socket}
    (hread : readHttpRequest limits s = .ok request) :
    (NoInjection request ↔
      ∀ lines rest, splitMessage s.bytes = some (lines, rest) → CleanLines lines) ∧
    ∀ order upstream clientIp out,
      buildUpstreamRequest order request upstream clientIp = .ok out →
      ∃ block, out = asBytes (block ++ ['\r', '\n']) ++ request.body ∧
        (NoInjection request ∧ splitLax '\r' '\n' block = splitPair '\r' '\n' block ↔
          (∀ lines rest, splitMessage s.bytes = some (lines, rest) → CleanLines lines) ∧
            CleanUpstream upstream) := by
  refine ⟨noInjection_iff hread, fun order upstream clientIp out hbuild => ?_⟩
  refine ⟨headerBlock order request upstream clientIp, eq_headerBlock_of_build hbuild, ?_⟩
  rw [← noInjection_iff hread]
  exact and_congr_right fun hclean => splitLax_headerBlock_iff (wellRead_of_read hread) hclean

/-- `postRequest` has no line break. -/
theorem injection_postRequest : ∃ out,
    buildUpstreamRequest .stored postRequest apiUpstream localhost = .ok out ∧
    ∃ block, out = asBytes (block ++ ['\r', '\n']) ++ postRequest.body ∧
      (NoInjection postRequest ∧ splitLax '\r' '\n' block = splitPair '\r' '\n' block ↔
        (∀ lines rest, splitMessage postSocket.bytes = some (lines, rest) → CleanLines lines) ∧
          CleanUpstream apiUpstream) := by
  obtain ⟨out, hout⟩ := build_postRequest
  exact ⟨out, hout, (injection_iff read_postSocket).2 _ _ _ _ hout⟩

/-- A header line with a line feed in its value, and a chunked body announced behind it. -/
def hiddenSocket : Socket where
  segments := [asBytes "GET / HTTP/1.1\r\nA: b\nTransfer-Encoding: chunked\r\n\r\n".toList]
  nonempty := by decide
  fails := false

/-- The request of `hiddenSocket` is accepted, line feed included. -/
theorem lineFeed_accepted : ¬ ∀ (s : Socket) (request : HttpRequest),
    readHttpRequest .source s = .ok request → NoInjection request := by
  intro h
  have hvalue : (readHttpRequest .source hiddenSocket).toOption.map
      (fun r => r.headers.get? ['a']) =
        some (some "b\nTransfer-Encoding: chunked".toList) := by
    decide +kernel
  obtain ⟨request, hread, hheader⟩ := map_toOption_eq_some_iff.mp hvalue
  have hlf := (h _ _ hread _ _ hheader).2.2
  exact hlf (by decide)

end Proxy

end Fywaf
