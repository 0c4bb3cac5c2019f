import Fywaf.Proxy.UpstreamUrl
import Fywaf.Proxy.Written

/-!
# Reading what was written

The upstream request, read by the proxy's own parser, is the client's request again: the same
method, version and body, the merged path, and the headers with the proxy's changes. This is
where duplicate names, folding, trimming and the order of the hash map could go wrong, and do not.

## Main definitions

* `Proxy.forwardedHeader` — the headers the upstream is to see, name by name

## Main results

* `Proxy.get?_upstreamHeaders` — the last values of the written headers
* `Proxy.reparse_buildUpstreamRequest` — reading what was written
-/

namespace Fywaf

namespace Proxy

/-- The header the upstream is to see under a name. -/
def forwardedHeader (request : HttpRequest) (upstream : Upstream) (clientIp : IpAddr)
    (name : Str) : Option Str :=
  if name = "host".toList then some upstream.authority
  else if name = "connection".toList then some "close".toList
  else if name = "x-forwarded-for".toList then some (forwardedFor request clientIp)
  else if name = "content-length".toList then
    if request.body ≠ [] then some (decimal request.body.length)
    else some ((request.headers.get? name).getD ['0'])
  else if isHopByHop name then none
  else request.headers.get? name

variable {request : HttpRequest} {order : HashOrder Str Str} {upstream : Upstream}
  {clientIp : IpAddr}

/-! ### The written headers, name by name -/

/-- The headers of the written lines as the parser sees them. -/
theorem filterMap_headerOf_lines (hr : WellRead request)
    (hauth : CleanEnds isWhitespace upstream.authority) :
    (hostLine upstream :: (addedHeaders order request clientIp).map headerLine).filterMap headerOf =
      ("host".toList, upstream.authority) ::
        (addedHeaders order request clientIp).map fun e => (toAsciiLowercase e.1, e.2) := by
  have hhost : headerOf (hostLine upstream) = some ("host".toList, upstream.authority) := by
    rw [hostLine_eq, headerOf_headerLine hostName.1 hostName.2.1 hauth, hostName.2.2.2]
  rw [List.filterMap_cons, hhost, filterMap_headerOf_added hr]

/-- The length header as the parser sees it. -/
theorem lastOf_lengthHeaders (name : Str) :
    lastOf name ((lengthHeaders request).map fun e => (toAsciiLowercase e.1, e.2)) =
      if name = "content-length".toList then
        if request.body ≠ [] then some (decimal request.body.length)
        else if request.headers.containsKey "content-length".toList then none
        else some ['0']
      else none := by
  have hlower : toAsciiLowercase "Content-Length".toList = "content-length".toList := by decide
  have hone : ∀ v : Str, lastOf name ([("Content-Length".toList, v)].map fun e =>
      (toAsciiLowercase e.1, e.2)) = if name = "content-length".toList then some v else none := by
    intro v
    rw [List.map_singleton, hlower, lastOf_singleton]
    exact if_congr eq_comm rfl rfl
  have hnone : (if name = "content-length".toList then (none : Option Str) else none) = none :=
    ite_self _
  rw [lengthHeaders]
  split
  · rw [hone]
  · cases request.headers.containsKey "content-length".toList with
    | false => exact hone _
    | true => exact hnone.symm

variable (order clientIp) in
/-- **The last values of the written headers** are the ones the upstream is to see. -/
theorem get?_upstreamHeaders (hr : WellRead request)
    (hauth : CleanEnds isWhitespace upstream.authority) (name : Str) :
    (HashMap.empty.insertAll ((hostLine upstream ::
        (addedHeaders order request clientIp).map headerLine).filterMap headerOf)).get? name =
      forwardedHeader request upstream clientIp name := by
  have hconn : toAsciiLowercase "Connection".toList = "connection".toList := by decide
  have hxff : toAsciiLowercase "x-forwarded-for".toList = "x-forwarded-for".toList := by decide
  rw [HashMap.get?_insertAll_empty, filterMap_headerOf_lines hr hauth,
    addedHeaders, List.map_append, List.map_append, lowercase_copiedHeaders hr, lastOf_cons,
    lastOf_append, lastOf_append, lastOf_lengthHeaders, lastOf_copiedHeaders]
  have hother : ∀ n : Str, n ≠ "host".toList → n ≠ "x-forwarded-for".toList →
      notCopied n = isHopByHop n := fun n h₁ h₂ => by
    rw [notCopied, beq_false_of_ne h₁, beq_false_of_ne h₂, Bool.or_false, Bool.or_false]
  rw [List.map_cons, List.map_singleton, hconn, hxff, lastOf_cons, lastOf_singleton,
    forwardedHeader, HashMap.containsKey]
  -- the names the proxy writes itself are told apart, and nothing else about them matters
  have hl₁ : "host".toList ≠ "content-length".toList := by decide
  have hl₂ : "connection".toList ≠ "content-length".toList := by decide
  have hl₃ : "x-forwarded-for".toList ≠ "content-length".toList := by decide
  have hn₁ : notCopied "host".toList = true := by decide
  have hn₂ : notCopied "connection".toList = true := by decide
  have hn₃ : notCopied "x-forwarded-for".toList = true := by decide
  have hn₄ : isHopByHop "content-length".toList = false := by decide
  have h₁₂ : "host".toList ≠ "connection".toList := by decide
  have h₁₃ : "host".toList ≠ "x-forwarded-for".toList := by decide
  have h₂₃ : "connection".toList ≠ "x-forwarded-for".toList := by decide
  generalize "host".toList = host at *
  generalize "connection".toList = connection at *
  generalize "x-forwarded-for".toList = forwarded at *
  generalize "content-length".toList = length at *
  by_cases hhost : name = host
  · simp [hhost, hl₁, hn₁, h₁₂.symm, h₁₃.symm]
  by_cases hconnection : name = connection
  · simp [hconnection, hl₂, hn₂, h₁₂.symm, h₂₃.symm]
  by_cases hforwarded : name = forwarded
  · simp [hforwarded, hl₃, hn₃, h₁₃.symm, h₂₃, h₂₃.symm]
  have hcopied := hother name hhost hforwarded
  by_cases hlength : name = length
  · subst hlength
    cases request.headers.get? name <;>
      simp [hcopied, hn₄, hhost, hconnection, hforwarded, Ne.symm hhost, Ne.symm hconnection,
        Ne.symm hforwarded]
    all_goals split <;> rfl
  · simp [hlength, hcopied, hhost, hconnection, hforwarded, Ne.symm hhost, Ne.symm hconnection,
      Ne.symm hforwarded]

/-! ### The request line -/

/-- The merged path is a word when both parts are free of white space. -/
theorem isWord_mergeUpstreamPath {basePath path : Str} (hpath : IsWord path)
    (hbase : IsWord basePath) : IsWord (mergeUpstreamPath basePath path) := by
  have hslash : IsWord ('/' :: path) := ⟨List.cons_ne_nil _ _, fun c hc => by
    rcases List.mem_cons.mp hc with rfl | hc
    · decide
    · exact hpath.2 c hc⟩
  have hincoming : IsWord (if path.head? = some '/' then path else '/' :: path) := by
    split
    · exact hpath
    · exact hslash
  rw [mergeUpstreamPath]
  generalize (if path.head? = some '/' then path else '/' :: path) = incoming at hincoming ⊢
  split
  · exact hincoming
  · split
    · exact hbase
    · refine ⟨List.append_ne_nil_of_right_ne_nil _ hincoming.1, fun c hc => ?_⟩
      rcases List.mem_append.mp hc with hc | hc
      · exact hbase.2 c hc
      · exact hincoming.2 c hc

theorem parseRequestLine_words {method path version : Str} (hm : IsWord method)
    (hp : IsWord path) (hv : IsWord version) (h1 : "HTTP/1.".toList.isPrefixOf version = true) :
    parseRequestLine (method ++ ' ' :: path ++ ' ' :: version) = .ok (method, path, version) := by
  have hspace : isWhitespace ' ' = true := by decide
  have hwords : splitWhitespace (method ++ ' ' :: path ++ ' ' :: version) =
      [method, path, version] := by
    rw [List.append_assoc, List.cons_append, splitWhitespace_append_blank hm hspace,
      splitWhitespace_append_blank hp hspace, splitWhitespace_word hv]
  rw [parseRequestLine, hwords]
  simp only [ne_eq, not_true_eq_false, if_false, if_pos h1]

/-! ### The round trip -/

/-- What an upstream taken from a URL without white space contributes. -/
theorem parse_of_clean_url {url : Str} (hurl : ∀ c ∈ url, isWhitespace c = false)
    (h : Upstream.parse url = .ok upstream) :
    IsWord upstream.basePath ∧ ∀ c ∈ upstream.authority, isWhitespace c = false := by
  obtain ⟨hhost, hbase, hhead⟩ := Upstream.parse_spec h
  refine ⟨⟨fun hnil => ?_, fun c hc => ?_⟩, fun c hc => ?_⟩
  · rw [hnil] at hhead
    cases hhead
  · rcases hbase c hc with hc | rfl
    · exact hurl c hc
    · decide
  · rw [Upstream.authority, List.mem_append, List.mem_cons] at hc
    rcases hc with hc | rfl | hc
    · exact hurl c (hhost c hc)
    · decide
    · exact (IpAddr.isGraphic_decimal hc).not_whitespace

theorem noPair_of_no_blank {s : Str} (h : ∀ c ∈ s, isWhitespace c = false) :
    NoPair '\r' '\n' s :=
  NoPair.of_not_mem fun hmem => absurd (h _ hmem) (by decide)

variable (upstream clientIp) in
/-- The declared length of what is written is the length of the body. -/
theorem parse_forwarded_length (hr : WellRead request) (hlen : request.body.length < 2 ^ 64) :
    ∃ v, forwardedHeader request upstream clientIp "content-length".toList = some v ∧
      parseUnsigned 64 v = some request.body.length := by
  have h₁ : ¬ "content-length".toList = "host".toList := by decide
  have h₂ : ¬ "content-length".toList = "connection".toList := by decide
  have h₃ : ¬ "content-length".toList = "x-forwarded-for".toList := by decide
  rw [forwardedHeader, if_neg h₁, if_neg h₂, if_neg h₃, if_pos rfl]
  split
  · exact ⟨_, rfl, parseUnsigned_decimal hlen⟩
  · next hbody =>
    have hzero : request.body.length = 0 := by rw [not_not.mp hbody]; rfl
    refine ⟨_, rfl, ?_⟩
    cases hv : request.headers.get? "content-length".toList with
    | none => rw [hzero]; decide
    | some v =>
      obtain ⟨n, hn, hparse⟩ := hr.parse_length hv
      rw [Option.getD_some, hparse, hzero, show n = 0 by omega]

variable (order clientIp) in
/-- The lines of a request that was read, for an upstream without white space. -/
theorem lines_of_clean_upstream (hr : WellRead request) (hbase : IsWord upstream.basePath)
    (hauth : ∀ c ∈ upstream.authority, isWhitespace c = false) :
    (∀ l ∈ upstreamLines order request upstream clientIp, NoPair '\r' '\n' l) ∧
      ∀ l ∈ (upstreamLines order request upstream clientIp).tail, l ≠ [] := by
  have hpath := isWord_mergeUpstreamPath hr.path hbase
  rw [upstreamLines_eq]
  constructor
  · intro l hl
    rcases List.mem_cons.mp hl with rfl | hl
    · rw [requestLine, List.append_assoc, List.cons_append,
        noPair_append_cons (by decide) (by decide), noPair_append_cons (by decide) (by decide)]
      exact ⟨noPair_of_no_blank hr.method.2, noPair_of_no_blank hpath.2,
        noPair_of_no_blank hr.version.2⟩
    rcases List.mem_cons.mp hl with rfl | hl
    · rw [hostLine_eq, noPair_headerLine_iff]
      exact ⟨hostName.2.2.1, noPair_of_no_blank hauth⟩
    · obtain ⟨e, he, rfl⟩ := List.mem_map.mp hl
      have hw := writable_of_mem_addedHeaders hr he
      exact noPair_headerLine_iff.mpr ⟨hw.name_crlf, hw.value_crlf⟩
  · intro l hl
    rcases List.mem_cons.mp hl with rfl | hl
    · exact hostLine_eq upstream ▸ headerLine_ne_nil _
    · obtain ⟨e, -, rfl⟩ := List.mem_map.mp hl
      exact headerLine_ne_nil e

variable (request upstream clientIp) in
/-- Nothing that is written says how the body is encoded. -/
theorem forwarded_transferEncoding :
    forwardedHeader request upstream clientIp "transfer-encoding".toList = none := by
  have h₁ : ¬ "transfer-encoding".toList = "host".toList := by decide
  have h₂ : ¬ "transfer-encoding".toList = "connection".toList := by decide
  have h₃ : ¬ "transfer-encoding".toList = "x-forwarded-for".toList := by decide
  have h₄ : ¬ "transfer-encoding".toList = "content-length".toList := by decide
  have h₅ : isHopByHop "transfer-encoding".toList = true := by decide
  rw [forwardedHeader, if_neg h₁, if_neg h₂, if_neg h₃, if_neg h₄, if_pos h₅]

variable (order clientIp) in
/-- The head that was written is accepted, and says what the upstream is to see. -/
theorem parseHeadLines_written (hr : WellRead request) (hlen : request.body.length < 2 ^ 64)
    (hbase : IsWord upstream.basePath)
    (hauth : ∀ c ∈ upstream.authority, isWhitespace c = false) :
    ∃ headers, (∀ name, headers.get? name = forwardedHeader request upstream clientIp name) ∧
      parseHeadLines .unbounded
          (joinPair '\r' '\n' (upstreamLines order request upstream clientIp)) =
        .ok ⟨request.method, mergeUpstreamPath upstream.basePath request.path, request.version,
          headers, request.body.length⟩ := by
  have hends : CleanEnds isWhitespace upstream.authority :=
    ⟨fun c hc => hauth c (List.mem_of_mem_head? hc), fun c hc => hauth c (List.mem_of_getLast? hc)⟩
  have hget := get?_upstreamHeaders order clientIp hr hends
  have hcrlf := (lines_of_clean_upstream order clientIp hr hbase hauth).1
  have hline : parseRequestLine (requestLine request upstream) =
      .ok (request.method, mergeUpstreamPath upstream.basePath request.path, request.version) :=
    parseRequestLine_words hr.method (isWord_mergeUpstreamPath hr.path hbase) hr.version hr.http1
  have hne : upstreamLines order request upstream clientIp ≠ [] := by simp [upstreamLines]
  have hsplit := splitPair_joinPair (show '\r' ≠ '\n' by decide) hne hcrlf
  rw [upstreamLines_eq] at hsplit ⊢
  have hcolon : ∀ l ∈ hostLine upstream :: (addedHeaders order request clientIp).map headerLine,
      l ≠ [] → ':' ∈ l := by
    intro l hl _
    rcases List.mem_cons.mp hl with rfl | hl
    · simp [hostLine_eq, headerLine_eq]
    · obtain ⟨e, -, rfl⟩ := List.mem_map.mp hl
      simp [headerLine_eq]
  refine ⟨_, hget, ?_⟩
  have hchunk : ¬ isChunked (HashMap.empty.insertAll ((hostLine upstream ::
      (addedHeaders order request clientIp).map headerLine).filterMap headerOf)) = true := by
    rw [isChunked, hget, forwarded_transferEncoding]
    exact Bool.false_ne_true
  have hcontent : contentLength (HashMap.empty.insertAll ((hostLine upstream ::
      (addedHeaders order request clientIp).map headerLine).filterMap headerOf)) =
        .ok request.body.length := by
    obtain ⟨v, hv, hparse⟩ := parse_forwarded_length upstream clientIp hr hlen
    exact (contentLength_eq_ok_iff ((hget _).trans hv)).mpr hparse
  have hcheck := (@checkHeaders_eq_ok_iff .unbounded _ _).mpr
    ⟨hchunk, hcontent, fun m hm => by cases hm⟩
  exact parseHeadLines_eq_ok_iff.mpr ⟨_, _, hsplit, hline, hcolon, rfl, hcheck⟩

/-- **Reading what was written**: for an upstream URL without white space, in any order of the
hash map and however the bytes are cut, the proxy's own parser reads the upstream request as the
client's request with the proxy's changes. -/
theorem reparse_buildUpstreamRequest {s s' : Socket} {url : Str} {out : Bytes}
    (hread : readHttpRequest .source s = .ok request)
    (hurl : ∀ c ∈ url, isWhitespace c = false) (hup : Upstream.parse url = .ok upstream)
    (hbuild : buildUpstreamRequest order request upstream clientIp = .ok out)
    (hs : s'.bytes = out) :
    ∃ request', readHttpRequest .unbounded s' = .ok request' ∧
      request'.method = request.method ∧
      request'.path = mergeUpstreamPath upstream.basePath request.path ∧
      request'.version = request.version ∧
      request'.body = request.body ∧
      (∀ name, request'.headers.get? name = forwardedHeader request upstream clientIp name) ∧
      ∃ v, request'.headers.get? "content-length".toList = some v ∧
        parseUnsigned 64 v = some request.body.length := by
  have hr := wellRead_of_read hread
  obtain ⟨hout, hlen⟩ := buildUpstreamRequest_eq_ok hbuild
  obtain ⟨hbase, hauth⟩ := parse_of_clean_url hurl hup
  obtain ⟨hcrlf, hblank⟩ := lines_of_clean_upstream order clientIp hr hbase hauth
  obtain ⟨headers, hget, hhead⟩ := parseHeadLines_written order clientIp hr hlen hbase hauth
  have hne : upstreamLines order request upstream clientIp ≠ [] := by simp [upstreamLines]
  have hpos := (findHeaderEnd_lines_iff hne hcrlf request.body).mpr hblank
  rw [← hout, ← hs] at hpos
  rcases readHttpRequest_cases .unbounded s' with
    ⟨pos, ahead, k, hpos', -, -, -, hover, hres⟩ | ⟨-, hwhy⟩
  · obtain rfl := Option.some.inj (hpos.symm.trans hpos')
    generalize joinPair '\r' '\n' (upstreamLines order request upstream clientIp) = text at *
    obtain ⟨htake, hdrop, hlength⟩ := message_parts (asBytes text) request.body
    rw [← hout, ← hs] at htake hdrop hlength
    have hbody : request.body.take (max ahead request.body.length) = request.body :=
      List.take_of_length_le (Nat.le_max_right _ _)
    rw [outcome_eq_some_iff.mpr ⟨_, text, by rw [htake, fromUtf8_asBytes], hhead,
      hlength.symm.le, rfl⟩] at hres
    rw [hdrop, hbody, toOption_eq_some_iff] at hres
    obtain ⟨v, hv, hparse⟩ := parse_forwarded_length upstream clientIp hr hlen
    exact ⟨_, hres, rfl, rfl, rfl, rfl, hget, v, (hget _).trans hv, hparse⟩
  · obtain ⟨n, -, m, hm, -⟩ := hwhy _ hpos
    cases hm

/-- `http://h/api`. -/
def apiUpstream : Upstream := ⟨['h'], 80, "/api".toList⟩

/-- `127.0.0.1`. -/
def localhost : IpAddr := .v4 127 0 0 1

theorem build_postRequest : ∃ out,
    buildUpstreamRequest .stored postRequest apiUpstream localhost = .ok out := by
  have hok : (buildUpstreamRequest .stored postRequest apiUpstream localhost).isOk = true := by
    decide +kernel
  cases hbuild : buildUpstreamRequest .stored postRequest apiUpstream localhost with
  | error e => rw [hbuild] at hok; cases hok
  | ok out => exact ⟨out, rfl⟩

/-- `postRequest` written for `apiUpstream` and read again. -/
theorem reparse_postRequest : ∃ out request',
    buildUpstreamRequest .stored postRequest apiUpstream localhost = .ok out ∧
      readHttpRequest .unbounded (.push out .closed) = .ok request' ∧
      request'.path = "/api/a".toList ∧ request'.body = asBytes ['X'] := by
  obtain ⟨out, hout⟩ := build_postRequest
  have hurl : ∀ c ∈ "http://h/api".toList, isWhitespace c = false :=
    forall_mem_of_all (by decide)
  have hbytes : (Socket.push out .closed).bytes = out :=
    (Socket.bytes_push out .closed).trans (List.append_nil out)
  obtain ⟨request', hread, -, hpath, -, hbody, -⟩ :=
    reparse_buildUpstreamRequest read_postSocket hurl rfl hout hbytes
  exact ⟨out, request', hout, hread, hpath.trans (by decide), hbody⟩

end Proxy

end Fywaf
