import Fywaf.Proxy.EndToEnd

/-!
# A chain of proxies

The upstream of a proxy may be a proxy again. What has been proved of one hop is then proved of
any number of them: each reads what the one before it has written, and after the last one the
request is still that of the client, with the base paths in front of its target and the address of
every hop's client in the forwarding chain.

## Main definitions

* `Proxy.Hop`, `Proxy.Passes` — a request goes through proxies, one after the other
* `Proxy.addressesBefore` — the forwarding chain that a request comes with
* `Proxy.Arrives` — what is left of a request behind the proxies

## Main results

* `Proxy.read_unbounded` — a limit refuses requests, and changes none
* `Proxy.arrives_of_passes` — what arrives behind any number of proxies
-/

namespace Fywaf

namespace Proxy

/-! ### Limits -/

section Limits

variable {limits : Limits}

theorem headerLoop_unbounded {fuel : ℕ} {buffer : Bytes} {stream : Socket} {r : Bytes × ℕ × Socket}
    (h : headerLoop limits fuel buffer stream = .ok r) :
    headerLoop .unbounded fuel buffer stream = .ok r := by
  induction fuel generalizing buffer stream with
  | zero => cases h
  | succ fuel ih =>
    rw [headerLoop] at h ⊢
    have hnone : overLimit Limits.unbounded.header .headersTooLarge buffer.length = none := rfl
    rw [hnone]
    split at h
    · cases h
    · split at h
      · cases h
      · next chunk rest hread =>
        split at h
        · cases h
        · next hchunk =>
          rw [if_neg hchunk]
          split at h
          · exact h
          · exact ih h

theorem checkHeaders_unbounded {headers : HashMap Str Str} {n : ℕ}
    (h : checkHeaders limits headers = .ok n) : checkHeaders .unbounded headers = .ok n := by
  obtain ⟨hchunked, hlen, -⟩ := checkHeaders_eq_ok_iff.mp h
  exact checkHeaders_eq_ok_iff.mpr ⟨hchunked, hlen, fun m hm => by cases hm⟩

theorem parseHeadLines_unbounded {text : Str} {head : RequestHead}
    (h : parseHeadLines limits text = .ok head) : parseHeadLines .unbounded text = .ok head := by
  obtain ⟨line, lines, hsplit, hline, hcolon, hheaders, hcheck⟩ := parseHeadLines_eq_ok_iff.mp h
  exact parseHeadLines_eq_ok_iff.mpr ⟨line, lines, hsplit, hline, hcolon, hheaders,
    checkHeaders_unbounded hcheck⟩

/-- **A limit refuses requests, and changes none.** -/
theorem read_unbounded {s : Socket} {request : HttpRequest}
    (h : readHttpRequest limits s = .ok request) :
    readHttpRequest .unbounded s = .ok request := by
  rw [readHttpRequest, readHeader] at h ⊢
  cases hloop : headerLoop limits (s.bytes.length + 1) [] s with
  | error e =>
    rw [hloop] at h
    cases h
  | ok r =>
    rw [hloop] at h
    rw [headerLoop_unbounded hloop]
    dsimp only at h ⊢
    cases hutf8 : fromUtf8 (r.1.take r.2.1) with
    | none =>
      rw [parseHead, hutf8] at h
      cases h
    | some text =>
      rw [parseHead, hutf8] at h ⊢
      dsimp only at h ⊢
      cases hhead : parseHeadLines limits text with
      | error e =>
        rw [hhead] at h
        cases h
      | ok head =>
        rw [hhead] at h
        rw [parseHeadLines_unbounded hhead]
        exact h

end Limits

/-! ### Hops -/

/-- A proxy on the way: where it sends requests to, the address it sees its client at, and the
order of its hash map. -/
structure Hop where
  url : Str
  upstream : Upstream
  clientIp : IpAddr
  order : HashOrder Str Str
  parsed : Upstream.parse url = .ok upstream
  clean : ∀ c ∈ url, isWhitespace c = false

/-- A request goes through proxies: each of them writes it for the next, which reads what was
written, however it is cut. -/
inductive Passes : HttpRequest → List Hop → HttpRequest → Prop
  | nil {request : HttpRequest} : Passes request [] request
  | cons {request next last : HttpRequest} {hop : Hop} {hops : List Hop} {out : Bytes} {s : Socket}
    (hbuild : buildUpstreamRequest hop.order request hop.upstream hop.clientIp = .ok out)
    (hbytes : s.bytes = out) (hread : readHttpRequest .source s = .ok next)
    (hrest : Passes next hops last) : Passes request (hop :: hops) last

/-- One hop: what is read of a request that was written for an upstream, within any limits. -/
theorem read_written {limits : Limits} {order : HashOrder Str Str} {request next : HttpRequest}
    {upstream : Upstream} {clientIp : IpAddr} {s₀ s : Socket} {url : Str} {out : Bytes}
    (hread₀ : readHttpRequest .source s₀ = .ok request)
    (hurl : ∀ c ∈ url, isWhitespace c = false) (hup : Upstream.parse url = .ok upstream)
    (hbuild : buildUpstreamRequest order request upstream clientIp = .ok out)
    (hbytes : s.bytes = out) (hread : readHttpRequest limits s = .ok next) :
    next.method = request.method ∧
      next.path = mergeUpstreamPath upstream.basePath request.path ∧
      next.version = request.version ∧ next.body = request.body ∧
      ∀ name, next.headers.get? name = forwardedHeader request upstream clientIp name := by
  have hr := wellRead_of_read hread₀
  obtain ⟨hout, hlen⟩ := buildUpstreamRequest_eq_ok hbuild
  obtain ⟨hbase, hauth⟩ := parse_of_clean_url hurl hup
  obtain ⟨hcrlf, hblank⟩ := lines_of_clean_upstream order clientIp hr hbase hauth
  obtain ⟨headers, hget, hhead⟩ := parseHeadLines_written order clientIp hr hlen hbase hauth
  have hne : upstreamLines order request upstream clientIp ≠ [] := by simp [upstreamLines]
  have hpos := (findHeaderEnd_lines_iff hne hcrlf request.body).mpr hblank
  rw [← hout, ← hbytes] at hpos
  -- the reader stops where the lines end, and finds the head that was written there
  rcases readHttpRequest_cases .unbounded s with
    ⟨pos, ahead, k, hpos', -, -, -, -, hres⟩ | ⟨hnone, -⟩
  · rw [read_unbounded hread] at hres
    obtain ⟨head, text, htext, hhead', -, rfl⟩ := outcome_eq_some_iff.mp hres.symm
    obtain rfl := Option.some.inj (hpos.symm.trans hpos')
    generalize joinPair '\r' '\n' (upstreamLines order request upstream clientIp) = lines at *
    obtain ⟨htake, hdrop, -⟩ := message_parts (asBytes lines) request.body
    rw [← hout, ← hbytes] at htake hdrop
    rw [htake, fromUtf8_asBytes] at htext
    obtain rfl := Option.some.inj htext
    obtain rfl := Except.ok.inj (hhead.symm.trans hhead')
    refine ⟨rfl, rfl, rfl, ?_, hget⟩
    dsimp only
    rw [hdrop, List.take_of_length_le (Nat.le_max_right _ _)]
  · rw [read_unbounded hread] at hnone
    cases hnone

/-! ### Headers -/

/-- The forwarding chain that a request comes with, when it is not empty. -/
def addressesBefore (request : HttpRequest) : List Str :=
  ((request.headers.get? "x-forwarded-for".toList).filter (· ≠ [])).toList

/-- The chain gets one more address. -/
theorem forwardedFor_eq (request : HttpRequest) (clientIp : IpAddr) :
    forwardedFor request clientIp =
      ", ".toList.intercalate (addressesBefore request ++ [clientIp.display]) := by
  rw [forwardedFor, addressesBefore]
  cases request.headers.get? "x-forwarded-for".toList with
  | none => exact List.intercalate_singleton.symm
  | some existing =>
    by_cases h : existing = []
    · rw [h]
      exact List.intercalate_singleton.symm
    · rw [Option.filter_some_pos (by simpa using h)]
      simp only [ne_eq, h, not_false_eq_true, if_true, Option.toList_some, List.singleton_append,
        List.intercalate_cons_cons, List.intercalate_singleton, List.append_assoc]

theorem forwardedFor_ne_nil (request : HttpRequest) (clientIp : IpAddr) :
    forwardedFor request clientIp ≠ [] := by
  rw [forwardedFor]
  have hdisplay := clientIp.display_ne_nil
  split
  · split
    · exact List.append_ne_nil_of_right_ne_nil _ hdisplay
    · exact hdisplay
  · exact hdisplay

section Joined

variable {sep : Str}

theorem intercalate_append_cons (a b : Str) (rest : List Str) :
    sep.intercalate ((a ++ b) :: rest) = a ++ sep.intercalate (b :: rest) := by
  cases rest with
  | nil => rw [List.intercalate_singleton, List.intercalate_singleton]
  | cons c rest =>
    rw [List.intercalate_cons_cons, List.intercalate_cons_cons, List.append_assoc,
      List.append_assoc, List.append_assoc]

/-- What was joined before can be joined again. -/
theorem intercalate_intercalate {rest : List Str} : ∀ {first : List Str}, first ≠ [] →
    sep.intercalate (sep.intercalate first :: rest) = sep.intercalate (first ++ rest)
  | [], h => absurd rfl h
  | [a], _ => by rw [List.intercalate_singleton, List.singleton_append]
  | a :: b :: first, _ => by
    rw [List.intercalate_cons_cons, List.append_assoc, intercalate_append_cons,
      intercalate_append_cons, intercalate_intercalate (List.cons_ne_nil b first)]
    simp only [List.cons_append, List.intercalate_cons_cons, List.append_assoc]

end Joined

/-- What is left of a request behind the proxies. -/
structure Arrives (request : HttpRequest) (hops : List Hop) (last : HttpRequest) : Prop where
  method : last.method = request.method
  /-- The base paths are put in front, one after the other. -/
  path : last.path =
    hops.foldl (fun path hop => mergeUpstreamPath hop.upstream.basePath path) request.path
  version : last.version = request.version
  body : last.body = request.body
  /-- End-to-end headers are unchanged, and none comes in. -/
  endToEnd : ∀ name, EndToEnd name → last.headers.get? name = request.headers.get? name
  /-- The addresses of the clients are in the chain, that of the first one in front. -/
  chain : hops ≠ [] → last.headers.get? "x-forwarded-for".toList =
    some (", ".toList.intercalate
      (addressesBefore request ++ hops.map fun hop => hop.clientIp.display))
  /-- The host is that of the last upstream. -/
  host : ∀ hop ∈ hops.getLast?, last.headers.get? "host".toList = some hop.upstream.authority

/-- An end-to-end header is not one that the proxy writes. -/
theorem forwardedHeader_of_endToEnd {request : HttpRequest} {upstream : Upstream}
    {clientIp : IpAddr} {name : Str} (h : EndToEnd name) :
    forwardedHeader request upstream clientIp name = request.headers.get? name := by
  have hhop : isHopByHop name = false := by
    have := h.1
    rw [notCopied, Bool.or_eq_false_iff, Bool.or_eq_false_iff] at this
    exact this.1.1
  have hown : ∀ own : String, notCopied own.toList = true → ¬ name = own.toList := by
    rintro own hnot rfl
    exact Bool.false_ne_true (h.1.symm.trans hnot)
  rw [forwardedHeader, if_neg (hown "host" (by decide)), if_neg (hown "connection" (by decide)),
    if_neg (hown "x-forwarded-for" (by decide)), if_neg h.2, hhop]
  rfl

/-- **What arrives behind any number of proxies.** -/
theorem arrives_of_passes {request last : HttpRequest} {hops : List Hop} {s : Socket}
    (hread : readHttpRequest .source s = .ok request) (h : Passes request hops last) :
    Arrives request hops last := by
  induction h generalizing s with
  | nil =>
    exact ⟨rfl, rfl, rfl, rfl, fun _ _ => rfl, fun hne => absurd rfl hne,
      fun hop hmem => by cases hmem⟩
  | @cons request next last hop hops out s' hbuild hbytes hread' hrest ih =>
    obtain ⟨hmethod, hpath, hversion, hbody, hheaders⟩ :=
      read_written hread hop.clean hop.parsed hbuild hbytes hread'
    have hchain : next.headers.get? "x-forwarded-for".toList =
        some (forwardedFor request hop.clientIp) := by
      rw [hheaders, forwardedHeader, if_neg (by decide), if_neg (by decide), if_pos rfl]
    have hhost : next.headers.get? "host".toList = some hop.upstream.authority := by
      rw [hheaders, forwardedHeader, if_pos rfl]
    have hbefore : addressesBefore next = [forwardedFor request hop.clientIp] := by
      rw [addressesBefore, hchain,
        Option.filter_some_pos (by simpa using forwardedFor_ne_nil request hop.clientIp)]
      rfl
    have harrives := ih hread'
    constructor
    · exact harrives.method.trans hmethod
    · rw [harrives.path, hpath, List.foldl_cons]
    · exact harrives.version.trans hversion
    · exact harrives.body.trans hbody
    · intro name hname
      rw [harrives.endToEnd name hname, hheaders, forwardedHeader_of_endToEnd hname]
    · intro _
      have hjoined : ", ".toList.intercalate
          (addressesBefore next ++ hops.map fun hop => hop.clientIp.display) =
          ", ".toList.intercalate
            (addressesBefore request ++ (hop :: hops).map fun hop => hop.clientIp.display) := by
        rw [hbefore, forwardedFor_eq, List.singleton_append,
          intercalate_intercalate (List.append_ne_nil_of_right_ne_nil _ (List.cons_ne_nil _ _)),
          List.append_assoc]
        rfl
      cases hrest with
      | nil =>
        rw [hchain, ← hjoined, hbefore]
        exact congrArg some List.intercalate_singleton.symm
      | cons => rw [harrives.chain (List.cons_ne_nil _ _), hjoined]
    · intro lastHop hmem
      cases hrest with
      | nil =>
        obtain rfl : hop = lastHop := Option.some.inj hmem
        exact hhost
      | cons => exact harrives.host lastHop (by rwa [List.getLast?_cons_cons] at hmem)

/-! ### Two hops -/

/-- A proxy in front of `http://h/api`. -/
def apiHop (clientIp : IpAddr) : Hop where
  url := "http://h/api".toList
  upstream := apiUpstream
  clientIp := clientIp
  order := .stored
  parsed := rfl
  clean := forall_mem_of_all (by decide)

/-- What a proxy behind `hop` reads of a request. -/
def nextRequest (hop : Hop) (request : HttpRequest) : Option HttpRequest :=
  (buildUpstreamRequest hop.order request hop.upstream hop.clientIp).toOption.bind fun out =>
    (readHttpRequest .source (.push out .closed)).toOption

theorem passes_of_nextRequest {request next last : HttpRequest} {hop : Hop} {hops : List Hop}
    (h : nextRequest hop request = some next) (hrest : Passes next hops last) :
    Passes request (hop :: hops) last := by
  obtain ⟨out, hout, hnext⟩ := Option.bind_eq_some_iff.mp h
  exact .cons (toOption_eq_some_iff.mp hout)
    ((Socket.bytes_push out .closed).trans (List.append_nil out))
    (toOption_eq_some_iff.mp hnext) hrest

/-- `postRequest` behind two proxies. -/
theorem arrives_postRequest : ∃ last,
    Arrives postRequest [apiHop localhost, apiHop (.v4 10 0 0 1)] last ∧
      last.path = "/api/api/a".toList ∧
      last.headers.get? "x-forwarded-for".toList = some "127.0.0.1, 10.0.0.1".toList := by
  have hsome : ((nextRequest (apiHop localhost) postRequest).bind
      (nextRequest (apiHop (.v4 10 0 0 1)))).isSome = true := by
    decide +kernel
  obtain ⟨last, hlast⟩ := Option.isSome_iff_exists.mp hsome
  obtain ⟨next, hnext, hlast⟩ := Option.bind_eq_some_iff.mp hlast
  have harrives := arrives_of_passes read_postSocket
    (passes_of_nextRequest hnext (passes_of_nextRequest hlast .nil))
  refine ⟨last, harrives, harrives.path.trans (by decide), ?_⟩
  exact (harrives.chain (List.cons_ne_nil _ _)).trans (by decide)

end Proxy

end Fywaf
