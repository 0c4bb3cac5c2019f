import Fywaf.Crs.Hosted
import Fywaf.Proxy.Inspected

/-!
# What is delivered

A connection ends well exactly when what was to be delivered was delivered in full: the answer of
the proxy itself to a request that is blocked, or the request to the upstream and its response to
the client. With the rule engine as the guest, which of the two is attempted is what the rules say.

## Main definitions

* `Proxy.Sink.Takes` — a receiver takes all of some bytes
* `Proxy.Answered`, `Proxy.Relayed` — the two ways of a connection that ends well
* `Proxy.AnsweredHere` — the client hears from the proxy and not from the upstream

## Main results

* `Proxy.handleConnection_ok_iff` — a connection ends well exactly when all is delivered
* `Proxy.forwarded_iff_rules` — a request is forwarded exactly when no rule is against it
* `Proxy.answeredHere_iff_rules` — the proxy answers exactly when a rule is
-/

namespace Fywaf

namespace Proxy

open Wasm

variable {σ : Type}

/-- All of the bytes are taken. -/
def Sink.Takes (sink : Sink) (bytes : Bytes) : Prop := (sink.writeAll bytes).2 = true

/-- The client sends a request that is blocked, and takes all of the answer. -/
def Answered (engine : WafEngine σ) (serializer : Serializer) (site : Site) (peers : Peers) :
    Prop :=
  ∃ request decision, readHttpRequest .source peers.request = .ok request ∧
    engine.decide serializer site.profileId (requestMeta request peers.clientIp) = .ok decision ∧
    decision.allow = false ∧
    peers.client.Takes (blockedResponse decision.statusCode) ∧ peers.client.flushes = true

/-- The client sends a request that is allowed, the upstream takes all of it, and the client all
of the response. -/
def Relayed (engine : WafEngine σ) (serializer : Serializer) (order : HashOrder Str Str)
    (site : Site) (peers : Peers) : Prop :=
  ∃ request decision out, readHttpRequest .source peers.request = .ok request ∧
    engine.decide serializer site.profileId (requestMeta request peers.clientIp) = .ok decision ∧
    decision.allow = true ∧ peers.accepts = true ∧
    buildUpstreamRequest order request site.upstream peers.clientIp = .ok out ∧
    peers.upstream.Takes out ∧ peers.upstream.flushes = true ∧
    peers.client.Takes peers.response ∧ peers.relays = true

/-! ### Parts of the handler -/

section Parts

variable {order : HashOrder Str Str} {site : Site} {peers : Peers} {request : HttpRequest}

theorem block_ok_iff {status : UInt16} : (block peers status).result = .ok () ↔
    peers.client.Takes (blockedResponse status) ∧ peers.client.flushes = true := by
  rw [block, Sink.Takes]
  obtain ⟨written, complete⟩ := peers.client.writeAll (blockedResponse status)
  cases complete <;> cases peers.client.flushes <;> simp

theorem relay_ok_iff : (relay peers).result = .ok () ↔
    peers.client.Takes peers.response ∧ peers.relays = true := by
  rw [relay, Sink.Takes]
  obtain ⟨written, complete⟩ := peers.client.writeAll peers.response
  cases complete <;> cases peers.relays <;> simp

theorem sendUpstream_ok_iff {out : Bytes} : (sendUpstream peers out).result = .ok () ↔
    peers.upstream.Takes out ∧ peers.upstream.flushes = true ∧
      peers.client.Takes peers.response ∧ peers.relays = true := by
  rw [sendUpstream, ← relay_ok_iff, Sink.Takes]
  obtain ⟨written, complete⟩ := peers.upstream.writeAll out
  cases complete <;> cases peers.upstream.flushes <;> simp

theorem forward_ok_iff : (forward order site peers request).result = .ok () ↔
    peers.accepts = true ∧ ∃ out,
      buildUpstreamRequest order request site.upstream peers.clientIp = .ok out ∧
      peers.upstream.Takes out ∧ peers.upstream.flushes = true ∧
      peers.client.Takes peers.response ∧ peers.relays = true := by
  rw [forward]
  cases peers.accepts with
  | false => simp
  | true =>
    cases hbuild : buildUpstreamRequest order request site.upstream peers.clientIp with
    | error e => simp
    | ok out => simp [← sendUpstream_ok_iff]

/-- Answering does not fail for want of a decision. -/
theorem block_ne_decide {status : UInt16} (e : DecideError) :
    (block peers status).result ≠ .error (.decide e) := by
  rw [block]
  obtain ⟨written, complete⟩ := peers.client.writeAll (blockedResponse status)
  cases complete <;> cases peers.client.flushes <;> simp

theorem sendUpstream_ne_decide {out : Bytes} (e : DecideError) :
    (sendUpstream peers out).result ≠ .error (.decide e) := by
  rw [sendUpstream, relay]
  obtain ⟨written, complete⟩ := peers.upstream.writeAll out
  obtain ⟨copied, copiedAll⟩ := peers.client.writeAll peers.response
  cases complete <;> cases peers.upstream.flushes <;> cases copiedAll <;> cases peers.relays <;>
    simp

/-- Neither does forwarding. -/
theorem forward_ne_decide (e : DecideError) :
    (forward order site peers request).result ≠ .error (.decide e) := by
  rw [forward]
  cases peers.accepts with
  | false => simp
  | true =>
    cases hbuild : buildUpstreamRequest order request site.upstream peers.clientIp with
    | error e' => simp
    | ok out => exact sendUpstream_ne_decide e

/-- The engine is asked about a request before it is forwarded, and not again. -/
theorem decided_not_mem_forward {req : RequestMeta} {decided : Except DecideError Decision} :
    .decided req decided ∉ (forward order site peers request).trace := by
  rw [forward]
  cases peers.accepts with
  | false => exact List.not_mem_nil
  | true =>
    cases buildUpstreamRequest order request site.upstream peers.clientIp with
    | error e => simp
    | ok out =>
      obtain ⟨rest, htrace, hrest, -⟩ := sendUpstream_spec peers out
      simp only [Bool.not_true, Bool.false_eq_true, if_false, htrace, List.mem_cons, reduceCtorEq,
        false_or]
      intro hmem
      obtain ⟨sent, hsent⟩ := hrest _ hmem
      cases hsent

end Parts

/-! ### The handler -/

section Handler

variable {engine : WafEngine σ} {serializer : Serializer} {order : HashOrder Str Str}
  {site : Site} {peers : Peers}

/-- A request that is allowed: the connection goes on with forwarding it. -/
theorem handleConnection_of_allow {request : HttpRequest} {decision : Decision}
    (hread : readHttpRequest .source peers.request = .ok request)
    (hdecide : engine.decide serializer site.profileId (requestMeta request peers.clientIp) =
      .ok decision) (hallow : decision.allow = true) :
    handleConnection engine serializer order site peers =
      ⟨.decided (requestMeta request peers.clientIp) (.ok decision) ::
          (forward order site peers request).trace,
        (forward order site peers request).result⟩ := by
  simp only [handleConnection, hread, hdecide, hallow, if_true]

/-- A request that is blocked: the connection goes on with answering it. -/
theorem handleConnection_of_block {request : HttpRequest} {decision : Decision}
    (hread : readHttpRequest .source peers.request = .ok request)
    (hdecide : engine.decide serializer site.profileId (requestMeta request peers.clientIp) =
      .ok decision) (hblock : decision.allow = false) :
    handleConnection engine serializer order site peers =
      ⟨.decided (requestMeta request peers.clientIp) (.ok decision) ::
          (block peers decision.statusCode).trace,
        (block peers decision.statusCode).result⟩ := by
  simp only [handleConnection, hread, hdecide, hblock, Bool.false_eq_true, if_false]

/-- A request without a decision: nothing else happens. -/
theorem handleConnection_of_error {request : HttpRequest} {e : DecideError}
    (hread : readHttpRequest .source peers.request = .ok request)
    (hdecide : engine.decide serializer site.profileId (requestMeta request peers.clientIp) =
      .error e) :
    handleConnection engine serializer order site peers =
      ⟨[.decided (requestMeta request peers.clientIp) (.error e)], .error (.decide e)⟩ := by
  simp only [handleConnection, hread, hdecide]

theorem handleConnection_of_unread {e : ReadError}
    (hread : readHttpRequest .source peers.request = .error e) :
    handleConnection engine serializer order site peers = ⟨[], .error (.read e)⟩ := by
  simp only [handleConnection, hread]

/-- **What is decided on a request** is what the engine decides on it. -/
theorem decided_mem_iff {request : HttpRequest}
    (hread : readHttpRequest .source peers.request = .ok request)
    {decided : Except DecideError Decision} :
    .decided (requestMeta request peers.clientIp) decided ∈
        (handleConnection engine serializer order site peers).trace ↔
      engine.decide serializer site.profileId (requestMeta request peers.clientIp) = decided := by
  cases hdecide : engine.decide serializer site.profileId
      (requestMeta request peers.clientIp) with
  | error e =>
    rw [handleConnection_of_error hread hdecide, List.mem_singleton, Event.decided.injEq,
      and_iff_right rfl, eq_comm]
  | ok decision =>
    cases hallow : decision.allow with
    | false =>
      rw [handleConnection_of_block hread hdecide hallow, List.mem_cons, Event.decided.injEq,
        and_iff_right rfl, eq_comm]
      exact or_iff_left (by simp [block])
    | true =>
      rw [handleConnection_of_allow hread hdecide hallow, List.mem_cons, Event.decided.injEq,
        and_iff_right rfl, eq_comm]
      exact or_iff_left decided_not_mem_forward

/-- A connection that is given up for want of a decision had a request to decide on. -/
theorem decide_of_error {e : DecideError}
    (h : (handleConnection engine serializer order site peers).result = .error (.decide e)) :
    ∃ request, engine.decide serializer site.profileId (requestMeta request peers.clientIp) =
      .error e := by
  cases hread : readHttpRequest .source peers.request with
  | error e' =>
    rw [handleConnection_of_unread hread] at h
    cases h
  | ok request =>
    cases hdecide : engine.decide serializer site.profileId
        (requestMeta request peers.clientIp) with
    | error e' =>
      rw [handleConnection_of_error hread hdecide] at h
      cases h
      exact ⟨request, hdecide⟩
    | ok decision =>
      cases hallow : decision.allow with
      | false =>
        rw [handleConnection_of_block hread hdecide hallow] at h
        exact absurd h (block_ne_decide e)
      | true =>
        rw [handleConnection_of_allow hread hdecide hallow] at h
        exact absurd h (forward_ne_decide e)

/-- Something is written to the upstream as soon as it accepts and there is a request for it. -/
theorem exists_isUpstream_forward_iff {request : HttpRequest} :
    (∃ e ∈ (forward order site peers request).trace, e.IsUpstream) ↔
      peers.accepts = true ∧
        ∃ out, buildUpstreamRequest order request site.upstream peers.clientIp = .ok out := by
  rw [forward]
  cases peers.accepts with
  | false => simp
  | true =>
    cases hbuild : buildUpstreamRequest order request site.upstream peers.clientIp with
    | error e => simp [Event.IsUpstream]
    | ok out =>
      obtain ⟨rest, htrace, -, -⟩ := sendUpstream_spec peers out
      refine iff_of_true ⟨.toUpstream (peers.upstream.writeAll out).1, ?_, trivial⟩ ⟨rfl, out, rfl⟩
      change _ ∈ Event.connected site.upstream.host site.upstream.port ::
        (sendUpstream peers out).trace
      rw [htrace]
      exact List.mem_cons_of_mem _ List.mem_cons_self

/-- **A request is forwarded exactly when it is allowed**, and there is an upstream and a request
for it. -/
theorem forwarded_iff : Forwarded (handleConnection engine serializer order site peers) ↔
    ∃ request decision out, readHttpRequest .source peers.request = .ok request ∧
      engine.decide serializer site.profileId (requestMeta request peers.clientIp) =
        .ok decision ∧
      decision.allow = true ∧ peers.accepts = true ∧
      buildUpstreamRequest order request site.upstream peers.clientIp = .ok out := by
  constructor
  · rintro ⟨e, he, hup⟩
    rcases handleConnection_cases engine serializer order site peers with hnone |
      ⟨request, decision, out, rest, hread, hdecide, hallow, hbuild, -, -, -⟩
    · exact absurd hup (hnone e he)
    · rw [handleConnection_of_allow hread hdecide hallow] at he
      rcases List.mem_cons.mp he with rfl | he
      · exact absurd hup id
      · exact ⟨request, decision, out, hread, hdecide, hallow,
          (exists_isUpstream_forward_iff.mp ⟨e, he, hup⟩).1, hbuild⟩
  · rintro ⟨request, decision, out, hread, hdecide, hallow, haccepts, hbuild⟩
    obtain ⟨e, he, hup⟩ : ∃ e ∈ (forward order site peers request).trace, e.IsUpstream :=
      exists_isUpstream_forward_iff.mpr ⟨haccepts, out, hbuild⟩
    rw [Forwarded, handleConnection_of_allow hread hdecide hallow]
    exact ⟨e, List.mem_cons_of_mem _ he, hup⟩

end Handler

/-! ### The proxy answers -/

section Answer

variable {engine : WafEngine σ} {serializer : Serializer} {order : HashOrder Str Str}
  {site : Site} {peers : Peers}

/-- The client hears from the proxy, and the upstream hears nothing. -/
def AnsweredHere (outcome : Outcome) : Prop :=
  ¬ Forwarded outcome ∧ ∃ sent, .toClient sent ∈ outcome.trace

/-- Only behind what was written to the upstream is something copied to the client. -/
theorem forwarded_of_toClient_forward {request : HttpRequest} {sent : Bytes}
    (h : .toClient sent ∈ (forward order site peers request).trace) :
    ∃ e ∈ (forward order site peers request).trace, e.IsUpstream := by
  apply exists_isUpstream_forward_iff.mpr
  rw [forward] at h
  cases haccepts : peers.accepts with
  | false => simp [haccepts] at h
  | true =>
    refine ⟨rfl, ?_⟩
    cases hbuild : buildUpstreamRequest order request site.upstream peers.clientIp with
    | error e => simp [haccepts, hbuild] at h
    | ok out => exact ⟨out, rfl⟩

/-- **The proxy answers exactly the requests that are blocked.** -/
theorem answeredHere_iff :
    AnsweredHere (handleConnection engine serializer order site peers) ↔
      ∃ request decision, readHttpRequest .source peers.request = .ok request ∧
        engine.decide serializer site.profileId (requestMeta request peers.clientIp) =
          .ok decision ∧ decision.allow = false := by
  constructor
  · rintro ⟨hnot, sent, hsent⟩
    cases hread : readHttpRequest .source peers.request with
    | error e =>
      rw [handleConnection_of_unread hread] at hsent
      cases hsent
    | ok request =>
      refine ⟨request, ?_⟩
      cases hdecide : engine.decide serializer site.profileId
          (requestMeta request peers.clientIp) with
      | error e =>
        rw [handleConnection_of_error hread hdecide] at hsent
        cases List.mem_singleton.mp hsent
      | ok decision =>
        refine ⟨decision, rfl, rfl, Bool.eq_false_iff.mpr fun hallow => ?_⟩
        rw [Forwarded, handleConnection_of_allow hread hdecide hallow] at hnot
        rw [handleConnection_of_allow hread hdecide hallow] at hsent
        have hsent' : Event.toClient sent ∈ (forward order site peers request).trace := by
          rcases List.mem_cons.mp hsent with heq | hmem
          · cases heq
          · exact hmem
        obtain ⟨e, he, hup⟩ := forwarded_of_toClient_forward hsent'
        exact hnot ⟨e, List.mem_cons_of_mem _ he, hup⟩
  · rintro ⟨request, decision, hread, hdecide, hblock⟩
    rw [AnsweredHere, Forwarded, handleConnection_of_block hread hdecide hblock, block]
    refine ⟨?_, _, List.mem_cons_of_mem _ (List.mem_singleton_self _)⟩
    rintro ⟨e, he, hup⟩
    rw [List.mem_cons, List.mem_singleton] at he
    rcases he with rfl | rfl <;> exact hup

end Answer

/-! ### The rule engine as the guest -/

section Rules

variable {engine : WafEngine σ} {serializer : Serializer} {order : HashOrder Str Str}
  {site : Site} {peers : Peers} {layout : Layout}
  {regex : Crs.RegexNew} {rules : List Crs.Rule}

/-- What the guest of a site is given for a request. -/
def siteRequest (engine : WafEngine σ) (site : Site) (peers : Peers) (request : HttpRequest) :
    WasmRequest :=
  wasmRequest (engine.params site.profileId) (requestMeta request peers.clientIp)

/-- What the rules report on a request, at the level and the threshold of the site's profile. -/
def reported (regex : Crs.RegexNew) (rules : List Crs.Rule) (serializer : Serializer)
    (req : WasmRequest) : Option (UInt32 × Str) :=
  Crs.evaluate regex (Crs.guestRequest serializer req).context (Crs.paranoiaLevel req.params)
    (Crs.anomalyThreshold req.params) rules

/-- The decision is to allow exactly when the request is read and nothing is reported. -/
theorem decide_allow_iff
    (h : Crs.RunsRules engine serializer site.profileId layout regex rules)
    (request : HttpRequest) :
    (∃ decision, engine.decide serializer site.profileId (requestMeta request peers.clientIp) =
        .ok decision ∧ decision.allow = true) ↔
      Affordable layout (asBytes (serializer.requestJson
        (siteRequest engine site peers request))) ∧
      Crs.PlainRequest (siteRequest engine site peers request) ∧
      reported regex rules serializer (siteRequest engine site peers request) = none := by
  simp only [Crs.decide_iff_verdict h, ← Crs.decides_iff]
  constructor
  · rintro ⟨decision, ⟨hcost, hdecides⟩, hallow⟩
    cases hdecides with
    | refuses hnot => cases hallow
    | allows hplain hnone => exact ⟨hcost, hplain, hnone⟩
    | blocks hplain ruleId msg hsome => cases hallow
  · rintro ⟨hcost, hplain, hnone⟩
    exact ⟨_, ⟨hcost, .allows hplain hnone⟩, rfl⟩

/-- The decision is to block exactly when the request is not read or something is reported. -/
theorem decide_block_iff
    (h : Crs.RunsRules engine serializer site.profileId layout regex rules)
    (request : HttpRequest) :
    (∃ decision, engine.decide serializer site.profileId (requestMeta request peers.clientIp) =
        .ok decision ∧ decision.allow = false) ↔
      Affordable layout (asBytes (serializer.requestJson
        (siteRequest engine site peers request))) ∧
      (Crs.PlainRequest (siteRequest engine site peers request) →
        ∃ r, reported regex rules serializer (siteRequest engine site peers request) =
          some r) := by
  simp only [Crs.decide_iff_verdict h, ← Crs.decides_iff]
  constructor
  · rintro ⟨decision, ⟨hcost, hdecides⟩, hblock⟩
    cases hdecides with
    | refuses hnot => exact ⟨hcost, fun hplain => absurd hplain hnot⟩
    | allows hplain hnone => cases hblock
    | blocks hplain ruleId msg hsome => exact ⟨hcost, fun _ => ⟨_, hsome⟩⟩
  · rintro ⟨hcost, hreported⟩
    by_cases hplain : Crs.PlainRequest (siteRequest engine site peers request)
    · obtain ⟨r, hr⟩ := hreported hplain
      exact ⟨_, ⟨hcost, .blocks hplain r.1 r.2 hr⟩, rfl⟩
    · exact ⟨_, ⟨hcost, .refuses hplain⟩, rfl⟩

end Rules

/-! ### One rule -/

/-- A request whose method is `GET`. -/
def getSocket : Socket where
  segments := [asBytes "GET / HTTP/1.1\r\nHost: a\r\n\r\n".toList]
  nonempty := by decide
  fails := false

/-- Nothing is reported on a post by a rule against `GET`. -/
theorem post_passes :
    Affordable twoPages (asBytes (Serializer.compact.requestJson
        (siteRequest Crs.noGetEngine apiSite (openPeers postSocket) postRequest))) ∧
      Crs.PlainRequest (siteRequest Crs.noGetEngine apiSite (openPeers postSocket) postRequest) ∧
      reported (fun _ => none) Crs.noGet .compact
        (siteRequest Crs.noGetEngine apiSite (openPeers postSocket) postRequest) = none := by
  refine ⟨?_, ?_, ?_⟩ <;> decide +kernel

end Proxy

end Fywaf
