import Fywaf.Proxy.Gate

/-!
# What is inspected and what is forwarded

The engine is given the body as text, the upstream gets it as bytes. A body that is not UTF-8 is
left out of what the engine is given, and forwarded all the same.

## Main definitions

* `Proxy.Inspected` — the body that is forwarded is the body the engine was given

## Main results

* `Proxy.inspected_iff` — exactly when a forwarded body was inspected
-/

namespace Fywaf

namespace Proxy

open Wasm

variable {σ : Type}

/-- Bytes are written to the upstream in a run. -/
def Forwarded (outcome : Outcome) : Prop := ∃ e ∈ outcome.trace, e.IsUpstream

/-- The engine is asked in a run, and whenever it is asked it is given a body, whose bytes are
those that stand behind the blank line of the upstream request. -/
def Inspected (order : HashOrder Str Str) (site : Site) (peers : Peers) (request : HttpRequest)
    (outcome : Outcome) : Prop :=
  (∃ req decision, .decided req decision ∈ outcome.trace) ∧
    ∀ req decision, .decided req decision ∈ outcome.trace →
      ∃ b, req.body = some b ∧
        buildUpstreamRequest order request site.upstream peers.clientIp =
          .ok (asBytes (joinPair '\r' '\n'
            (upstreamLines order request site.upstream peers.clientIp)) ++ blankLine ++ asBytes b)

variable {engine : WafEngine σ} {serializer : Serializer} {order : HashOrder Str Str}
  {site : Site} {peers : Peers} {request : HttpRequest}

/-- In a run that forwards, the engine is asked once, about the request that is forwarded. -/
theorem decided_of_forwarded (hread : readHttpRequest .source peers.request = .ok request)
    (hforwarded : Forwarded (handleConnection engine serializer order site peers)) :
    (∃ out, buildUpstreamRequest order request site.upstream peers.clientIp = .ok out) ∧
    (∃ decision, .decided (requestMeta request peers.clientIp) decision ∈
      (handleConnection engine serializer order site peers).trace) ∧
    ∀ req decision, .decided req decision ∈
      (handleConnection engine serializer order site peers).trace →
        req = requestMeta request peers.clientIp := by
  obtain ⟨e, he, hup⟩ := hforwarded
  rcases handleConnection_cases engine serializer order site peers with hnone |
    ⟨request', decision, out, rest, hread', -, -, hbuild, htrace, hrest, -⟩
  · exact absurd hup (hnone e he)
  · obtain rfl : request = request' := Except.ok.inj (hread.symm.trans hread')
    refine ⟨⟨out, hbuild⟩, ⟨.ok decision, by rw [htrace]; simp⟩, fun req d hd => ?_⟩
    rw [htrace] at hd
    simp only [List.mem_append, List.mem_cons, List.not_mem_nil, or_false, reduceCtorEq,
      Event.decided.injEq, false_or] at hd
    rcases hd with ⟨rfl, -⟩ | hd
    · rfl
    · obtain ⟨sent, hsent⟩ := hrest _ hd
      cases hsent

theorem body_requestMeta (clientIp : IpAddr) :
    (requestMeta request clientIp).body = fromUtf8 request.body := rfl

/-- A body that was inspected is UTF-8. -/
theorem isSome_of_inspected (hread : readHttpRequest .source peers.request = .ok request)
    (hforwarded : Forwarded (handleConnection engine serializer order site peers))
    (h : Inspected order site peers request
      (handleConnection engine serializer order site peers)) :
    (fromUtf8 request.body).isSome = true := by
  obtain ⟨-, ⟨decision, hdecided⟩, -⟩ := decided_of_forwarded hread hforwarded
  obtain ⟨b, hb, -⟩ := h.2 _ _ hdecided
  rw [body_requestMeta] at hb
  rw [hb]
  rfl

/-- **Exactly when a forwarded body was inspected**: when it is UTF-8. -/
theorem inspected_iff (hread : readHttpRequest .source peers.request = .ok request)
    (hforwarded : Forwarded (handleConnection engine serializer order site peers)) :
    Inspected order site peers request
        (handleConnection engine serializer order site peers) ↔
      (fromUtf8 request.body).isSome = true := by
  refine ⟨isSome_of_inspected hread hforwarded, fun hutf8 => ?_⟩
  obtain ⟨⟨out, hbuild⟩, ⟨decision, hdecided⟩, honly⟩ := decided_of_forwarded hread hforwarded
  obtain ⟨b, hb⟩ := Option.isSome_iff_exists.mp hutf8
  refine ⟨⟨_, decision, hdecided⟩, fun req d hd => ⟨b, ?_, ?_⟩⟩
  · rw [honly req d hd, body_requestMeta, hb]
  · rw [hbuild, (buildUpstreamRequest_eq_ok hbuild).1, fromUtf8_eq_some_iff.mp hb]

/-- The body of `postSocket` is inspected, being UTF-8. -/
theorem inspected_postSocket : Forwarded (handleConnection allowEngine .compact .stored
      apiSite (openPeers postSocket)) ∧
    (Inspected .stored apiSite (openPeers postSocket) postRequest
        (handleConnection allowEngine .compact .stored apiSite (openPeers postSocket)) ↔
      (fromUtf8 postRequest.body).isSome = true) := by
  have hforwarded : Forwarded (handleConnection allowEngine .compact .stored apiSite
      (openPeers postSocket)) := by
    rw [Forwarded]
    decide +kernel
  exact ⟨hforwarded, inspected_iff read_postSocket hforwarded⟩

/-- A post whose body is the byte FF. -/
def binarySocket : Socket where
  segments := [asBytes "POST / HTTP/1.1\r\nContent-Length: 1\r\n\r\n".toList ++ [0xFF]]
  nonempty := by decide
  fails := false

/-- The body of `binarySocket` is forwarded without having been inspected. -/
theorem binary_not_inspected : ¬ ∀ (engine : WafEngine Unit) (serializer : Serializer)
    (order : HashOrder Str Str) (site : Site) (peers : Peers) (request : HttpRequest),
    readHttpRequest .source peers.request = .ok request → request.body ≠ [] →
    Forwarded (handleConnection engine serializer order site peers) →
    Inspected order site peers request
      (handleConnection engine serializer order site peers) := by
  intro h
  have hbody : (readHttpRequest .source binarySocket).toOption.map HttpRequest.body =
      some [0xFF] := by
    decide +kernel
  have hforwarded : Forwarded (handleConnection allowEngine .compact .stored apiSite
      (openPeers binarySocket)) := by
    rw [Forwarded]
    decide +kernel
  obtain ⟨request, hok, hff⟩ := map_toOption_eq_some_iff.mp hbody
  have hread : readHttpRequest .source (openPeers binarySocket).request = .ok request := hok
  have hutf8 := isSome_of_inspected hread hforwarded
    (h _ _ _ _ _ _ hread (by rw [hff]; decide) hforwarded)
  rw [hff] at hutf8
  exact absurd hutf8 (by decide)

end Proxy

end Fywaf
