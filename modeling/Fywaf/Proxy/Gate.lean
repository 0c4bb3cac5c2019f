import Fywaf.Proxy.Connection
import Fywaf.Proxy.Reparse
import Fywaf.Wasm.VmSpec

/-!
# The gate to the upstream

Whatever a client sends and a guest does, the handler writes to the upstream at most once, after
it has opened the connection, and only when the guest has answered this very request with an
explicit allow.

## Main definitions

* `Proxy.Event.IsUpstream`
* `Proxy.Allowed` — the guest allows the request that the client sends

## Main results

* `Proxy.handleConnection_cases` — what the trace of a connection looks like
* `Proxy.toUpstream_allowed` — nothing reaches the upstream without an allow for it
-/

namespace Fywaf

namespace Proxy

open Wasm

variable {σ : Type}

/-- Bytes are written to the upstream. -/
def Event.IsUpstream : Event → Prop
  | .toUpstream _ => True
  | _ => False

instance : DecidablePred Event.IsUpstream
  | .toUpstream _ => isTrue trivial
  | .decided _ _ | .connected _ _ | .toClient _ => isFalse id

/-- The client sends a well-formed request, and the guest of the site's profile answers the JSON
of that request with a decision that allows it. -/
def Allowed (engine : WafEngine σ) (serializer : Serializer) (site : Site) (peers : Peers)
    (request : HttpRequest) : Prop :=
  readHttpRequest .source peers.request = .ok request ∧
    ∃ decision, decision.allow = true ∧
      Answers engine.vm serializer site.profileId
        (wasmRequest (engine.params site.profileId) (requestMeta request peers.clientIp)) decision

/-! ### Writing -/

/-- What is written is a prefix, and all of it when the receiver does not break off. -/
theorem Sink.writeAll_spec (sink : Sink) (bytes : Bytes) : (sink.writeAll bytes).1 <+: bytes ∧
    ((sink.writeAll bytes).2 = true → (sink.writeAll bytes).1 = bytes) := by
  rw [Sink.writeAll]
  split
  · exact ⟨List.prefix_refl _, fun _ => rfl⟩
  · split
    · exact ⟨List.take_prefix _ _, fun h => by cases h⟩
    · exact ⟨List.prefix_refl _, fun _ => rfl⟩

/-- The request is written once, and a write that breaks off ends the connection. -/
theorem sendUpstream_spec (peers : Peers) (upstreamRequest : Bytes) :
    ∃ rest, (sendUpstream peers upstreamRequest).trace =
        .toUpstream (peers.upstream.writeAll upstreamRequest).1 :: rest ∧
      (∀ e ∈ rest, ∃ sent, e = .toClient sent) ∧
      ((peers.upstream.writeAll upstreamRequest).2 = true ∨
        (sendUpstream peers upstreamRequest).result = .error .write) := by
  rw [sendUpstream]
  obtain ⟨written, complete⟩ := peers.upstream.writeAll upstreamRequest
  cases complete with
  | false => exact ⟨[], rfl, by simp, Or.inr rfl⟩
  | true =>
    cases peers.upstream.flushes with
    | false => exact ⟨[], rfl, by simp, Or.inl rfl⟩
    | true =>
      refine ⟨(relay peers).trace, rfl, fun e he => ?_, Or.inl rfl⟩
      rw [relay, List.mem_singleton] at he
      exact ⟨_, he⟩

/-! ### The trace of a connection -/

section Trace

variable (engine : WafEngine σ) (serializer : Serializer) (order : HashOrder Str Str)
  (site : Site) (peers : Peers)

/-- What is allowed is either not written, or is the one thing that is written. -/
theorem forward_cases (request : HttpRequest) :
    (∀ e ∈ (forward order site peers request).trace, ¬ e.IsUpstream) ∨
    ∃ out rest, buildUpstreamRequest order request site.upstream peers.clientIp = .ok out ∧
      (forward order site peers request).trace =
        .connected site.upstream.host site.upstream.port ::
          .toUpstream (peers.upstream.writeAll out).1 :: rest ∧
      (∀ e ∈ rest, ∃ sent, e = .toClient sent) ∧
      ((peers.upstream.writeAll out).2 = true ∨
        (forward order site peers request).result = .error .write) := by
  rw [forward]
  cases haccepts : peers.accepts with
  | false => exact Or.inl (by simp)
  | true =>
    cases hbuild : buildUpstreamRequest order request site.upstream peers.clientIp with
    | error e =>
      refine Or.inl fun e he => ?_
      rw [List.mem_singleton.mp he]
      exact id
    | ok out =>
      obtain ⟨rest, htrace, hrest, hres⟩ := sendUpstream_spec peers out
      exact Or.inr ⟨out, rest, rfl, congrArg (_ :: ·) htrace, hrest, hres⟩

/-- **The trace of a connection**: nothing goes to the upstream, or an allowed request is written
to it, once, after it was decided upon. -/
theorem handleConnection_cases :
    (∀ e ∈ (handleConnection engine serializer order site peers).trace, ¬ e.IsUpstream) ∨
    ∃ request decision out rest,
      readHttpRequest .source peers.request = .ok request ∧
      engine.decide serializer site.profileId (requestMeta request peers.clientIp) =
        .ok decision ∧
      decision.allow = true ∧
      buildUpstreamRequest order request site.upstream peers.clientIp = .ok out ∧
      (handleConnection engine serializer order site peers).trace =
        [.decided (requestMeta request peers.clientIp) (.ok decision),
          .connected site.upstream.host site.upstream.port] ++
          .toUpstream (peers.upstream.writeAll out).1 :: rest ∧
      (∀ e ∈ rest, ∃ sent, e = .toClient sent) ∧
      ((peers.upstream.writeAll out).2 = true ∨
        (handleConnection engine serializer order site peers).result = .error .write) := by
  rw [handleConnection]
  cases hread : readHttpRequest .source peers.request with
  | error e => exact Or.inl (by simp)
  | ok request =>
    dsimp only
    cases hdecide : engine.decide serializer site.profileId
        (requestMeta request peers.clientIp) with
    | error e =>
      refine Or.inl fun e he => ?_
      rw [List.mem_singleton.mp he]
      exact id
    | ok decision =>
      dsimp only
      cases hallow : decision.allow with
      | false =>
        refine Or.inl fun e he => ?_
        rw [if_neg Bool.false_ne_true, block, List.mem_cons, List.mem_singleton] at he
        rcases he with rfl | rfl <;> exact id
      | true =>
        rw [if_pos rfl]
        rcases forward_cases order site peers request with
          hnone | ⟨out, rest, hbuild, htrace, hrest, hres⟩
        · refine Or.inl fun e he => ?_
          rcases List.mem_cons.mp he with rfl | he
          · exact id
          · exact hnone e he
        · exact Or.inr ⟨request, decision, out, rest, rfl, hdecide, hallow, hbuild,
            congrArg (_ :: ·) htrace, hrest, hres⟩

/-- The only place where a list has an element of a kind. -/
theorem eq_of_append_cons {α : Type} {p : α → Prop} {x y : α} (hx : p x) {b post : List α}
    (hb : ∀ e ∈ b, ¬ p e) : ∀ {a pre : List α}, (∀ e ∈ a, ¬ p e) →
    a ++ y :: b = pre ++ x :: post → pre = a ∧ x = y ∧ post = b
  | [], [], _, h => by
    obtain ⟨rfl, rfl⟩ := List.cons_eq_cons.mp h
    exact ⟨rfl, rfl, rfl⟩
  | [], c :: pre, _, h => by
    obtain ⟨-, rfl⟩ := List.cons_eq_cons.mp h
    exact absurd hx (hb x (by simp))
  | c :: a, [], ha, h => by
    obtain ⟨rfl, -⟩ := List.cons_eq_cons.mp h
    exact absurd hx (ha c List.mem_cons_self)
  | c :: a, d :: pre, ha, h => by
    rw [List.cons_append, List.cons_append, List.cons.injEq] at h
    obtain ⟨rfl, h⟩ := h
    obtain ⟨hpre, hxy, hpost⟩ :=
      eq_of_append_cons hx hb (fun e he => ha e (List.mem_cons_of_mem _ he)) h
    exact ⟨congrArg (c :: ·) hpre, hxy, hpost⟩

variable {engine serializer order site peers}

/-- **Nothing reaches the upstream without an explicit allow for that very request.** Whenever
bytes are written to the upstream, the client has sent a well-formed request, the guest has
answered the JSON of that request with an allow, and this was decided before; the bytes are the
upstream request built from it, cut short only when the upstream breaks off, and nothing else is
written. -/
theorem toUpstream_allowed {pre post : List Event} {bytes : Bytes}
    (h : (handleConnection engine serializer order site peers).trace =
      pre ++ .toUpstream bytes :: post) :
    ∃ request decision out,
      Allowed engine serializer site peers request ∧
      .decided (requestMeta request peers.clientIp) (.ok decision) ∈ pre ∧
      decision.allow = true ∧
      buildUpstreamRequest order request site.upstream peers.clientIp = .ok out ∧
      bytes <+: out ∧
      (bytes = out ∨
        (handleConnection engine serializer order site peers).result = .error .write) ∧
      ∀ e ∈ pre ++ post, ¬ e.IsUpstream := by
  rcases handleConnection_cases engine serializer order site peers with hnone |
    ⟨request, decision, out, rest, hread, hdecide, hallow, hbuild, htrace, hrest, hres⟩
  · exact absurd trivial (hnone (.toUpstream bytes) (by rw [h]; simp))
  · rw [htrace] at h
    have hfirst : ∀ e ∈ [.decided (requestMeta request peers.clientIp) (.ok decision),
        .connected site.upstream.host site.upstream.port], ¬ Event.IsUpstream e := by
      intro e he
      rw [List.mem_cons, List.mem_singleton] at he
      rcases he with rfl | rfl <;> exact id
    have hlast : ∀ e ∈ rest, ¬ e.IsUpstream := by
      intro e he
      obtain ⟨sent, rfl⟩ := hrest e he
      exact id
    have hbytes : (Event.toUpstream bytes).IsUpstream := trivial
    obtain ⟨rfl, heq, rfl⟩ := eq_of_append_cons hbytes hlast hfirst h
    obtain rfl : bytes = _ := Event.toUpstream.inj heq
    obtain ⟨answer, hanswer, rfl⟩ := WafEngine.decide_eq_ok_iff.mp hdecide
    obtain ⟨hpre, hall⟩ := peers.upstream.writeAll_spec out
    refine ⟨request, _, out, ⟨hread, answer, hallow, hanswer⟩, List.mem_cons_self, hallow, hbuild,
      hpre, hres.imp_left hall, fun e he => ?_⟩
    rcases List.mem_append.mp he with he | he
    · exact hfirst e he
    · exact hlast e he

end Trace

/-! ### A guest that allows everything -/

/-- What `allowAll` answers. -/
def allowText : Bytes := asBytes "\x7b\"allow\":true,\"status\":200\x7d".toList

/-- The module that keeps a decision to allow in its second page and returns nothing else. -/
def allowAll : GuestModule Unit where
  instantiate fuel :=
    some ⟨(), ⟨2 * wasmPageSize, fun i => (allowText[i - wasmPageSize]?).getD 0⟩, fuel⟩
  exportsMemory := true
  getReqPtr := some fun store => some (0, store)
  decide := some fun _ store => some (27, store)
  getResultPtr := some fun store => some (65536, store)
  canGrow _ _ := true

/-- An engine with the one profile `p`. -/
def allowEngine : WafEngine Unit where
  vm := ⟨⟨[(['p'], allowAll)], by decide⟩⟩
  profileParams := .empty

/-- A site of profile `p`. -/
def apiSite : Site := ⟨['p'], apiUpstream⟩

/-- Peers without failures, and a client that sends a request. -/
def openPeers (request : Socket) : Peers where
  clientIp := localhost
  request := request
  client := ⟨none, true⟩
  accepts := true
  upstream := ⟨none, true⟩
  response := []
  relays := true

/-- A post goes through. -/
theorem toUpstream_postSocket : ∃ pre bytes post,
    (handleConnection allowEngine .compact .stored apiSite (openPeers postSocket)).trace =
      pre ++ .toUpstream bytes :: post ∧
    ∃ request decision out,
      Allowed allowEngine .compact apiSite (openPeers postSocket) request ∧
      .decided (requestMeta request localhost) (.ok decision) ∈ pre ∧
      decision.allow = true ∧
      buildUpstreamRequest .stored request apiUpstream localhost = .ok out ∧
      bytes <+: out ∧
      (bytes = out ∨
        (handleConnection allowEngine .compact .stored apiSite
          (openPeers postSocket)).result = .error .write) ∧
      ∀ e ∈ pre ++ post, ¬ e.IsUpstream := by
  have hwritten : ∃ e ∈ (handleConnection allowEngine .compact .stored apiSite
      (openPeers postSocket)).trace, e.IsUpstream := by decide +kernel
  obtain ⟨e, he, hup⟩ := hwritten
  cases e with
  | toUpstream bytes =>
    obtain ⟨pre, post, htrace⟩ := List.append_of_mem he
    exact ⟨pre, bytes, post, htrace, toUpstream_allowed htrace⟩
  | decided => exact absurd hup id
  | connected => exact absurd hup id
  | toClient => exact absurd hup id

end Proxy

end Fywaf
