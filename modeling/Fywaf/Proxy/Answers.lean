import Fywaf.Proxy.Delivery
import Fywaf.Proxy.Framing

/-!
# What the client hears

A client hears at most one message: the start of what the upstream answers, once its request was
written there, or the start of an answer of the proxy itself. Of the decision that answer tells the
status and nothing else, the status is one of HTTP, and the length that is declared is that of what
follows the head.

## Main definitions

* `Proxy.Outcome.heard` — all that is written to the client
* `Proxy.statusLine`, `Proxy.answerHeaders`, `Proxy.blockedBody` — the parts of an answer

## Main results

* `Proxy.framedBy_blockedResponse` — an answer of the proxy is framed unambiguously
* `Proxy.heard_spec` — what a client hears
-/

namespace Fywaf

namespace Proxy

open Wasm

/-! ### The answer of the proxy -/

/-- The first line. -/
def statusLine (status : UInt16) : Str :=
  "HTTP/1.1 ".toList ++ decimal status.toNat ++ ' ' :: (reasonPhrase status).toList

/-- What follows the blank line. -/
def blockedBody (status : UInt16) : Str :=
  "blocked by fywaf (".toList ++ decimal status.toNat ++ ")\n".toList

/-- The headers. -/
def answerHeaders (status : UInt16) : List (Str × Str) :=
  [("Content-Type".toList, "text/plain; charset=utf-8".toList),
    ("Content-Length".toList, decimal (asBytes (blockedBody status)).length),
    ("Connection".toList, "close".toList)]

/-- Three header lines behind a first line, as one text. -/
theorem joinPair_answer (first : Str) (a b c : Str × Str) :
    joinPair '\r' '\n' (first :: [a, b, c].map headerLine) =
      first ++ '\r' :: '\n' :: (a.1 ++ ':' :: ' ' :: (a.2 ++ '\r' :: '\n' ::
        (b.1 ++ ':' :: ' ' :: (b.2 ++ '\r' :: '\n' :: (c.1 ++ ':' :: ' ' :: c.2))))) := by
  simp only [List.map_cons, List.map_nil, joinPair_cons_cons, joinPair_singleton, headerLine_eq,
    List.append_assoc, List.cons_append]

theorem blockedResponse_eq (status : UInt16) : blockedResponse status =
    asBytes (joinPair '\r' '\n' (statusLine status :: (answerHeaders status).map headerLine)) ++
      blankLine ++ asBytes (blockedBody status) := by
  have hblank : blankLine = asBytes "\r\n\r\n".toList := by decide
  have hmiddle : "\r\nContent-Type: text/plain; charset=utf-8\r\nContent-Length: ".toList =
      '\r' :: '\n' :: ("Content-Type".toList ++ ':' :: ' ' ::
        ("text/plain; charset=utf-8".toList ++
          '\r' :: '\n' :: ("Content-Length".toList ++ [':', ' ']))) := rfl
  have hlast : "\r\nConnection: close\r\n\r\n".toList =
      '\r' :: '\n' :: ("Connection".toList ++ ':' :: ' ' :: ("close".toList ++
        "\r\n\r\n".toList)) := rfl
  unfold answerHeaders
  simp only [joinPair_answer, hblank, ← asBytes_append]
  unfold blockedResponse blockedBody statusLine
  simp only [hmiddle, hlast, List.append_assoc, List.cons_append, List.nil_append]

/-- No reason breaks the first line. -/
theorem not_mem_reasonPhrase (status : UInt16) : '\n' ∉ (reasonPhrase status).toList := by
  rw [reasonPhrase]
  repeat' split
  all_goals decide

theorem noPair_statusLine (status : UInt16) : NoPair '\r' '\n' (statusLine status) := by
  have hversion : '\n' ∉ "HTTP/1.1 ".toList := by decide
  have hstatus : '\n' ∉ decimal status.toNat := fun h =>
    absurd (IpAddr.isGraphic_decimal h) (by decide)
  refine NoPair.of_not_mem fun hmem => ?_
  unfold statusLine at hmem
  simp only [List.mem_append, List.mem_cons, hversion, hstatus, not_mem_reasonPhrase, or_false,
    false_or] at hmem
  cases hmem

theorem writable_answerHeaders (status : UInt16) : ∀ e ∈ answerHeaders status, Writable e := by
  have hdecimal : ∀ c ∈ decimal (asBytes (blockedBody status)).length, IsGraphic c :=
    fun c => IpAddr.isGraphic_decimal
  have hclose : ∀ c ∈ "close".toList, IsGraphic c := forall_mem_of_all (by decide)
  have htype : CleanEnds isWhitespace "text/plain; charset=utf-8".toList :=
    ⟨fun c hc => by obtain rfl := Option.some.inj hc; decide,
      fun c hc => by obtain rfl := Option.some.inj hc; decide⟩
  unfold answerHeaders
  rw [List.forall_mem_cons, List.forall_mem_cons, List.forall_mem_singleton]
  refine ⟨?_, ?_, ?_⟩
  · exact writable_of_graphic (by decide) (forall_mem_of_all (by decide)) htype
      (NoPair.of_not_mem (by decide))
  · exact writable_of_graphic (by decide) (forall_mem_of_all (by decide))
      (cleanEnds_of_graphic hdecimal) (noPair_of_graphic hdecimal)
  · exact writable_of_graphic (by decide) (forall_mem_of_all (by decide))
      (cleanEnds_of_graphic hclose) (noPair_of_graphic hclose)

/-- The head and the body of an answer. -/
theorem splitMessage_blockedResponse (status : UInt16) : splitMessage (blockedResponse status) =
    some ((answerHeaders status).map headerLine, asBytes (blockedBody status)) := by
  have hlines : headerLines (joinPair '\r' '\n'
      (statusLine status :: (answerHeaders status).map headerLine)) =
        (answerHeaders status).map headerLine := by
    rw [headerLines, splitPair_joinPair (by decide) (List.cons_ne_nil _ _), List.tail_cons]
    rw [List.forall_mem_cons, List.forall_mem_map]
    exact ⟨noPair_statusLine status, fun e he => noPair_headerLine_iff.mpr
      ⟨(writable_answerHeaders status e he).name_crlf,
        (writable_answerHeaders status e he).value_crlf⟩⟩
  rw [blockedResponse_eq, splitMessage_eq_some_iff, hlines, List.forall_mem_map]
  exact ⟨fun e _ => headerLine_ne_nil e, rfl⟩

/-- The value of the second of three headers, when its name is no other's. -/
theorem filterMap_second {name a b c : Str} (va vb vc : Str) (ha : a ≠ name) (hb : b = name)
    (hc : c ≠ name) : ([(a, va), (b, vb), (c, vc)].filterMap fun e =>
      if e.1 = name then some e.2 else none) = [vb] := by
  simp only [List.filterMap_cons, if_neg ha, if_pos hb, if_neg hc, List.filterMap_nil]

theorem contentLengths_answerHeaders (status : UInt16) :
    contentLengths ((answerHeaders status).map headerLine) =
      [decimal (asBytes (blockedBody status)).length] := by
  have htype : toAsciiLowercase "Content-Type".toList ≠ "content-length".toList := by decide
  have hlength : toAsciiLowercase "Content-Length".toList = "content-length".toList := by decide
  have hconn : toAsciiLowercase "Connection".toList ≠ "content-length".toList := by decide
  unfold contentLengths
  rw [filterMap_headerOf_of_writable (writable_answerHeaders status)]
  exact filterMap_second _ _ _ htype hlength hconn

/-- **An answer of the proxy is framed unambiguously.** -/
theorem framedBy_blockedResponse (status : UInt16) :
    FramedBy (blockedResponse status) (asBytes (blockedBody status)) :=
  ⟨_, _, splitMessage_blockedResponse status, contentLengths_answerHeaders status,
    isDecimal_decimal _⟩

/-! ### What is written to the client -/

/-- What an event writes to the client. -/
def Event.written : Event → Bytes
  | .toClient bytes => bytes
  | .decided _ _ | .connected _ _ | .toUpstream _ => []

/-- All that is written to the client. -/
def Outcome.heard (outcome : Outcome) : Bytes := outcome.trace.flatMap Event.written

/-- The start of a message, and all of it when the connection ends well. -/
def Outcome.Hears (outcome : Outcome) (message : Bytes) : Prop :=
  outcome.heard <+: message ∧ (outcome.result = .ok () → outcome.heard = message)

section Heard

variable {order : HashOrder Str Str} {site : Site} {peers : Peers} {request : HttpRequest}

theorem hears_block (status : UInt16) : (block peers status).Hears (blockedResponse status) := by
  obtain ⟨hbegins, hall⟩ := peers.client.writeAll_spec (blockedResponse status)
  have hheard : (block peers status).heard = (peers.client.writeAll (blockedResponse status)).1 :=
    List.append_nil _
  rw [Outcome.Hears, hheard]
  exact ⟨hbegins, fun hok => hall (block_ok_iff.mp hok).1⟩

theorem hears_relay : (relay peers).Hears peers.response := by
  obtain ⟨hbegins, hall⟩ := peers.client.writeAll_spec peers.response
  have hheard : (relay peers).heard = (peers.client.writeAll peers.response).1 :=
    List.append_nil _
  rw [Outcome.Hears, hheard]
  exact ⟨hbegins, fun hok => hall (relay_ok_iff.mp hok).1⟩

theorem hears_sendUpstream (out : Bytes) : (sendUpstream peers out).Hears peers.response := by
  rw [sendUpstream]
  obtain ⟨written, complete⟩ := peers.upstream.writeAll out
  cases complete with
  | false => exact ⟨List.nil_prefix, fun h => by cases h⟩
  | true =>
    cases peers.upstream.flushes with
    | false => exact ⟨List.nil_prefix, fun h => by cases h⟩
    | true => exact hears_relay

theorem hears_forward : (forward order site peers request).Hears peers.response := by
  rw [forward]
  cases peers.accepts with
  | false => exact ⟨List.nil_prefix, fun h => by cases h⟩
  | true =>
    cases buildUpstreamRequest order request site.upstream peers.clientIp with
    | error e => exact ⟨List.nil_prefix, fun h => by cases h⟩
    | ok out => exact hears_sendUpstream out

end Heard

/-- Only what a connection wrote to the upstream is answered by it. -/
theorem forwarded_of_heard_forward {order : HashOrder Str Str} {site : Site} {peers : Peers}
    {request : HttpRequest} (h : (forward order site peers request).heard ≠ []) :
    ∃ e ∈ (forward order site peers request).trace, e.IsUpstream := by
  obtain ⟨b, hb⟩ := List.exists_mem_of_ne_nil _ h
  obtain ⟨e, he, hwritten⟩ := List.mem_flatMap.mp hb
  cases e with
  | toClient sent => exact forwarded_of_toClient_forward he
  | decided | connected | toUpstream => cases hwritten

/-- **What a client hears.** Whatever the guest decides and however the peers behave, a client hears
the start of an answer of the proxy, with a status of HTTP and framed unambiguously, and nothing
was sent to the upstream; or it hears the start of the response of the upstream, and nothing at all
unless something was sent there. It hears all of it when the connection ends well. -/
theorem heard_spec {σ : Type} (engine : WafEngine σ) (serializer : Serializer)
    (order : HashOrder Str Str) (site : Site) (peers : Peers) :
    (¬ Forwarded (handleConnection engine serializer order site peers) ∧
      ∃ status body, (100 ≤ status ∧ status ≤ 599) ∧ FramedBy (blockedResponse status) body ∧
        (handleConnection engine serializer order site peers).Hears (blockedResponse status)) ∨
    (((handleConnection engine serializer order site peers).heard ≠ [] →
        Forwarded (handleConnection engine serializer order site peers)) ∧
      (handleConnection engine serializer order site peers).Hears peers.response) := by
  cases hread : readHttpRequest .source peers.request with
  | error e =>
    rw [handleConnection_of_unread hread]
    exact Or.inr ⟨fun h => absurd rfl h, List.nil_prefix, fun h => by cases h⟩
  | ok request =>
    cases hdecide : engine.decide serializer site.profileId
        (requestMeta request peers.clientIp) with
    | error e =>
      rw [handleConnection_of_error hread hdecide]
      exact Or.inr ⟨fun h => absurd rfl h, List.nil_prefix, fun h => by cases h⟩
    | ok decision =>
      cases hallow : decision.allow with
      | true =>
        rw [handleConnection_of_allow hread hdecide hallow]
        refine Or.inr ⟨fun h => ?_, hears_forward⟩
        obtain ⟨e, he, hup⟩ := forwarded_of_heard_forward h
        exact ⟨e, List.mem_cons_of_mem _ he, hup⟩
      | false =>
        have hnot : ¬ Forwarded (handleConnection engine serializer order site peers) :=
          (answeredHere_iff.mpr ⟨request, decision, hread, hdecide, hallow⟩).1
        rw [handleConnection_of_block hread hdecide hallow] at hnot ⊢
        exact Or.inl ⟨hnot, decision.statusCode, _, WafEngine.statusCode_of_decide hdecide,
          framedBy_blockedResponse _, hears_block _⟩

end Proxy

end Fywaf
