import Fywaf.Proxy.Forward
import Fywaf.Proxy.Parsed

/-!
# What is written, line by line

The upstream request is a request line, the `Host` line, then one line for each header that is
copied or added. For a request that was read, each line after the `Host` line is a header line
that its parser would take apart again; the first two also carry text of the configured upstream.

## Main definitions

* `Proxy.addedHeaders` — the headers behind the `Host` line

## Main results

* `Proxy.headerOf_headerLine` — a header line is taken apart into what it was made of
* `Proxy.writable_of_mem_addedHeaders` — each added header is writable
* `Proxy.findHeaderEnd_lines_iff` — where the parser finds the end of the head
-/

namespace Fywaf

namespace Proxy

/-! ### Header lines -/

theorem headerLine_eq (e : Str × Str) : headerLine e = e.1 ++ ':' :: ' ' :: e.2 := by
  simp [headerLine]

theorem headerLine_ne_nil (e : Str × Str) : headerLine e ≠ [] := by simp [headerLine_eq]

/-- Name and value as a header line is written: no colon in the name, clean ends, no line break. -/
structure Writable (e : Str × Str) : Prop where
  name_colon : ':' ∉ e.1
  name_ends : CleanEnds isWhitespace e.1
  name_crlf : NoPair '\r' '\n' e.1
  value_ends : CleanEnds isWhitespace e.2
  value_crlf : NoPair '\r' '\n' e.2

theorem CleanHeader.writable {k v : Str} (h : CleanHeader k v) : Writable (k, v) :=
  ⟨h.name_colon, h.name_ends, h.name_crlf, h.value_ends, h.value_crlf⟩

/-- A header line is cut behind its name, and both sides are trimmed. -/
theorem headerOf_headerLine_trim {e : Str × Str} (hcolon : ':' ∉ e.1) :
    headerOf (headerLine e) = some (toAsciiLowercase (trim e.1), trim e.2) := by
  rw [headerOf, if_neg (headerLine_ne_nil e), headerLine_eq, splitOnce_append hcolon,
    Option.map_some, trim_cons_blank (by decide)]

/-- **A header line is taken apart into what it was made of**, the name in lower case. -/
theorem headerOf_headerLine {e : Str × Str} (hcolon : ':' ∉ e.1)
    (hname : CleanEnds isWhitespace e.1) (hvalue : CleanEnds isWhitespace e.2) :
    headerOf (headerLine e) = some (toAsciiLowercase e.1, e.2) := by
  rw [headerOf_headerLine_trim hcolon]
  simp only [trim, trimMatches_of_cleanEnds hname, trimMatches_of_cleanEnds hvalue]

/-- The parser's view of lines that are written so. -/
theorem filterMap_headerOf_of_writable {headers : List (Str × Str)}
    (h : ∀ e ∈ headers, Writable e) : (headers.map headerLine).filterMap headerOf =
      headers.map fun e => (toAsciiLowercase e.1, e.2) := by
  rw [List.filterMap_map, ← List.filterMap_eq_map]
  refine List.filterMap_congr fun e he => ?_
  obtain ⟨hcolon, hname, -, hvalue, -⟩ := h e he
  exact headerOf_headerLine hcolon hname hvalue

theorem noPair_headerLine_iff {e : Str × Str} :
    NoPair '\r' '\n' (headerLine e) ↔ NoPair '\r' '\n' e.1 ∧ NoPair '\r' '\n' e.2 := by
  rw [headerLine_eq, noPair_append_cons (by decide) (by decide),
    noPair_cons (by decide) (by decide)]

/-! ### The headers behind the `Host` line -/

/-- The headers that are copied. -/
def copiedHeaders (order : HashOrder Str Str) (request : HttpRequest) : List (Str × Str) :=
  (order.iter request.headers).filter fun e => !notCopied e.1

/-- The length header, if one is added. -/
def lengthHeaders (request : HttpRequest) : List (Str × Str) :=
  if request.body ≠ [] then [("Content-Length".toList, decimal request.body.length)]
  else if !request.headers.containsKey "content-length".toList then
    [("Content-Length".toList, ['0'])]
  else []

/-- The headers behind the `Host` line. -/
def addedHeaders (order : HashOrder Str Str) (request : HttpRequest) (clientIp : IpAddr) :
    List (Str × Str) :=
  copiedHeaders order request ++
    [("x-forwarded-for".toList, forwardedFor request clientIp),
      ("Connection".toList, "close".toList)] ++
    lengthHeaders request

theorem upstreamLines_eq (order : HashOrder Str Str) (request : HttpRequest) (upstream : Upstream)
    (clientIp : IpAddr) : upstreamLines order request upstream clientIp =
      requestLine request upstream :: hostLine upstream ::
        (addedHeaders order request clientIp).map headerLine := by
  have hlen : lengthLines request = (lengthHeaders request).map headerLine := by
    rw [lengthLines, lengthHeaders]
    split
    · simp [headerLine]
    · split <;> simp [headerLine]
  simp [upstreamLines, addedHeaders, copiedHeaders, hlen, headerLine]

/-- The second line is a header line. -/
theorem hostLine_eq (upstream : Upstream) :
    hostLine upstream = headerLine ("Host".toList, upstream.authority) :=
  congrArg (· ++ upstream.authority) (show "Host: ".toList = "Host".toList ++ ": ".toList by decide)

/-- A text of visible characters has clean ends and no line break. -/
theorem cleanEnds_of_graphic {s : Str} (h : ∀ c ∈ s, IsGraphic c) : CleanEnds isWhitespace s :=
  ⟨fun c hc => (h c (List.mem_of_mem_head? hc)).not_whitespace,
    fun c hc => (h c (List.mem_of_getLast? hc)).not_whitespace⟩

theorem noPair_of_graphic {s : Str} (h : ∀ c ∈ s, IsGraphic c) : NoPair '\r' '\n' s :=
  NoPair.of_not_mem fun hmem => absurd (h _ hmem) (by decide)

/-- A header with a visible name without a colon is writable as far as its value is. -/
theorem writable_of_graphic {k v : Str} (hcolon : ':' ∉ k) (hk : ∀ c ∈ k, IsGraphic c)
    (hends : CleanEnds isWhitespace v) (hcrlf : NoPair '\r' '\n' v) : Writable (k, v) :=
  ⟨hcolon, cleanEnds_of_graphic hk, noPair_of_graphic hk, hends, hcrlf⟩

/-- The name of the second line. -/
theorem hostName : ':' ∉ "Host".toList ∧ CleanEnds isWhitespace "Host".toList ∧
    NoPair '\r' '\n' "Host".toList ∧ toAsciiLowercase "Host".toList = "host".toList := by
  have hname : ∀ c ∈ "Host".toList, IsGraphic c := forall_mem_of_all (by decide)
  exact ⟨by decide, cleanEnds_of_graphic hname, noPair_of_graphic hname, by decide⟩

variable {request : HttpRequest} {order : HashOrder Str Str} {clientIp : IpAddr}

variable (request clientIp) in
/-- The forwarding chain: the client alone, or behind those that are in front of it. -/
theorem forwardedFor_cases : forwardedFor request clientIp = clientIp.display ∨
    ∃ existing, request.headers.get? "x-forwarded-for".toList = some existing ∧ existing ≠ [] ∧
      forwardedFor request clientIp = existing ++ ',' :: ' ' :: clientIp.display := by
  rw [forwardedFor]
  split
  · next existing hx =>
    split
    · next hne => exact Or.inr ⟨existing, hx, hne, by simp⟩
    · exact Or.inl rfl
  · exact Or.inl rfl

/-- The forwarding chain of a request that was read. -/
theorem forwardedFor_clean (hr : WellRead request) (clientIp : IpAddr) :
    CleanEnds isWhitespace (forwardedFor request clientIp) ∧
      NoPair '\r' '\n' (forwardedFor request clientIp) := by
  have hip : ∀ c ∈ clientIp.display, IsGraphic c := fun c => IpAddr.isGraphic_of_mem_display
  have hends := cleanEnds_of_graphic hip
  have hcrlf := noPair_of_graphic hip
  rcases forwardedFor_cases request clientIp with h | ⟨existing, hx, hne, h⟩
  · rw [h]
    exact ⟨hends, hcrlf⟩
  · have hclean := hr.headers _ _ hx
    rw [h]
    refine ⟨⟨fun c hc => hclean.value_ends.head c ?_, fun c hc => hends.last c ?_⟩, ?_⟩
    · rw [List.head?_append_of_ne_nil _ hne] at hc
      exact hc
    · rw [List.getLast?_append_of_ne_nil _ (List.cons_ne_nil _ _), List.getLast?_cons_cons,
        List.getLast?_cons_of_ne_nil (IpAddr.display_ne_nil clientIp)] at hc
      exact hc
    · rw [noPair_append_cons (by decide) (by decide), noPair_cons (by decide) (by decide)]
      exact ⟨hclean.value_crlf, hcrlf⟩

theorem mem_copiedHeaders {e : Str × Str} :
    e ∈ copiedHeaders order request ↔
      request.headers.get? e.1 = some e.2 ∧ notCopied e.1 = false := by
  rw [copiedHeaders, List.mem_filter, HashOrder.mem_iter, HashMap.get?_eq_some_iff,
    Bool.not_eq_true']

/-- The value of an added length header is a number. -/
theorem mem_lengthHeaders {e : Str × Str} (h : e ∈ lengthHeaders request) :
    e.1 = "Content-Length".toList ∧ ∃ n, e.2 = decimal n := by
  rw [lengthHeaders] at h
  split at h
  · rw [List.mem_singleton.mp h]
    exact ⟨rfl, _, rfl⟩
  · split at h
    · rw [List.mem_singleton.mp h]
      exact ⟨rfl, 0, by decide⟩
    · cases h

/-- An added header is one of the client's, or has a name of the proxy's own and a value of visible
characters, unless that is the forwarding chain. -/
theorem addedHeaders_cases {e : Str × Str} (h : e ∈ addedHeaders order request clientIp) :
    request.headers.get? e.1 = some e.2 ∨
    (':' ∉ e.1 ∧ (∀ c ∈ e.1, IsGraphic c)) ∧
      (e.2 = forwardedFor request clientIp ∨ ∀ c ∈ e.2, IsGraphic c) := by
  have hxff : ':' ∉ "x-forwarded-for".toList ∧ ∀ c ∈ "x-forwarded-for".toList, IsGraphic c :=
    ⟨by decide, forall_mem_of_all (by decide)⟩
  have hconn : ':' ∉ "Connection".toList ∧ ∀ c ∈ "Connection".toList, IsGraphic c :=
    ⟨by decide, forall_mem_of_all (by decide)⟩
  have hlen : ':' ∉ "Content-Length".toList ∧ ∀ c ∈ "Content-Length".toList, IsGraphic c :=
    ⟨by decide, forall_mem_of_all (by decide)⟩
  have hclose : ∀ c ∈ "close".toList, IsGraphic c := forall_mem_of_all (by decide)
  simp only [addedHeaders, List.mem_append, List.mem_cons, List.not_mem_nil, or_false] at h
  rcases h with (h | rfl | rfl) | h
  · exact Or.inl (mem_copiedHeaders.mp h).1
  · exact Or.inr ⟨hxff, Or.inl rfl⟩
  · exact Or.inr ⟨hconn, Or.inr hclose⟩
  · obtain ⟨hname, n, hvalue⟩ := mem_lengthHeaders h
    rw [hname, hvalue]
    exact Or.inr ⟨hlen, Or.inr fun c => IpAddr.isGraphic_decimal⟩

/-- **Each added header is writable.** -/
theorem writable_of_mem_addedHeaders (hr : WellRead request) {e : Str × Str}
    (h : e ∈ addedHeaders order request clientIp) :
    Writable e := by
  rcases addedHeaders_cases h with hget | ⟨⟨hcolon, hname⟩, hvalue⟩
  · exact (hr.headers _ _ hget).writable
  · have hclean : CleanEnds isWhitespace e.2 ∧ NoPair '\r' '\n' e.2 := by
      rcases hvalue with hchain | hgraphic
      · rw [hchain]
        exact forwardedFor_clean hr clientIp
      · exact ⟨cleanEnds_of_graphic hgraphic, noPair_of_graphic hgraphic⟩
    exact writable_of_graphic hcolon hname hclean.1 hclean.2

/-- The copied headers have no name twice. -/
theorem nodup_copiedHeaders : ((copiedHeaders order request).map Prod.fst).Nodup :=
  (order.nodup_iter request.headers).sublist (List.filter_sublist.map _)

/-- What is copied does not depend on the order. -/
theorem lastOf_copiedHeaders (name : Str) : lastOf name (copiedHeaders order request) =
    if notCopied name then none else request.headers.get? name := by
  refine Option.ext fun v => ?_
  rw [lastOf_eq_some_iff nodup_copiedHeaders, mem_copiedHeaders]
  by_cases h : notCopied name = true
  · simp [h]
  · simp [h]

/-- The names of copied headers are in lower case already. -/
theorem lowercase_copiedHeaders (hr : WellRead request) :
    (copiedHeaders order request).map (fun e => (toAsciiLowercase e.1, e.2)) =
      copiedHeaders order request := by
  have hid : ∀ e ∈ copiedHeaders order request, (toAsciiLowercase e.1, e.2) = id e := fun e he => by
    rw [(hr.headers _ _ (mem_copiedHeaders.mp he).1).name_lower]
    rfl
  rw [List.map_congr_left hid, List.map_id]

/-- The parser's view of the lines behind the `Host` line. -/
theorem filterMap_headerOf_added (hr : WellRead request) :
    ((addedHeaders order request clientIp).map headerLine).filterMap headerOf =
      (addedHeaders order request clientIp).map fun e => (toAsciiLowercase e.1, e.2) :=
  filterMap_headerOf_of_writable fun _ => writable_of_mem_addedHeaders hr

variable (order clientIp) in
/-- The lines of what is written: those of the first two lines, then one for each added header. -/
theorem splitPair_upstreamLines (upstream : Upstream) (hr : WellRead request) :
    splitPair '\r' '\n' (joinPair '\r' '\n' (upstreamLines order request upstream clientIp)) =
      splitPair '\r' '\n' (requestLine request upstream) ++
        splitPair '\r' '\n' (hostLine upstream) ++
        (addedHeaders order request clientIp).map headerLine := by
  have hadded : ((addedHeaders order request clientIp).map headerLine).flatMap
      (splitPair '\r' '\n') = (addedHeaders order request clientIp).map headerLine := by
    rw [List.flatMap_map]
    have hone : ∀ e ∈ addedHeaders order request clientIp,
        splitPair '\r' '\n' (headerLine e) = [headerLine e] := fun e he => by
      have hwr := writable_of_mem_addedHeaders hr he
      exact splitPair_of_noPair (noPair_headerLine_iff.mpr ⟨hwr.name_crlf, hwr.value_crlf⟩)
    rw [List.flatMap_congr hone, List.map_eq_flatMap]
  rw [splitPair_joinPair_flatMap (by decide) (by simp [upstreamLines]), upstreamLines_eq,
    List.flatMap_cons, List.flatMap_cons, hadded, List.append_assoc]

/-! ### The end of the head -/

theorem noPair_asBytes_iff {s : Str} : NoPair 13 10 (asBytes s) ↔ NoPair '\r' '\n' s := by
  refine not_congr ⟨?_, ?_⟩
  · rintro ⟨u, v, huv⟩
    rw [List.append_assoc] at huv
    obtain ⟨a, b, rfl, -, hb⟩ := asBytes_eq_append_cons (x := '\r') (by decide) huv.symm
    obtain ⟨c, d, rfl, hc, -⟩ := asBytes_eq_append_cons (x := '\n') (u := []) (by decide) hb
    have hnil : c = [] := asBytes_injective hc
    subst hnil
    exact ⟨a, d, by simp⟩
  · rintro ⟨a, b, rfl⟩
    exact ⟨asBytes a, asBytes b, by simp only [asBytes_append]; rfl⟩

theorem asBytes_joinPair : ∀ ls : List Str,
    asBytes (joinPair '\r' '\n' ls) = joinPair 13 10 (ls.map asBytes)
  | [] => rfl
  | [l] => by rw [joinPair_singleton, List.map_singleton, joinPair_singleton]
  | l :: m :: ls => by
    rw [joinPair_cons_cons, asBytes_append, List.map_cons, List.map_cons, joinPair_cons_cons,
      ← List.map_cons, ← asBytes_joinPair (m :: ls)]
    rfl

/-- **Where the parser finds the end of the head**: at the blank line that was written, exactly
when no line behind the first is empty. -/
theorem findHeaderEnd_lines_iff {ls : List Str} (hne : ls ≠ [])
    (h : ∀ l ∈ ls, NoPair '\r' '\n' l) (body : Bytes) :
    findHeaderEnd (asBytes (joinPair '\r' '\n' ls) ++ blankLine ++ body) =
        some (asBytes (joinPair '\r' '\n' ls)).length ↔
      ∀ l ∈ ls.tail, l ≠ [] := by
  have hbytes : ∀ l ∈ ls.map asBytes, NoPair 13 10 l := by
    intro l hl
    obtain ⟨s, hs, rfl⟩ := List.mem_map.mp hl
    exact noPair_asBytes_iff.mpr (h s hs)
  have hkey := findSub_blank_iff (show (13 : UInt8) ≠ 10 by decide) body
    (mt List.map_eq_nil_iff.mp hne) hbytes
  have hnil : ∀ l : Str, asBytes l = [] ↔ l = [] :=
    fun l => ⟨fun hl => asBytes_injective hl, fun hl => hl ▸ rfl⟩
  rw [asBytes_joinPair, List.append_assoc, findHeaderEnd]
  refine Iff.trans hkey ?_
  rw [← List.map_tail, List.forall_mem_map]
  simp only [ne_eq, hnil]

/-- The parts of a message, given where its head ends. -/
theorem message_parts (head body : Bytes) :
    (head ++ blankLine ++ body).take head.length = head ∧
      (head ++ blankLine ++ body).drop (head.length + 4) = body ∧
      (head ++ blankLine ++ body).length = head.length + 4 + body.length := by
  have hlen : (head ++ blankLine).length = head.length + 4 := List.length_append
  refine ⟨?_, ?_, ?_⟩
  · rw [List.append_assoc, List.take_left]
  · rw [← hlen, List.drop_left]
  · rw [List.length_append, hlen]

end Proxy

end Fywaf
