import Fywaf.Proxy.Connection
import Fywaf.Proxy.Injection

/-!
# End-to-end headers

The header lines of a request go into a map, the map is given to the rules, and what is left after
the headers of the connection are taken out is written to the upstream. An insertion replaces the
value an earlier line of the same name has left there, so of a repeated header the last line alone
is inspected and forwarded. The forwarding chain, which the proxy writes itself, is combined
instead.

## Main definitions

* `Proxy.EndToEnd`, `Proxy.CarriedBy` — which headers are meant, and when a value has arrived
* `Proxy.Kept` — every end-to-end header line is seen by the rules and written to the upstream
* `Proxy.LastCarries` — the last line of a name has the values of those before it

## Main results

* `Proxy.written_iff_visible` — the upstream is written what the rules see
* `Proxy.kept_iff` — exactly when no end-to-end header is lost
-/

namespace Fywaf

namespace Proxy

open Wasm

/-- A header between the client and the upstream, which the proxy does not write itself. -/
def EndToEnd (name : Str) : Prop := notCopied name = false ∧ name ≠ "content-length".toList

instance : DecidablePred EndToEnd := fun _ => inferInstanceAs (Decidable (_ ∧ _))

/-- What separates the members of a combined line. -/
def memberSeparator (name : Str) : Char := if name = "cookie".toList then ';' else ','

/-- The members of a line. -/
def members (name value : Str) : List Str := (value.splitOn (memberSeparator name)).map trim

/-- A value has arrived in `line`: it is the line, or stands among its members. -/
def CarriedBy (name value line : Str) : Prop := members name value <:+: members name line

/-- The rules see the header. -/
def Visible (req : RequestMeta) (e : Str × Str) : Prop :=
  ∃ line, req.headers.get? e.1 = some line ∧ CarriedBy e.1 e.2 line

/-- The header stands in a line behind the request line of what is written. -/
def Written (order : HashOrder Str Str) (request : HttpRequest) (upstream : Upstream)
    (clientIp : IpAddr) (out : Bytes) (e : Str × Str) : Prop :=
  out = asBytes (joinPair '\r' '\n' (upstreamLines order request upstream clientIp)) ++
      blankLine ++ request.body ∧
    ∃ l ∈ (upstreamLines order request upstream clientIp).tail,
      ∃ line, headerOf l = some (e.1, line) ∧ CarriedBy e.1 e.2 line

/-- No end-to-end header line of the stream is lost. -/
def Kept (stream : Bytes) (request : HttpRequest) : Prop :=
  ∀ lines rest, splitMessage stream = some (lines, rest) →
    ∀ e ∈ lines.filterMap headerOf, EndToEnd e.1 →
      ∀ clientIp, Visible (requestMeta request clientIp) e ∧
        ∀ order upstream out, buildUpstreamRequest order request upstream clientIp = .ok out →
          Written order request upstream clientIp out e

/-- The value of an end-to-end header line has arrived in the last line of its name. -/
def LastCarries (lines : List Str) : Prop :=
  ∀ pre name value post, lines.filterMap headerOf = pre ++ (name, value) :: post →
    EndToEnd name → ∀ line, lastOf name post = some line → CarriedBy name value line

/-! ### What the rules see -/

theorem CarriedBy.refl (name value : Str) : CarriedBy name value value := List.infix_rfl

/-- A header is looked up by its last line. -/
theorem visible_iff {lines : List Str} {request : HttpRequest} {clientIp : IpAddr}
    (hins : request.headers = HashMap.empty.insertAll (lines.filterMap headerOf))
    {e : Str × Str} : Visible (requestMeta request clientIp) e ↔
      ∃ line, lastOf e.1 (lines.filterMap headerOf) = some line ∧ CarriedBy e.1 e.2 line := by
  have hheaders : (requestMeta request clientIp).headers = request.headers := rfl
  rw [Visible, hheaders, hins]
  simp only [HashMap.get?_insertAll_empty]

/-- **When the rules see every end-to-end header line.** -/
theorem forall_visible_iff {lines : List Str} {request : HttpRequest} (clientIp : IpAddr)
    (hins : request.headers = HashMap.empty.insertAll (lines.filterMap headerOf)) :
    (∀ e ∈ lines.filterMap headerOf, EndToEnd e.1 → Visible (requestMeta request clientIp) e) ↔
      LastCarries lines := by
  constructor
  · intro h pre name value post heq hend line hline
    have hmem : (name, value) ∈ lines.filterMap headerOf := by
      rw [heq]
      simp
    obtain ⟨line', hline', hcarried⟩ := (visible_iff hins).mp (h _ hmem hend)
    rw [heq, lastOf_append_cons_self, hline, Option.some_or, Option.some.injEq] at hline'
    rwa [hline']
  · rintro h ⟨name, value⟩ hmem hend
    obtain ⟨pre, post, heq⟩ := List.append_of_mem hmem
    rw [visible_iff hins, heq, lastOf_append_cons_self]
    cases hpost : lastOf name post with
    | none => exact ⟨value, rfl, CarriedBy.refl name value⟩
    | some line => exact ⟨line, rfl, h pre name value post heq hend line hpost⟩

/-! ### What is written -/

variable {order : HashOrder Str Str} {request : HttpRequest} {upstream : Upstream}
  {clientIp : IpAddr} {out : Bytes}

/-- The name of a line that was written as a header line. -/
theorem name_of_headerOf {e p : Str × Str} (hcolon : ':' ∉ e.1)
    (hends : CleanEnds isWhitespace e.1) (h : headerOf (headerLine e) = some p) :
    p.1 = toAsciiLowercase e.1 := by
  rw [headerOf_headerLine_trim hcolon, Option.some.injEq] at h
  rw [← h, trim, trimMatches_of_cleanEnds hends]

/-- A header of the client's own is read back as it stands in the map. -/
theorem headerOf_of_get? (hr : WellRead request) {name value : Str}
    (h : request.headers.get? name = some value) :
    headerOf (headerLine (name, value)) = some (name, value) := by
  have hclean := hr.headers _ _ h
  rw [headerOf_headerLine hclean.name_colon hclean.name_ends hclean.value_ends,
    hclean.name_lower]

/-- The names of the lines that the proxy writes itself. -/
def ownNames : List Str :=
  ["Host".toList, "x-forwarded-for".toList, "Connection".toList, "Content-Length".toList]

theorem ownNames_spec {name : Str} (h : name ∈ ownNames) :
    ':' ∉ name ∧ CleanEnds isWhitespace name ∧ ¬ EndToEnd (toAsciiLowercase name) := by
  have hall : ∀ n ∈ ownNames, ':' ∉ n ∧ (n.all fun c => decide (IsGraphic c)) = true ∧
      ¬ EndToEnd (toAsciiLowercase n) := by
    simp only [ownNames, List.forall_mem_cons, List.not_mem_nil, false_imp_iff, implies_true]
    decide
  obtain ⟨hcolon, hgraphic, hown⟩ := hall name h
  exact ⟨hcolon, cleanEnds_of_graphic (forall_mem_of_all hgraphic), hown⟩

/-- A line behind the request line is a header of the client's, or has a name of the proxy's. -/
theorem line_cases {l : Str} (hl : l ∈ (upstreamLines order request upstream clientIp).tail) :
    ∃ e, l = headerLine e ∧ (request.headers.get? e.1 = some e.2 ∨ e.1 ∈ ownNames) := by
  rw [upstreamLines_eq, List.tail_cons, List.mem_cons, List.mem_map] at hl
  rcases hl with rfl | ⟨e, he, rfl⟩
  · exact ⟨_, hostLine_eq upstream, Or.inr (by simp [ownNames])⟩
  · refine ⟨e, rfl, ?_⟩
    simp only [addedHeaders, List.mem_append, List.mem_cons, List.not_mem_nil, or_false] at he
    rcases he with (he | rfl | rfl) | he
    · exact Or.inl (mem_copiedHeaders.mp he).1
    · exact Or.inr (by simp [ownNames])
    · exact Or.inr (by simp [ownNames])
    · rw [(mem_lengthHeaders he).1]
      exact Or.inr (by simp [ownNames])

/-- **A line behind the request line with an end-to-end name is a header of the client's.** -/
theorem get?_of_headerOf (hr : WellRead request) {l name line : Str}
    (hl : l ∈ (upstreamLines order request upstream clientIp).tail)
    (h : headerOf l = some (name, line)) (hend : EndToEnd name) :
    request.headers.get? name = some line := by
  obtain ⟨⟨name', line'⟩, rfl, hget | hown⟩ := line_cases hl
  · rw [headerOf_of_get? hr hget, Option.some.injEq, Prod.mk.injEq] at h
    obtain ⟨rfl, rfl⟩ := h
    exact hget
  · obtain ⟨hcolon, hends, hnot⟩ := ownNames_spec hown
    have hname : name = toAsciiLowercase name' := name_of_headerOf hcolon hends h
    exact absurd (hname ▸ hend) hnot

/-- **The upstream is written what the rules see**, as far as end-to-end headers go. -/
theorem written_iff_visible (hr : WellRead request)
    (hbuild : buildUpstreamRequest order request upstream clientIp = .ok out)
    {e : Str × Str} (hend : EndToEnd e.1) :
    Written order request upstream clientIp out e ↔ Visible (requestMeta request clientIp) e := by
  constructor
  · rintro ⟨-, l, hl, line, hline, hcarried⟩
    exact ⟨line, get?_of_headerOf hr hl hline hend, hcarried⟩
  · rintro ⟨line, hget, hcarried⟩
    have hcopied : (e.1, line) ∈ copiedHeaders order request :=
      mem_copiedHeaders.mpr ⟨hget, hend.1⟩
    refine ⟨(buildUpstreamRequest_eq_ok hbuild).1, headerLine (e.1, line), ?_, line,
      headerOf_of_get? hr hget, hcarried⟩
    rw [upstreamLines_eq, List.tail_cons]
    refine List.mem_cons_of_mem _ (List.mem_map_of_mem ?_)
    simp only [addedHeaders, List.mem_append]
    exact Or.inl (Or.inl hcopied)

/-! ### Requests -/

/-- **Exactly when no end-to-end header is lost**: when the value of each line that is repeated
has arrived in the last line of its name. -/
theorem kept_iff {limits : Limits} {s : Socket} (hread : readHttpRequest limits s = .ok request) :
    Kept s.bytes request ↔
      ∀ lines rest, splitMessage s.bytes = some (lines, rest) → LastCarries lines := by
  have hr := wellRead_of_read hread
  obtain ⟨lines, rest, hsplit, hins⟩ := splitMessage_of_read hread
  rw [Kept, forall_splitMessage_iff hsplit, forall_splitMessage_iff hsplit]
  constructor
  · intro h
    apply (forall_visible_iff localhost hins).mp
    intro e he hend
    exact (h e he hend localhost).1
  · intro h e he hend clientIp
    have hvisible : Visible (requestMeta request clientIp) e :=
      (forall_visible_iff clientIp hins).mpr h e he hend
    refine ⟨hvisible, ?_⟩
    intro order upstream out hbuild
    exact (written_iff_visible hr hbuild hend).mpr hvisible

/-- Nothing is lost when no name is repeated. -/
theorem lastCarries_of_nodup {lines : List Str}
    (h : ((lines.filterMap headerOf).map Prod.fst).Nodup) : LastCarries lines := by
  intro pre name value post heq hend line hline
  rw [heq, List.map_append, List.map_cons, List.nodup_append, List.nodup_cons] at h
  obtain ⟨a, b, rfl, -⟩ := lastOf_eq_some_iff_append.mp hline
  exact absurd (by simp) h.2.1.1

/-- No header of `postSocket` is lost. -/
theorem kept_postSocket : Kept postSocket.bytes postRequest := by
  apply (kept_iff read_postSocket).mpr
  intro lines rest hsplit
  apply lastCarries_of_nodup
  have hnames : (splitMessage postSocket.bytes).map (fun m =>
      decide ((m.1.filterMap headerOf).map Prod.fst).Nodup) = some true := by
    decide +kernel
  rw [hsplit, Option.map_some, Option.some.injEq, decide_eq_true_eq] at hnames
  exact hnames

/-- A request with two cookies. -/
def cookiesSocket : Socket where
  segments := [asBytes "GET / HTTP/1.1\r\nCookie: a=1\r\nCookie: b=2\r\n\r\n".toList]
  nonempty := by decide
  fails := false

/-- The first cookie of `cookiesSocket` is lost. -/
theorem cookie_lost : ¬ ∀ (s : Socket) (request : HttpRequest),
    readHttpRequest .source s = .ok request → Kept s.bytes request := by
  intro h
  have hread : (readHttpRequest .source cookiesSocket).toOption.map
      (fun r => r.headers.get? "cookie".toList) = some (some "b=2".toList) := by
    decide +kernel
  have hsplit : splitMessage cookiesSocket.bytes =
      some (["Cookie: a=1".toList, "Cookie: b=2".toList], []) := by
    decide +kernel
  obtain ⟨request, hrequest, hcookie⟩ := map_toOption_eq_some_iff.mp hread
  obtain ⟨⟨line, hline, hcarried⟩, -⟩ := h _ _ hrequest _ _ hsplit
    ("cookie".toList, "a=1".toList) (by decide) (by decide) localhost
  obtain rfl : line = "b=2".toList := Option.some.inj (hline.symm.trans hcookie)
  exact absurd hcarried (by rw [CarriedBy]; decide)

end Proxy

end Fywaf
