import Fywaf.Crs.Guest
import Fywaf.Wasm.Types

/-!
# From host to guest

The host escapes the strings of a request where JSON asks for it; the guest borrows them from the
text and cannot borrow what is escaped. So a request goes through exactly when nothing in it
needs an escape sequence, and every other request is answered as malformed.

## Main definitions

* `Crs.SameRequest`, `Crs.RoundTrips` — the guest reads what the host has written
* `Crs.PlainRequest` — a request in which nothing is escaped

## Main results

* `Crs.parse_requestJson` — what the guest reads
* `Crs.roundTrips_iff` — exactly when a request goes through
-/

namespace Fywaf

namespace Crs

open Wasm

/-- The guest has read the request. -/
structure SameRequest (req : WasmRequest) (parsed : Request) : Prop where
  method : parsed.method = req.method
  path : parsed.path = req.path
  query : parsed.query = req.query
  userAgent : parsed.userAgent = req.userAgent
  headers : ∀ name, parsed.headers.get? name = req.headers.get? name
  body : parsed.body = req.body

/-- The JSON of the request is read as the same request, and with that JSON in the request buffer
the guest does not answer as if it were malformed. -/
def RoundTrips (serializer : Serializer) (regex : RegexNew) (rules : Option (List Rule))
    (req : WasmRequest) : Prop :=
  (∃ parsed, Request.parse serializer.codec (serializer.requestJson req) = some parsed ∧
    SameRequest req parsed) ∧
  ∀ reqBuf : Buffer, asBytes (serializer.requestJson req) <+: reqBuf.bytes →
    answer serializer.codec regex rules reqBuf
      (Int32.ofNat (asBytes (serializer.requestJson req)).length) ≠ .badRequest

/-- Nothing that the guest reads of a request is escaped, and no parameter is nested too deep. -/
structure PlainRequest (req : WasmRequest) : Prop where
  method : IsPlain req.method
  path : IsPlain req.path
  query : ∀ s ∈ req.query, IsPlain s
  userAgent : ∀ s ∈ req.userAgent, IsPlain s
  headers : ∀ e ∈ req.headers.entries, IsPlain e.1 ∧ IsPlain e.2
  body : ∀ s ∈ req.body, IsPlain s
  params : ∀ e ∈ req.params.entries, IsPlain e.1 ∧ 2 + e.2.depth ≤ recursionLimit

variable {serializer : Serializer} {req : WasmRequest}

/-! ### Fields -/

theorem nodup_fields : ((req.fields serializer).map Prod.fst).Nodup := by
  rw [WasmRequest.fields]
  split <;> simp

/-- The fields that are always written. -/
theorem mem_fields {name : String} {value : Json}
    (h : (name, value) ∈ [("method", .string req.method), ("path", .string req.path),
      ("query", optionJson req.query), ("user_agent", optionJson req.userAgent),
      ("headers", .object ((serializer.headerOrder.iter req.headers).map fun e =>
        (e.1, .string e.2))), ("body", optionJson req.body)]) :
    (name, value) ∈ req.fields serializer := by
  refine List.mem_append_left _ (List.mem_cons_of_mem _ h)

section Read

variable {α : Type} {index : ℕ} {name : String} {value : Json} {read : Token → Option α}
  {inObject inArray : Option α}

theorem readField_request (h : (name, value) ∈ req.fields serializer) :
    readField index name read inObject inArray (req.toJson serializer).tokens =
      read value.tokens :=
  readField_writeStruct nodup_fields h

end Read

/-- The headers are read when all of them are plain. -/
theorem readMap_headers {headers : BTreeMap Str Str} :
    readMap readBorrowed (Json.object ((serializer.headerOrder.iter req.headers).map fun e =>
        (e.1, .string e.2))).tokens = some headers ↔
      (∀ e ∈ req.headers.entries, IsPlain e.1 ∧ IsPlain e.2) ∧
        headers = BTreeMap.empty.insertAll (serializer.headerOrder.iter req.headers) := by
  have hread : ∀ s t : Str, readBorrowed (Json.string s).tokens = some t ↔ IsPlain s ∧ t = s :=
    fun s t => readBorrowed_string
  rw [readMap_object hread]
  simp only [serializer.headerOrder.mem_iter, List.map_id']

/-- The parameters are read when their names are plain and their values not too deep; without
parameters there is nothing to read. -/
theorem readParams {params : BTreeMap Str Token} :
    readDefault 6 "params" (readMap (readAny 2)) .empty (req.toJson serializer).tokens =
        some params ↔
      (∀ e ∈ req.params.entries, IsPlain e.1 ∧ 2 + e.2.depth ≤ recursionLimit) ∧
        params = BTreeMap.empty.insertAll
          ((serializer.paramOrder.iter req.params).map fun e => (e.1, e.2.tokens)) := by
  by_cases hnone : req.params.entries = []
  · have hmem : "params" ∉ (req.fields serializer).map Prod.fst := by
      rw [WasmRequest.fields, if_pos hnone]
      simp
    have hiter : serializer.paramOrder.iter req.params = [] :=
      List.perm_nil.mp (hnone ▸ serializer.paramOrder.perm req.params)
    rw [readDefault, WasmRequest.toJson, readField_writeStruct_of_not_mem hmem, hnone, hiter,
      Option.some.injEq, eq_comm]
    exact (and_iff_right fun e he => by cases he).symm
  · have hmem : ("params", Json.object (serializer.paramOrder.iter req.params)) ∈
        req.fields serializer := by
      rw [WasmRequest.fields, if_neg hnone]
      exact List.mem_append_right _ List.mem_cons_self
    rw [readDefault, readField_request hmem]
    have hread : ∀ (j : Json) (t : Token), readAny 2 j.tokens = some t ↔
        2 + j.depth ≤ recursionLimit ∧ t = j.tokens := fun j t => readAny_tokens
    have hmap : serializer.paramOrder.iter req.params =
        (serializer.paramOrder.iter req.params).map fun e => (e.1, e.2) := (List.map_id' _).symm
    rw [hmap, readMap_object hread]
    simp only [serializer.paramOrder.mem_iter, List.map_map, Function.comp_def]

/-! ### Requests -/

/-- What the guest reads of a request. -/
def guestRequest (serializer : Serializer) (req : WasmRequest) : Request where
  method := req.method
  path := req.path
  query := req.query
  userAgent := req.userAgent
  headers := BTreeMap.empty.insertAll (serializer.headerOrder.iter req.headers)
  body := req.body
  params := BTreeMap.empty.insertAll
    ((serializer.paramOrder.iter req.params).map fun e => (e.1, e.2.tokens))

/-- **What the guest reads**: the request, when it is plain. -/
theorem ofToken_toJson {parsed : Request} :
    Request.ofToken (req.toJson serializer).tokens = some parsed ↔
      PlainRequest req ∧ parsed = guestRequest serializer req := by
  have hstruct : isStruct 7 (req.toJson serializer).tokens = true := rfl
  have hmethod : readDefault 0 "method" readBorrowed [] (req.toJson serializer).tokens =
      readBorrowed (Json.string req.method).tokens := readField_request (mem_fields (by simp))
  have hpath : readDefault 1 "path" readBorrowed [] (req.toJson serializer).tokens =
      readBorrowed (Json.string req.path).tokens := readField_request (mem_fields (by simp))
  have hquery : readOptional 2 "query" readBorrowed (req.toJson serializer).tokens =
      readNullable readBorrowed (optionJson req.query).tokens :=
    readField_request (mem_fields (by simp))
  have hagent : readOptional 3 "user_agent" readBorrowed (req.toJson serializer).tokens =
      readNullable readBorrowed (optionJson req.userAgent).tokens :=
    readField_request (mem_fields (by simp))
  have hheaders : readDefault 4 "headers" (readMap readBorrowed) .empty
      (req.toJson serializer).tokens = readMap readBorrowed
        (Json.object ((serializer.headerOrder.iter req.headers).map fun e =>
          (e.1, .string e.2))).tokens := readField_request (mem_fields (by simp))
  have hbody : readOptional 5 "body" readBorrowed (req.toJson serializer).tokens =
      readNullable readBorrowed (optionJson req.body).tokens :=
    readField_request (mem_fields (by simp))
  rw [Request.ofToken, if_pos hstruct, hmethod, hpath, hquery, hagent, hheaders, hbody]
  simp only [Option.bind_eq_some_iff, Option.map_eq_some_iff, readBorrowed_string,
    readNullable_optionJson, readMap_headers, readParams]
  constructor
  · rintro ⟨_, ⟨h₁, rfl⟩, _, ⟨h₂, rfl⟩, _, ⟨h₃, rfl⟩, _, ⟨h₄, rfl⟩, _, ⟨h₅, rfl⟩, _, ⟨h₆, rfl⟩,
      _, ⟨h₇, rfl⟩, rfl⟩
    exact ⟨⟨h₁, h₂, h₃, h₄, h₅, h₆, h₇⟩, rfl⟩
  · rintro ⟨⟨h₁, h₂, h₃, h₄, h₅, h₆, h₇⟩, rfl⟩
    exact ⟨_, ⟨h₁, rfl⟩, _, ⟨h₂, rfl⟩, _, ⟨h₃, rfl⟩, _, ⟨h₄, rfl⟩, _, ⟨h₅, rfl⟩, _, ⟨h₆, rfl⟩,
      _, ⟨h₇, rfl⟩, rfl⟩

theorem parse_requestJson (hcodec : serializer.codec.Lawful) {parsed : Request} :
    Request.parse serializer.codec (serializer.requestJson req) = some parsed ↔
      PlainRequest req ∧ parsed = guestRequest serializer req := by
  rw [Request.parse, Serializer.requestJson, hcodec, Option.bind_some, ofToken_toJson]

/-- Looking a header up in the guest is looking it up in the host. -/
theorem sameRequest_guestRequest : SameRequest req (guestRequest serializer req) where
  method := rfl
  path := rfl
  query := rfl
  userAgent := rfl
  headers name := by
    have hempty : (BTreeMap.empty : BTreeMap Str Str).get? name = none := rfl
    rw [guestRequest, BTreeMap.get?_insertAll, hempty, Option.or_none]
    refine Option.ext fun value => ?_
    -- the ordered map compares keys by their order, the hash map by their characters
    refine (@lastOf_eq_some_iff _ _ LinearOrder.toDecidableEq _ _
      (serializer.headerOrder.nodup_iter req.headers) _).trans ?_
    rw [serializer.headerOrder.mem_iter, HashMap.get?_eq_some_iff]
  body := rfl

/-! ### The request buffer -/

theorem requestBytes_of_prefix {json : Bytes} (hlen : json.length ≤ bufLen) {reqBuf : Buffer}
    (h : json <+: reqBuf.bytes) : requestBytes reqBuf (Int32.ofNat json.length) = json := by
  have hbuf : bufLen = 65536 := rfl
  have hnat : (Int32.ofNat json.length).toUInt32.toNat = json.length := by
    have hclamp : (Int32.ofNat json.length).toNatClampNeg = json.length :=
      Int32.toNatClampNeg_ofNat_of_lt (by omega)
    rw [Int32.toNat_toUInt32_of_le (Int32.le_iff_toInt_le.mpr ?_), hclamp]
    have htoInt := Int32.toInt_ofNat_of_lt (show json.length < 2 ^ 31 by omega)
    rw [htoInt]
    exact Int.natCast_nonneg _
  rw [requestBytes, hnat, Nat.min_eq_left hlen]
  exact (List.prefix_iff_eq_take.mp h).symm

/-- **Exactly when a request goes through**: when nothing that the guest reads of it is escaped. -/
theorem roundTrips_iff (hcodec : serializer.codec.Lawful)
    (hlen : (asBytes (serializer.requestJson req)).length ≤ bufLen) (regex : RegexNew)
    (rules : Option (List Rule)) :
    RoundTrips serializer regex rules req ↔ PlainRequest req := by
  constructor
  · rintro ⟨⟨parsed, hparsed, -⟩, -⟩
    exact ((parse_requestJson hcodec).mp hparsed).1
  · intro hplain
    have hparsed := (parse_requestJson hcodec).mpr
      ⟨hplain, (rfl : guestRequest serializer req = guestRequest serializer req)⟩
    refine ⟨⟨_, hparsed, sameRequest_guestRequest⟩, fun reqBuf hpre => ?_⟩
    rw [answer, requestBytes_of_prefix hlen hpre, fromUtf8_asBytes]
    simp only [hparsed]
    exact runRules_ne_badRequest regex rules _

/-! ### Two requests -/

/-- A request for the front page, from some user agent. -/
def pageRequest (userAgent : Str) : WasmRequest where
  clientIp := "127.0.0.1".toList
  method := "GET".toList
  path := "/".toList
  query := none
  userAgent := some userAgent
  headers := ⟨[("user-agent".toList, userAgent)], List.nodup_singleton _⟩
  body := none
  params := .empty

/-- A request without anything to escape. -/
theorem roundTrips_pageRequest :
    (asBytes (Serializer.compact.requestJson (pageRequest "curl".toList))).length ≤ bufLen ∧
    (RoundTrips .compact (fun _ => none) (some []) (pageRequest "curl".toList) ↔
      PlainRequest (pageRequest "curl".toList)) := by
  have hlen : (asBytes (Serializer.compact.requestJson (pageRequest "curl".toList))).length ≤
      bufLen := by
    decide +kernel
  exact ⟨hlen, roundTrips_iff lawful_compactJson hlen _ _⟩

/-- A quotation mark in the user agent is enough for a request to be answered as malformed. -/
theorem quoted_userAgent_refused : ¬ ∀ (serializer : Serializer) (regex : RegexNew)
    (rules : Option (List Rule)) (req : WasmRequest), serializer.codec.Lawful →
    (asBytes (serializer.requestJson req)).length ≤ bufLen →
    RoundTrips serializer regex rules req := by
  intro h
  have hlen : (asBytes (Serializer.compact.requestJson (pageRequest "\"curl\"".toList))).length ≤
      bufLen := by
    decide +kernel
  obtain ⟨⟨parsed, hparsed, -⟩, -⟩ :=
    h .compact (fun _ => none) (some []) (pageRequest "\"curl\"".toList) lawful_compactJson hlen
  have hplain := ((parse_requestJson lawful_compactJson).mp hparsed).1
  exact absurd (hplain.userAgent _ rfl '"' (by decide)) (by decide)

end Crs

end Fywaf
