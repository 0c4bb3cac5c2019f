import Fywaf.Proxy.Gate

/-!
# What a request can cost

A client can send for ever. The header loop stops at its limit and the body loop at the declared
length, which has a limit too; so there is a number of bytes behind which nothing that the client
sends is read, whatever it has sent before and however it was cut. What the connection does is
settled by then.

## Main definitions

* `Proxy.Socket.AgreeFor` — two connections that begin alike
* `Proxy.requestBound` — the bytes that a request can take

## Main results

* `Proxy.headerLoop_agree`, `Proxy.bodyLoop_agree` — the loops read the same of both
* `Proxy.handleConnection_bounded` — **nothing behind the bound is looked at**
-/

namespace Fywaf

namespace Proxy

open Wasm

/-- The connections deliver the same pieces, and then what they like, for at least `n` bytes. -/
def Socket.AgreeFor (n : ℕ) (s s' : Socket) : Prop :=
  ∃ front back back', s.segments = front ++ back ∧ s'.segments = front ++ back' ∧
    n ≤ front.flatten.length

section Agree

variable {n k : ℕ} {s s' : Socket}

theorem Socket.AgreeFor.mono {m : ℕ} (h : s.AgreeFor n s') (hle : m ≤ n) : s.AgreeFor m s' := by
  obtain ⟨front, back, back', hs, hs', hn⟩ := h
  exact ⟨front, back, back', hs, hs', hle.trans hn⟩

/-- **A read gives the same of both**, as long as they agree. -/
theorem Socket.AgreeFor.read (h : s.AgreeFor n s') (hn : 0 < n) (hk : 0 < k) :
    ∃ chunk r r', s.read k = some (chunk, r) ∧ s'.read k = some (chunk, r') ∧ chunk ≠ [] ∧
      chunk.length ≤ k ∧ r.AgreeFor (n - chunk.length) r' ∧
      r.bytes.length < s.bytes.length ∧ r'.bytes.length < s'.bytes.length := by
  obtain ⟨front, back, back', hs, hs', hlen⟩ := h
  obtain ⟨segments, hne, fails⟩ := s
  obtain ⟨segments', hne', fails'⟩ := s'
  cases hs
  cases hs'
  cases front with
  | nil => exact absurd hlen (Nat.not_le_of_gt hn)
  | cons seg front =>
    have hseg : seg ≠ [] := hne seg List.mem_cons_self
    have hpos : 0 < seg.length := List.length_pos_of_ne_nil hseg
    rw [List.flatten_cons, List.length_append] at hlen
    by_cases hle : seg.length ≤ k
    · refine ⟨seg, _, _, dif_pos hle, dif_pos hle, hseg, hle, ⟨front, back, back', rfl, rfl, ?_⟩,
        ?_, ?_⟩
      · omega
      · simp [bytes, hpos]
      · simp [bytes, hpos]
    · have htake : (seg.take k).length = k := List.length_take_of_le (by omega)
      refine ⟨seg.take k, _, _, dif_neg hle, dif_neg hle, ?_, htake.le,
        ⟨seg.drop k :: front, back, back', rfl, rfl, ?_⟩, ?_, ?_⟩
      · exact List.ne_nil_of_length_pos (by omega)
      · rw [htake, List.flatten_cons, List.length_append, List.length_drop]
        omega
      · simp [bytes]
        omega
      · simp [bytes]
        omega

end Agree

/-! ### The reader -/

section Reader

variable {limits : Limits} {limit size : ℕ}

/-- **The header loop reads the same of both**, and leaves as much as it has not read. -/
theorem headerLoop_agree (hheader : limits.header = some limit) : ∀ {fuel fuel' n : ℕ}
    {buffer : Bytes} {s s' : Socket}, s.bytes.length < fuel → s'.bytes.length < fuel' →
    s.AgreeFor n s' → limit + headerChunk + size ≤ buffer.length + n →
    (∃ e, headerLoop limits fuel buffer s = .error e ∧
      headerLoop limits fuel' buffer s' = .error e) ∨
    ∃ whole pos r r', headerLoop limits fuel buffer s = .ok (whole, pos, r) ∧
      headerLoop limits fuel' buffer s' = .ok (whole, pos, r') ∧ r.AgreeFor size r' := by
  intro fuel
  induction fuel with
  | zero => exact fun h => absurd h (Nat.not_lt_zero _)
  | succ fuel ih =>
    intro fuel' n buffer s s' hfuel hfuel' hagree hbudget
    obtain ⟨fuel', rfl⟩ := Nat.exists_eq_succ_of_ne_zero (Nat.ne_zero_of_lt hfuel')
    rw [headerLoop, headerLoop]
    cases hover : overLimit limits.header .headersTooLarge buffer.length with
    | some e => exact Or.inl ⟨e, rfl, rfl⟩
    | none =>
      have hsmall : buffer.length ≤ limit := by
        by_contra hlt
        exact overLimit_eq_none_iff.mp hover ⟨limit, hheader, by omega⟩
      have hchunk : 0 < headerChunk := by decide
      obtain ⟨chunk, r, r', hread, hread', hne, hle, hrest, hlt, hlt'⟩ :=
        hagree.read (k := headerChunk) (by omega) hchunk
      simp only [hread, hread', if_neg hne]
      cases hend : findHeaderEnd (buffer ++ chunk) with
      | some pos => exact Or.inr ⟨_, pos, r, r', rfl, rfl, hrest.mono (by omega)⟩
      | none =>
        refine ih (by omega) (by omega) hrest ?_
        rw [List.length_append]
        omega

/-- **The body loop reads the same of both**, when it needs no more than they have alike. -/
theorem bodyLoop_agree {length : ℕ} : ∀ {fuel fuel' n : ℕ} {body : Bytes} {s s' : Socket},
    s.bytes.length < fuel → s'.bytes.length < fuel' → s.AgreeFor n s' →
    length ≤ body.length + n → bodyLoop length fuel body s = bodyLoop length fuel' body s' := by
  intro fuel
  induction fuel with
  | zero => exact fun h => absurd h (Nat.not_lt_zero _)
  | succ fuel ih =>
    intro fuel' n body s s' hfuel hfuel' hagree hbudget
    obtain ⟨fuel', rfl⟩ := Nat.exists_eq_succ_of_ne_zero (Nat.ne_zero_of_lt hfuel')
    rw [bodyLoop, bodyLoop]
    by_cases hmore : body.length < length
    · obtain ⟨chunk, r, r', hread, hread', hne, hle, hrest, hlt, hlt'⟩ :=
        hagree.read (k := length - body.length) (by omega) (by omega)
      simp only [if_pos hmore, hread, hread', if_neg hne]
      refine ih (by omega) (by omega) hrest ?_
      rw [List.length_append]
      omega
    · rw [if_neg hmore, if_neg hmore]

/-- The declared length passed its check. -/
theorem contentLength_le {headerBytes : Bytes} {head : RequestHead}
    (h : parseHead limits headerBytes = .ok head) (hbody : limits.body = some size) :
    head.contentLength ≤ size := by
  rw [parseHead] at h
  cases htext : fromUtf8 headerBytes with
  | none =>
    rw [htext] at h
    cases h
  | some text =>
    rw [htext] at h
    obtain ⟨_, _, -, -, -, -, hcheck⟩ := parseHeadLines_eq_ok_iff.mp h
    exact (checkHeaders_eq_ok_iff.mp hcheck).2.2 size hbody

/-- **A request is read off the bytes up to the bound.** -/
theorem readHttpRequest_bounded (hheader : limits.header = some limit)
    (hbody : limits.body = some size) {s s' : Socket}
    (h : s.AgreeFor (limit + headerChunk + size) s') :
    readHttpRequest limits s = readHttpRequest limits s' := by
  have hbudget : limit + headerChunk + size ≤ ([] : Bytes).length + (limit + headerChunk + size) :=
    Nat.le_add_left _ _
  rw [readHttpRequest, readHttpRequest, readHeader, readHeader]
  rcases headerLoop_agree hheader (Nat.lt_succ_self _) (Nat.lt_succ_self _) h hbudget with
    ⟨e, hrun, hrun'⟩ | ⟨whole, pos, r, r', hrun, hrun', hrest⟩
  · rw [hrun, hrun']
  · rw [hrun, hrun']
    dsimp only
    cases hhead : parseHead limits (whole.take pos) with
    | error e => rfl
    | ok head =>
      have hlength := contentLength_le hhead hbody
      dsimp only
      rw [readBody, readBody, bodyLoop_agree (Nat.lt_succ_self _) (Nat.lt_succ_self _) hrest
        (by omega)]

end Reader

/-! ### The connection -/

/-- The bytes that a request can take: a full buffer, one read more, and the largest body. -/
def requestBound : ℕ := maxHeaderSize + headerChunk + maxBodySize

variable {σ : Type} {engine : WafEngine σ} {serializer : Serializer} {order : HashOrder Str Str}
  {site : Site} {peers : Peers}

/-- **Nothing behind the bound is looked at**: what a connection does, to the upstream and to the
client, is settled by the bytes of the client up to the bound. -/
theorem handleConnection_bounded {s : Socket} (h : peers.request.AgreeFor requestBound s) :
    handleConnection engine serializer order site peers =
      handleConnection engine serializer order site { peers with request := s } := by
  have hread : readHttpRequest .source peers.request = readHttpRequest .source s :=
    readHttpRequest_bounded rfl rfl h
  unfold handleConnection
  rw [hread]
  rfl

/-- A client that sends as many bytes as a request can take, and then something else. -/
def flood (last : UInt8) : Socket where
  segments := [List.replicate requestBound 0, [last]]
  nonempty := by
    have hpos : requestBound ≠ 0 := by decide
    simp [hpos]
  fails := false

/-- What comes last is not looked at. -/
theorem handleConnection_flood :
    handleConnection allowEngine .compact .stored apiSite (openPeers (flood 1)) =
      handleConnection allowEngine .compact .stored apiSite
        { openPeers (flood 1) with request := flood 2 } := by
  refine handleConnection_bounded ⟨[List.replicate requestBound 0], [[1]], [[2]], rfl, rfl, ?_⟩
  rw [List.flatten_singleton, List.length_replicate]

end Proxy

end Fywaf
