import Fywaf.Proxy.Http

/-!
# What the reader makes of a stream

What `read_http_request` returns depends on the stream, and on one number more: how far the header
loop has read past the blank line. The bytes it read too many are kept as body even where the
declared length is smaller, and the size limit is only looked at between two reads. So whether the
cuts of the stream matter can be read off the stream.

## Main definitions

* `Proxy.SegmentationFree` — the streams for which the cuts do not matter

## Main results

* `Proxy.headerLoop_spec` — what the header loop does, from any state
* `Proxy.bodyLoop_spec` — the body loop in closed form
* `Proxy.readHttpRequest_cases` — the reader as a function of the stream and the over-read
* `Proxy.segmentation_free_iff` — when two ways of cutting cannot differ
-/

namespace Fywaf

namespace Proxy

/-! ### Reads -/

namespace Socket

/-- A read of at least one byte either finds the end of the stream, or takes between one and `n`
bytes off its front. -/
theorem read_cases {n : ℕ} (hn : 0 < n) (s : Socket) :
    (s.bytes = [] ∧ (s.read n = none ∨ s.read n = some ([], s))) ∨
      ∃ chunk s', s.read n = some (chunk, s') ∧ chunk ≠ [] ∧ chunk.length ≤ n ∧
        s.bytes = chunk ++ s'.bytes := by
  obtain ⟨segments, hne, fails⟩ := s
  cases segments with
  | nil =>
    refine Or.inl ⟨rfl, ?_⟩
    cases fails
    · exact Or.inr rfl
    · exact Or.inl rfl
  | cons seg rest =>
    refine Or.inr ?_
    by_cases hle : seg.length ≤ n
    · exact ⟨seg, _, dif_pos hle, hne seg List.mem_cons_self, hle, rfl⟩
    · refine ⟨seg.take n, _, dif_neg hle, ?_, List.length_take_le n seg, ?_⟩
      · exact List.ne_nil_of_length_pos (by rw [List.length_take]; omega)
      · simp only [bytes, List.flatten_cons, ← List.append_assoc, List.take_append_drop]

/-- The bytes `l`, each in a piece of its own, and then the pieces of `s`. -/
def drip : Bytes → Socket → Socket
  | [], s => s
  | b :: l, s => ⟨[b] :: (drip l s).segments, fun x hx => by
      rcases List.mem_cons.mp hx with rfl | hx
      · exact List.cons_ne_nil b []
      · exact (drip l s).nonempty x hx, s.fails⟩

/-- A piece in front of a socket. -/
def push (chunk : Bytes) (s : Socket) : Socket :=
  if h : chunk = [] then s
  else ⟨chunk :: s.segments, fun x hx => by
    rcases List.mem_cons.mp hx with rfl | hx
    · exact h
    · exact s.nonempty x hx, s.fails⟩

/-- A connection that ends at once. -/
def closed : Socket := ⟨[], fun _ h => absurd h List.not_mem_nil, false⟩

@[simp] theorem bytes_closed : closed.bytes = [] := rfl

@[simp] theorem bytes_push (chunk : Bytes) (s : Socket) :
    (push chunk s).bytes = chunk ++ s.bytes := by
  rw [push]
  split
  · next h => rw [h]; rfl
  · rfl

@[simp] theorem fails_drip (l : Bytes) (s : Socket) : (drip l s).fails = s.fails := by
  cases l <;> rfl

@[simp] theorem bytes_drip (l : Bytes) (s : Socket) : (drip l s).bytes = l ++ s.bytes := by
  induction l with
  | nil => rfl
  | cons b l ih => exact congrArg (b :: ·) ih

theorem drip_append (l m : Bytes) (s : Socket) : drip (l ++ m) s = drip l (drip m s) := by
  induction l with
  | nil => rfl
  | cons b l ih => simp only [List.cons_append, drip, ih, fails_drip]

theorem read_push {n : ℕ} {chunk : Bytes} (h : chunk ≠ []) (hle : chunk.length ≤ n) (s : Socket) :
    (push chunk s).read n = some (chunk, s) := by
  rw [push, dif_neg h, read, dif_pos hle]

theorem read_drip_cons {n : ℕ} (hn : 0 < n) (b : UInt8) (l : Bytes) (s : Socket) :
    (drip (b :: l) s).read n = some ([b], drip l s) := by
  rw [drip, read, dif_pos (show [b].length ≤ n from hn)]
  congr 2
  rw [← fails_drip l s]

end Socket

/-! ### The header loop -/

section Header

variable {limits : Limits}

/-- The limit on the buffer is passed. -/
def overHeader (limits : Limits) (n : ℕ) : Prop := ∃ m ∈ limits.header, m < n

theorem overLimit_eq_none_iff {limit : Option ℕ} {err : ℕ → ReadError} {n : ℕ} :
    overLimit limit err n = none ↔ ¬ ∃ m ∈ limit, m < n := by
  cases limit <;> simp [overLimit]

/-- **What the header loop does**, started with a buffer that has no blank line: it stops at the
blank line of the stream, after a last read of at most `headerChunk` bytes; or the stream has no
blank line; or the buffer outgrew the limit before the blank line. -/
theorem headerLoop_spec : ∀ {fuel : ℕ} {buffer : Bytes} {stream : Socket},
    stream.bytes.length < fuel → findHeaderEnd buffer = none →
    (∃ p chunk pos stream', headerLoop limits fuel buffer stream = .ok (p ++ chunk, pos, stream') ∧
      buffer <+: p ∧ findHeaderEnd p = none ∧ ¬ overHeader limits p.length ∧
      chunk.length ≤ headerChunk ∧ findHeaderEnd (p ++ chunk) = some pos ∧
      buffer ++ stream.bytes = p ++ chunk ++ stream'.bytes) ∨
    ((∃ e, headerLoop limits fuel buffer stream = .error e) ∧
      (findHeaderEnd (buffer ++ stream.bytes) = none ∨
        ∃ p, p <+: buffer ++ stream.bytes ∧ findHeaderEnd p = none ∧
          overHeader limits p.length)) := by
  intro fuel
  induction fuel with
  | zero => intro _ _ h _; exact absurd h (Nat.not_lt_zero _)
  | succ fuel ih =>
    intro buffer stream hfuel hnone
    rw [headerLoop]
    split
    · next e he =>
      have hover : overHeader limits buffer.length := by
        by_contra h
        rw [overLimit_eq_none_iff.mpr h] at he
        cases he
      exact Or.inr ⟨⟨e, rfl⟩, Or.inr ⟨buffer, List.prefix_append _ _, hnone, hover⟩⟩
    · next hok =>
      have hok := overLimit_eq_none_iff.mp hok
      rcases stream.read_cases (n := headerChunk) (by decide) with
        ⟨hend, hread | hread⟩ | ⟨chunk, stream', hread, hchunk, hle, hbytes⟩
      · rw [hread, hend, List.append_nil]
        exact Or.inr ⟨⟨_, rfl⟩, Or.inl hnone⟩
      · rw [hread, hend, List.append_nil]
        exact Or.inr ⟨⟨_, rfl⟩, Or.inl hnone⟩
      · simp only [hread, if_neg hchunk]
        split
        · next pos hpos =>
          exact Or.inl ⟨buffer, chunk, pos, stream', rfl, List.prefix_refl _, hnone, hok, hle, hpos,
            by rw [hbytes, List.append_assoc]⟩
        · next hpos =>
          have hlt : stream'.bytes.length < fuel := by
            have := congrArg List.length hbytes
            have := List.length_pos_of_ne_nil hchunk
            rw [List.length_append] at *
            omega
          rw [hbytes, ← List.append_assoc]
          rcases ih hlt hpos with ⟨p, c, pos, s', hrun, hpre, h⟩ | h
          · exact Or.inl ⟨p, c, pos, s', hrun, (List.prefix_append _ _).trans hpre, h⟩
          · exact Or.inr h

/-- Single bytes before the blank line only fill the buffer, as long as it is under the limit. -/
theorem headerLoop_drip {fuel : ℕ} {s : Socket} : ∀ {q buffer : Bytes},
    findHeaderEnd (buffer ++ q) = none →
    (∀ n < (buffer ++ q).length, ¬ overHeader limits n) →
    headerLoop limits (q.length + fuel) buffer (Socket.drip q s) =
      headerLoop limits fuel (buffer ++ q) s
  | [], buffer, _, _ => by rw [List.append_nil, List.length_nil, Nat.zero_add]; rfl
  | b :: q, buffer, hnone, hlim => by
    have hcut : buffer ++ b :: q = (buffer ++ [b]) ++ q := List.append_cons buffer b q
    have hfront : findHeaderEnd (buffer ++ [b]) = none := by
      rw [hcut] at hnone
      refine Option.eq_none_iff_forall_ne_some.mpr fun pos hpos => ?_
      rw [findHeaderEnd, findSub_append_of_some hpos q] at hnone
      cases hnone
    have hok : ¬ overHeader limits buffer.length :=
      hlim _ (by rw [List.length_append, List.length_cons]; omega)
    rw [hcut] at hnone hlim
    rw [List.length_cons, show q.length + 1 + fuel = q.length + fuel + 1 by omega, headerLoop,
      overLimit_eq_none_iff.mpr hok]
    simp only [Socket.read_drip_cons (show 0 < headerChunk by decide),
      if_neg (List.cons_ne_nil b []),
      hfront]
    rw [headerLoop_drip hnone hlim, ← hcut]

end Header

/-! ### The body loop -/

/-- The body loop stops with the declared length, or with what it started with when that is
already longer; or the stream ends before. -/
theorem bodyLoop_spec {length : ℕ} : ∀ {fuel : ℕ} {body : Bytes} {stream : Socket},
    stream.bytes.length < fuel →
    (bodyLoop length fuel body stream).toOption =
      if length ≤ body.length + stream.bytes.length then
        some (body ++ stream.bytes.take (length - body.length))
      else none := by
  intro fuel
  induction fuel with
  | zero => intro _ _ h; exact absurd h (Nat.not_lt_zero _)
  | succ fuel ih =>
    intro body stream hfuel
    rw [bodyLoop]
    by_cases hlt : body.length < length
    · rw [if_pos hlt]
      rcases stream.read_cases (n := length - body.length) (by omega) with
        ⟨hend, hread⟩ | ⟨chunk, stream', hread, hchunk, hle, hbytes⟩
      · rw [hend, List.length_nil, if_neg (by omega)]
        rcases hread with hread | hread <;> rw [hread] <;> rfl
      · have hpos := List.length_pos_of_ne_nil hchunk
        have hlen := congrArg List.length hbytes
        rw [List.length_append] at hlen
        simp only [hread, if_neg hchunk]
        rw [ih (by omega), List.length_append, hbytes, List.length_append, List.take_append,
          List.take_of_length_le hle, List.append_assoc, Nat.add_assoc]
        rw [show length - (body.length + chunk.length) =
          length - body.length - chunk.length by omega]
    · rw [if_neg hlt, if_pos (by omega), show length - body.length = 0 by omega, List.take_zero,
        List.append_nil]
      rfl

/-! ### The whole reader -/

variable {limits : Limits}

/-- What is read of a stream whose blank line is at `pos`, when the header loop has read `ahead`
bytes past the blank line. -/
def outcome (limits : Limits) (stream : Bytes) (pos ahead : ℕ) : Option HttpRequest :=
  (parseHead limits (stream.take pos)).toOption.bind fun head =>
    if pos + 4 + head.contentLength ≤ stream.length then
      some ⟨head.method, head.path, head.version, head.headers,
        (stream.drop (pos + 4)).take (max ahead head.contentLength)⟩
    else none

theorem length_of_findHeaderEnd {l : Bytes} {pos : ℕ} (h : findHeaderEnd l = some pos) :
    pos + 4 ≤ l.length := by
  have hlen := congrArg List.length (eq_of_findSub h)
  have hle := (findSub_eq_some_iff.mp h).2.1
  simp only [List.length_append, List.length_take, Nat.min_eq_left hle, blankLine,
    List.length_cons, List.length_nil] at hlen
  omega

theorem findHeaderEnd_take_iff {l : Bytes} {pos n : ℕ} (h : findHeaderEnd l = some pos)
    (hn : n ≤ l.length) : findHeaderEnd (l.take n) = none ↔ n < pos + 4 := by
  rw [← List.take_append_drop n l] at h
  have := findSub_append_iff h
  rw [List.length_take, Nat.min_eq_left hn, ← Option.isSome_iff_exists] at this
  rw [findHeaderEnd, ← Option.not_isSome_iff_eq_none, this, blankLine]
  simp only [List.length_cons, List.length_nil]
  omega

/-- What is there in any case, and what is missing to `n`. -/
theorem take_max_append {α : Type*} (l l' : List α) (n : ℕ) :
    (l ++ l').take (max l.length n) = l ++ l'.take (n - l.length) := by
  rw [List.take_append, List.take_of_length_le (Nat.le_max_left _ _)]
  congr 2
  omega

/-- The reader behind the header loop. -/
theorem toOption_of_readHeader {s s' : Socket} {buffer stream : Bytes} {pos : ℕ}
    (h : readHeader limits s = .ok (buffer, pos, s')) (hbytes : buffer ++ s'.bytes = stream)
    (hpos : findHeaderEnd buffer = some pos) :
    (readHttpRequest limits s).toOption =
      outcome limits stream pos (buffer.length - (pos + 4)) := by
  have hlen := length_of_findHeaderEnd hpos
  have htake : stream.take pos = buffer.take pos := by
    rw [← hbytes, List.take_append_of_le_length (by omega)]
  simp only [readHttpRequest, h, outcome, htake]
  cases hhead : parseHead limits (buffer.take pos) with
  | error e => simp only [Except.toOption, Option.bind_none]
  | ok head =>
    have hbody : (bodyLoop head.contentLength _ (buffer.drop (pos + 4)) s').toOption = _ :=
      bodyLoop_spec (Nat.lt_succ_self s'.bytes.length)
    have hstream : stream.length = buffer.length + s'.bytes.length := by
      rw [← hbytes, List.length_append]
    have hrest : stream.drop (pos + 4) = buffer.drop (pos + 4) ++ s'.bytes := by
      rw [← hbytes, List.drop_append_of_le_length hlen]
    rw [List.length_drop] at hbody
    have hcond : head.contentLength ≤ buffer.length - (pos + 4) + s'.bytes.length ↔
        pos + 4 + head.contentLength ≤ stream.length := by omega
    have htaken := take_max_append (buffer.drop (pos + 4)) s'.bytes head.contentLength
    rw [← hrest, List.length_drop] at htaken
    simp only [Except.toOption, Option.bind_some, htaken, readBody]
    simp only [hcond] at hbody
    generalize bodyLoop head.contentLength (s'.bytes.length + 1) (buffer.drop (pos + 4)) s' = res
      at hbody ⊢
    split at hbody
    · next hc =>
      rw [if_pos hc]
      cases res with
      | error e => cases hbody
      | ok body => rw [show body = _ from Option.some.inj hbody]
    · next hc =>
      rw [if_neg hc]
      cases res with
      | error e => rfl
      | ok body => cases hbody

/-- **The reader as a function of the stream and the over-read**: either the header loop reaches
the blank line, with a last read of at most `headerChunk` bytes from a buffer under the limit; or
there is no blank line to reach, or the limit is passed before it. -/
theorem readHttpRequest_cases (limits : Limits) (s : Socket) :
    (∃ pos ahead k, findHeaderEnd s.bytes = some pos ∧ k < pos + 4 ∧ ¬ overHeader limits k ∧
      pos + 4 + ahead ≤ k + headerChunk ∧ pos + 4 + ahead ≤ s.bytes.length ∧
      (readHttpRequest limits s).toOption = outcome limits s.bytes pos ahead) ∨
    ((readHttpRequest limits s).toOption = none ∧
      ∀ pos, findHeaderEnd s.bytes = some pos → ∃ n < pos + 4, overHeader limits n) := by
  have hempty : findHeaderEnd [] = none := by decide
  rcases @headerLoop_spec limits _ _ _ (Nat.lt_succ_self s.bytes.length) hempty with
    ⟨p, chunk, pos, s', hrun, -, hp, hlim, hle, hpos, hbytes⟩ | ⟨⟨e, hrun⟩, hwhy⟩
  · rw [List.nil_append] at hbytes
    have hfound : findHeaderEnd s.bytes = some pos := by
      rw [hbytes]
      exact findSub_append_of_some hpos _
    have hlen := length_of_findHeaderEnd hpos
    have hbefore : p.length < pos + 4 := by
      rw [← findHeaderEnd_take_iff hpos (by simp), List.take_left]
      exact hp
    have htotal := congrArg List.length hbytes
    simp only [List.length_append] at hlen htotal
    refine Or.inl ⟨pos, (p ++ chunk).length - (pos + 4), p.length, hfound, hbefore, hlim, ?_, ?_,
      toOption_of_readHeader hrun hbytes.symm hpos⟩
    all_goals rw [List.length_append]; omega
  · refine Or.inr ⟨?_, fun pos hpos => ?_⟩
    · rw [readHttpRequest, readHeader, hrun]
      rfl
    · rw [List.nil_append] at hwhy
      rcases hwhy with hnone | ⟨p, ⟨r, hr⟩, hp, hover⟩
      · rw [hpos] at hnone; cases hnone
      · have hlen := congrArg List.length hr
        rw [List.length_append] at hlen
        refine ⟨p.length, ?_, hover⟩
        rw [← findHeaderEnd_take_iff hpos (by omega), ← hr, List.take_left]
        exact hp

/-! ### Where the cuts matter -/

/-- The stream in single bytes, except for one piece of `m` bytes behind the first `k`. -/
def cut (k m : ℕ) (stream : Bytes) : Socket :=
  .drip (stream.take k) (.push ((stream.drop k).take m) (.drip (stream.drop (k + m)) .closed))

@[simp] theorem bytes_cut (k m : ℕ) (stream : Bytes) : (cut k m stream).bytes = stream := by
  simp [cut, ← List.drop_drop]

/-- With that piece across the end of the blank line, the over-read is what it holds behind it. -/
theorem readHttpRequest_cut {stream : Bytes} {k m pos : ℕ} (hpos : findHeaderEnd stream = some pos)
    (hk : k < pos + 4) (hm : pos + 4 ≤ k + m) (hchunk : m ≤ headerChunk)
    (hlen : k + m ≤ stream.length) (hlim : ∀ n ≤ k, ¬ overHeader limits n) :
    (readHttpRequest limits (cut k m stream)).toOption =
      outcome limits stream pos (k + m - (pos + 4)) := by
  have htake : (stream.take k).length = k := by rw [List.length_take]; omega
  have hnone : findHeaderEnd (stream.take k) = none :=
    (findHeaderEnd_take_iff hpos (by omega)).mpr hk
  have hpiece : (stream.drop k).take m ≠ [] :=
    List.ne_nil_of_length_pos (by rw [List.length_take, List.length_drop]; omega)
  have hbuffer : stream.take k ++ (stream.drop k).take m = stream.take (k + m) :=
    List.take_add.symm
  have hfound : findHeaderEnd (stream.take (k + m)) = some pos :=
    findSub_of_append (by rw [List.take_append_drop]; exact hpos)
      (by rw [List.length_take]; simp only [blankLine, List.length_cons, List.length_nil]; omega)
  have hrun : readHeader limits (cut k m stream) =
      .ok (stream.take (k + m), pos, .drip (stream.drop (k + m)) .closed) := by
    rw [readHeader, bytes_cut, show stream.length + 1 = (stream.take k).length +
      (stream.length - k + 1) by omega, cut, headerLoop_drip (by rwa [List.nil_append])
      (fun n hn => hlim n (by rw [List.nil_append, htake] at hn; omega)), List.nil_append,
      headerLoop, overLimit_eq_none_iff.mpr (by rw [htake]; exact hlim k (Nat.le_refl k)),
      Socket.read_push hpiece (Nat.le_trans (List.length_take_le _ _) hchunk)]
    simp only [if_neg hpiece, hbuffer, hfound]
  rw [toOption_of_readHeader hrun _ hfound, List.length_take, Nat.min_eq_left hlen]
  rw [Socket.bytes_drip, Socket.bytes_closed, List.append_nil, List.take_append_drop]

/-- In single bytes, a head over the limit is refused. -/
theorem readHttpRequest_drip {stream : Bytes} {k pos : ℕ} (hpos : findHeaderEnd stream = some pos)
    (hk : k < pos + 4) (hover : overHeader limits k) (hlim : ∀ n < k, ¬ overHeader limits n) :
    (readHttpRequest limits (.drip stream .closed)).toOption = none := by
  have hlen := length_of_findHeaderEnd hpos
  have htake : (stream.take k).length = k := by rw [List.length_take]; omega
  have hnone : findHeaderEnd (stream.take k) = none :=
    (findHeaderEnd_take_iff hpos (by omega)).mpr hk
  have hrun : ∃ e, readHeader limits (.drip stream .closed) = .error e := by
    have hfuel : stream.length + 1 = (stream.take k).length + (stream.length - k + 1) := by omega
    rw [readHeader, Socket.bytes_drip, Socket.bytes_closed, List.append_nil, hfuel]
    conv => enter [1, e, 1, 4]; rw [← List.take_append_drop k stream, Socket.drip_append]
    rw [headerLoop_drip (by rwa [List.nil_append])
      (fun n hn => hlim n (by rw [List.nil_append, htake] at hn; omega)), List.nil_append,
      headerLoop]
    split
    · exact ⟨_, rfl⟩
    · next h => exact absurd hover (htake ▸ overLimit_eq_none_iff.mp h)
  obtain ⟨e, he⟩ := hrun
  rw [readHttpRequest, he]
  rfl

theorem overHeader_source {n : ℕ} : overHeader .source n ↔ maxHeaderSize < n := by
  simp [overHeader, Limits.source]

/-- The cuts do not matter: no cut is accepted, because the stream has no blank line, its head is
refused, it ends before the declared length, or the blank line is out of reach of every read; or
every cut is accepted and the over-read is never longer than the declared body. -/
def SegmentationFree (stream : Bytes) : Prop :=
  ∀ pos head, findHeaderEnd stream = some pos →
    parseHead .source (stream.take pos) = .ok head →
    pos + 4 + head.contentLength ≤ stream.length →
    (pos + 4 ≤ maxHeaderSize + 1 ∧
      (stream.length = pos + 4 + head.contentLength ∨ headerChunk ≤ head.contentLength + 1)) ∨
    maxHeaderSize + headerChunk < pos + 4

/-- The outcome of a stream that is not refused. -/
theorem outcome_eq_some {stream : Bytes} {pos ahead : ℕ} {head : RequestHead}
    (hhead : parseHead limits (stream.take pos) = .ok head)
    (hlen : pos + 4 + head.contentLength ≤ stream.length) :
    outcome limits stream pos ahead =
      some ⟨head.method, head.path, head.version, head.headers,
        (stream.drop (pos + 4)).take (max ahead head.contentLength)⟩ := by
  simp only [outcome, hhead, Except.toOption, Option.bind_some, if_pos hlen]

theorem overHeader_source_le {n : ℕ} (h : n ≤ maxHeaderSize) : ¬ overHeader .source n := by
  rw [overHeader_source]
  omega

/-- Two ways of cutting a stream give different outcomes. -/
def CutMatters (stream : Bytes) : Prop :=
  ∃ s₁ s₂ : Socket, s₁.bytes = stream ∧ s₂.bytes = stream ∧
    (readHttpRequest .source s₁).toOption ≠ (readHttpRequest .source s₂).toOption

section Differ

variable {stream : Bytes} {pos : ℕ} {head : RequestHead} (hpos : findHeaderEnd stream = some pos)
  (hhead : parseHead .source (stream.take pos) = .ok head)
  (hlen : pos + 4 + head.contentLength ≤ stream.length)

include hpos hhead hlen

/-- Surplus bytes: the over-read is the declared body, or one byte more. -/
theorem cutMatters_of_surplus (hsmall : pos + 4 ≤ maxHeaderSize + 1)
    (hne : stream.length ≠ pos + 4 + head.contentLength)
    (hshort : ¬ headerChunk ≤ head.contentLength + 1) : CutMatters stream := by
  have hchunk : headerChunk = 2048 := rfl
  have hlim : ∀ n ≤ pos + 3, ¬ overHeader .source n := fun n hn => overHeader_source_le (by omega)
  refine ⟨cut (pos + 3) (head.contentLength + 1) stream,
    cut (pos + 3) (head.contentLength + 2) stream, bytes_cut _ _ _, bytes_cut _ _ _, ?_⟩
  rw [readHttpRequest_cut hpos (by omega) (by omega) (by omega) (by omega) hlim,
    readHttpRequest_cut hpos (by omega) (by omega) (by omega) (by omega) hlim,
    outcome_eq_some hhead hlen, outcome_eq_some hhead hlen]
  intro heq
  have hbody := congrArg (fun r => r.body.length) (Option.some.inj heq)
  simp only [List.length_take, List.length_drop] at hbody
  omega

/-- A long head: it is refused in single bytes, and accepted with its end in one read. -/
theorem cutMatters_of_long (hlong : maxHeaderSize + 1 < pos + 4)
    (hreach : pos + 4 ≤ maxHeaderSize + headerChunk) : CutMatters stream := by
  refine ⟨.drip stream .closed, cut maxHeaderSize (pos + 4 - maxHeaderSize) stream, ?_,
    bytes_cut _ _ _, ?_⟩
  · rw [Socket.bytes_drip, Socket.bytes_closed, List.append_nil]
  · rw [readHttpRequest_drip hpos hlong (overHeader_source.mpr (Nat.lt_succ_self _))
        fun n hn => overHeader_source_le (by omega),
      readHttpRequest_cut hpos (by omega) (by omega) (by omega) (by omega)
        fun n hn => overHeader_source_le hn,
      outcome_eq_some hhead hlen]
    exact fun heq => Option.some_ne_none _ heq.symm

end Differ

/-- A stream that cuts do not matter to has one outcome. -/
theorem toOption_of_segmentationFree {s : Socket} (hfree : SegmentationFree s.bytes) :
    (readHttpRequest .source s).toOption =
      (findHeaderEnd s.bytes).bind fun pos =>
        if pos + 4 ≤ maxHeaderSize + 1 then outcome .source s.bytes pos 0 else none := by
  have hchunk : headerChunk = 2048 := rfl
  rcases readHttpRequest_cases .source s with
    ⟨pos, ahead, k, hpos, hk, hlim, hover, hle, hres⟩ | ⟨hres, hwhy⟩
  · rw [overHeader_source] at hlim
    rw [hres, hpos, Option.bind_some]
    cases hhead : parseHead .source (s.bytes.take pos) with
    | error e => simp only [outcome, hhead, Except.toOption, Option.bind_none, ite_self]
    | ok head =>
      by_cases hlen : pos + 4 + head.contentLength ≤ s.bytes.length
      · rcases hfree pos head hpos hhead hlen with ⟨hsmall, hbody⟩ | hfar
        · rw [if_pos hsmall, outcome_eq_some hhead hlen, outcome_eq_some hhead hlen,
            show max ahead head.contentLength = max 0 head.contentLength by omega]
        · omega
      · simp only [outcome, hhead, Except.toOption, Option.bind_some, if_neg hlen, ite_self]
  · rw [hres]
    cases hpos : findHeaderEnd s.bytes with
    | none => rfl
    | some pos =>
      obtain ⟨n, hn, hover⟩ := hwhy pos hpos
      rw [overHeader_source] at hover
      rw [Option.bind_some, if_neg (by omega)]

/-- **When two ways of cutting cannot differ.** -/
theorem segmentation_free_iff (stream : Bytes) :
    (∀ s₁ s₂ : Socket, s₁.bytes = stream → s₂.bytes = stream →
      (readHttpRequest .source s₁).toOption = (readHttpRequest .source s₂).toOption) ↔
    SegmentationFree stream := by
  constructor
  · intro h pos head hpos hhead hlen
    have hsame : ¬ CutMatters stream := by
      rintro ⟨s₁, s₂, h₁, h₂, hne⟩
      exact hne (h s₁ s₂ h₁ h₂)
    by_contra hnot
    rw [not_or, not_and_or, not_or] at hnot
    obtain ⟨hnot, hreach⟩ := hnot
    by_cases hsmall : pos + 4 ≤ maxHeaderSize + 1
    · obtain ⟨hne, hshort⟩ := hnot.resolve_left (not_not.mpr hsmall)
      exact hsame (cutMatters_of_surplus hpos hhead hlen hsmall hne hshort)
    · exact hsame (cutMatters_of_long hpos hhead hlen (by omega) (by omega))
  · rintro hfree s₁ s₂ rfl h₂
    have hfree' : SegmentationFree s₂.bytes := by rwa [h₂]
    rw [toOption_of_segmentationFree hfree, toOption_of_segmentationFree hfree', h₂]

/-- A request without a body, and one byte behind it. -/
def surplusStream : Bytes := asBytes "GET / HTTP/1.1\r\n\r\nX".toList

/-- The surplus byte is body when it comes with the blank line, and lost when it comes later. -/
theorem surplus_depends_on_cut : ¬ ∀ (stream : Bytes) (s₁ s₂ : Socket), s₁.bytes = stream →
    s₂.bytes = stream →
    (readHttpRequest .source s₁).toOption = (readHttpRequest .source s₂).toOption := by
  intro h
  have heq := h surplusStream (cut 0 19 surplusStream) (cut 0 18 surplusStream) (bytes_cut _ _ _)
    (bytes_cut _ _ _)
  have hbody := congrArg (Option.map HttpRequest.body) heq
  exact absurd hbody (by decide +kernel)

end Proxy

end Fywaf
