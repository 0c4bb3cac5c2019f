import Fywaf.Crs.Build
import Fywaf.Crs.RegexCache
import Fywaf.Crs.RequestRoundtrip
import Fywaf.Wasm.Buffers

/-!
# The guest between calls

The guest has statics: the two buffers, the rules once they have been read, and the patterns that
have been compiled. The host makes a new instance for every request, so that they never show. They
would not show either if an instance were kept: what a request finds in them is what it would have
computed itself.

## Main definitions

* `Crs.evaluateCached` — `evaluate`, with the regex cache that it reads and writes
* `Crs.Statics`, `Crs.Guest.decideCached` — the guest, with all its statics
* `Crs.exchange` — the host asks an instance, `Crs.reply` — a new one
* `Crs.compilations` — the patterns that are compiled in a history

## Main results

* `Crs.evaluateCached_spec` — the cache does not change what is reported
* `Crs.answers_exchange` — a kept instance replies like a new one
* `Crs.count_compilations` — how often a pattern is compiled
-/

namespace Fywaf

namespace Crs

open Wasm (zeroBuffer)

/-! ### Evaluation with the cache -/

section Cached

variable (regex : RegexNew) (S : CacheStatic)

/-- `condition_matches`: the values are tried until one matches. -/
def conditionMatchesCached (vars : List Variable) (operator : Operator)
    (transforms : List Transform) (ctx : RequestContext) : StateM S.Cell Bool :=
  (resolveVariables vars ctx).anyM fun raw =>
    matchesCached regex S operator (applyTransforms raw transforms)

/-- `rule_matches`: the chained conditions are tried until one does not match. -/
def ruleMatchesCached (rule : Rule) (ctx : RequestContext) : StateM S.Cell Bool := do
  if ← conditionMatchesCached regex S rule.vars rule.operator rule.transforms ctx then
    rule.chained.allM fun chained =>
      conditionMatchesCached regex S chained.vars chained.operator chained.transforms ctx
  else
    return false

variable (ctx : RequestContext) (paranoiaLevel : UInt8) (anomalyThreshold : UInt32)

/-- The loop body. Only a rule that is tried uses the cache. -/
def stepCached (st : EvalState) (rule : Rule) : StateM S.Cell Flow := do
  if rule.id = 0 then
    if st.skipUntil.isSome ∧ rule.skipAfter = st.skipUntil then
      return .next { st with skipUntil := none }
    else
      return .next st
  else if st.skipUntil.isSome then
    return .next st
  else if rule.filtered paranoiaLevel then
    return .next st
  else if ← ruleMatchesCached regex S rule ctx then
    return onMatch anomalyThreshold st rule
  else
    return .next st

/-- The loop over the rules that are left. -/
def evalLoopCached : EvalState → List Rule → StateM S.Cell (Option (UInt32 × Str))
  | _, [] => return none
  | st, rule :: rules => do
    match ← stepCached regex S ctx paranoiaLevel anomalyThreshold st rule with
    | .next st' => evalLoopCached st' rules
    | .ret blocking => return blocking

/-- `evaluate`, with the static that `rx_match` goes through. -/
def evaluateCached (rules : List Rule) : StateM S.Cell (Option (UInt32 × Str)) :=
  evalLoopCached regex S ctx paranoiaLevel anomalyThreshold EvalState.init rules

end Cached

section Transparent

variable {regex : RegexNew} {S : CacheStatic} {ctx : RequestContext} {paranoiaLevel : UInt8}
  {anomalyThreshold : UInt32}

theorem conditionMatchesCached_spec (vars : List Variable) (operator : Operator)
    (transforms : List Transform) :
    AnswersAs (S.Valid regex) (conditionMatchesCached regex S vars operator transforms ctx)
      (conditionMatches regex vars operator transforms ctx) :=
  .any (fun raw _ hcell => matchesCached_spec operator (applyTransforms raw transforms) hcell) _

theorem ruleMatchesCached_spec (rule : Rule) :
    AnswersAs (S.Valid regex) (ruleMatchesCached regex S rule ctx)
      (ruleMatches regex rule ctx) := by
  refine (conditionMatchesCached_spec rule.vars rule.operator rule.transforms).bind ?_
  rw [ruleMatches]
  cases conditionMatches regex rule.vars rule.operator rule.transforms ctx with
  | false => exact .pure false
  | true =>
    exact .all (fun chained : ChainedRule =>
      conditionMatchesCached_spec chained.vars chained.operator chained.transforms) _

theorem stepCached_spec (st : EvalState) (rule : Rule) :
    AnswersAs (S.Valid regex) (stepCached regex S ctx paranoiaLevel anomalyThreshold st rule)
      (step regex ctx paranoiaLevel anomalyThreshold st rule) := by
  rw [stepCached, step]
  split_ifs with hid hmarker hskip hlevel hmatch
  · exact .pure _
  · exact .pure _
  · exact .pure _
  · exact .pure _
  all_goals
    refine (ruleMatchesCached_spec rule).bind ?_
    simp only [hmatch]
    exact .pure _

theorem evalLoopCached_spec (st : EvalState) (rules : List Rule) :
    AnswersAs (S.Valid regex)
      (evalLoopCached regex S ctx paranoiaLevel anomalyThreshold st rules)
      (evalLoop regex ctx paranoiaLevel anomalyThreshold st rules) := by
  induction rules generalizing st with
  | nil => exact .pure none
  | cons rule rules ih =>
    rw [evalLoop]
    refine (stepCached_spec st rule).bind ?_
    cases step regex ctx paranoiaLevel anomalyThreshold st rule with
    | next st' => exact ih st'
    | ret blocking => exact .pure blocking

/-- **The cache does not change what is reported**, and what is reported leaves the cache right. -/
theorem evaluateCached_spec (rules : List Rule) :
    AnswersAs (S.Valid regex)
      (evaluateCached regex S ctx paranoiaLevel anomalyThreshold rules)
      (evaluate regex ctx paranoiaLevel anomalyThreshold rules) :=
  evalLoopCached_spec EvalState.init rules

end Transparent

/-! ### The guest with its statics -/

/-- The statics of the guest. -/
structure Statics (S : CacheStatic) where
  reqBuf : Buffer
  resultBuf : Buffer
  /-- `RULES_CACHE`: nothing before the first request, and then the rules, or that they are
  malformed. -/
  rules : Option (Option (List Rule))
  regexes : S.Cell

/-- The statics of a new instance. -/
def Statics.init (S : CacheStatic) : Statics S := ⟨zeroBuffer, zeroBuffer, none, S.init⟩

section Kept

variable (codec : JsonCodec) (regex : RegexNew) (rulesCodec : RulesCodec) (text : Str)
  {S : CacheStatic}

/-- `get_rules`, which reads the embedded text when it is first asked. -/
def getRulesCached : StateM (Statics S) (Option (List Rule)) := do
  match (← get).rules with
  | some rules => return rules
  | none =>
    let rules := getRules rulesCodec text
    modify fun statics => { statics with rules := some rules }
    return rules

/-- An action on the regex cache alone. -/
def withRegexes {α : Type} (action : StateM S.Cell α) : StateM (Statics S) α := fun statics =>
  ((action.run statics.regexes).1, { statics with regexes := (action.run statics.regexes).2 })

/-- `run_rules`. -/
def runRulesCached (req : Request) : StateM (Statics S) Decision := do
  match ← getRulesCached rulesCodec text with
  | none => return .unavailable
  | some rules =>
    match ← withRegexes
      (evaluateCached regex S req.context req.paranoiaLevel req.anomalyThreshold rules) with
    | some (ruleId, msg) => return .blocked ruleId msg
    | none => return .allowed

/-- The decision on what is in the request buffer. -/
def answerCached (reqLen : Int32) : StateM (Statics S) Decision := do
  match fromUtf8 (requestBytes (← get).reqBuf reqLen) with
  | none => return .badRequest
  | some jsonStr =>
    match Request.parse codec jsonStr with
    | none => return .badRequest
    | some req => runRulesCached regex rulesCodec text req

/-- `write_result`. -/
def writeResultCached (decision : Decision) : StateM (Statics S) Int32 := fun statics =>
  ((writeResult codec statics.resultBuf decision).1,
    { statics with resultBuf := (writeResult codec statics.resultBuf decision).2 })

/-- `decide`. -/
def Guest.decideCached (reqLen : Int32) : StateM (Statics S) Int32 := do
  writeResultCached codec (← answerCached codec regex rulesCodec text reqLen)

/-- The host puts the JSON of a request into the buffer, calls `decide` and reads the result. -/
def exchange (json : Bytes) : StateM (Statics S) (Int32 × Bytes) := do
  modify fun statics => { statics with reqBuf := statics.reqBuf.overwrite json }
  let resultLen ← Guest.decideCached codec regex rulesCodec text (Int32.ofNat json.length)
  return (resultLen, (← get).resultBuf.bytes.take resultLen.toNatClampNeg)

/-- What the host reads of a result. -/
def readReply (result : Int32 × Buffer) : Int32 × Bytes :=
  (result.1, result.2.bytes.take result.1.toNatClampNeg)

/-- What a new instance replies. -/
def reply (json : Bytes) : Int32 × Bytes :=
  readReply (Guest.decide codec regex (getRules rulesCodec text) (zeroBuffer.overwrite json)
    zeroBuffer (Int32.ofNat json.length))

end Kept

/-! ### What is remembered is right -/

section Spec

variable {codec : JsonCodec} {regex : RegexNew} {rulesCodec : RulesCodec} {text : Str}
  {S : CacheStatic} {reqBuf resultBuf : Buffer}

/-- The invariant: what was remembered is what would be computed. -/
structure Statics.Valid (regex : RegexNew) (rulesCodec : RulesCodec) (text : Str)
    (statics : Statics S) : Prop where
  rules : ∀ rules ∈ statics.rules, rules = getRules rulesCodec text
  regexes : S.Valid regex statics.regexes

/-- The statics with these buffers. -/
def Statics.Holds (regex : RegexNew) (rulesCodec : RulesCodec) (text : Str)
    (reqBuf resultBuf : Buffer) (statics : Statics S) : Prop :=
  statics.Valid regex rulesCodec text ∧ statics.reqBuf = reqBuf ∧ statics.resultBuf = resultBuf

theorem getRulesCached_spec :
    AnswersAs (Statics.Holds regex rulesCodec text reqBuf resultBuf)
      (getRulesCached rulesCodec text (S := S)) (getRules rulesCodec text) := by
  rintro ⟨rb, rs, rules, cell⟩ ⟨hvalid, hreq, hres⟩
  cases rules with
  | none => exact ⟨rfl, ⟨fun rules h => (Option.some.inj h).symm, hvalid.regexes⟩, hreq, hres⟩
  | some rules => exact ⟨hvalid.rules rules rfl, hvalid, hreq, hres⟩

/-- The buffers and the rules do not see the cache. -/
theorem withRegexes_spec {α : Type} {action : StateM S.Cell α} {a : α}
    (h : AnswersAs (S.Valid regex) action a) :
    AnswersAs (Statics.Holds regex rulesCodec text reqBuf resultBuf) (withRegexes action) a := by
  rintro statics ⟨hvalid, hreq, hres⟩
  obtain ⟨hanswer, hkept⟩ := h statics.regexes hvalid.regexes
  exact ⟨hanswer, ⟨hvalid.rules, hkept⟩, hreq, hres⟩

theorem runRulesCached_spec (req : Request) :
    AnswersAs (Statics.Holds regex rulesCodec text reqBuf resultBuf)
      (runRulesCached regex rulesCodec text req (S := S))
      (runRules regex (getRules rulesCodec text) req) := by
  refine getRulesCached_spec.bind ?_
  unfold runRules
  cases getRules rulesCodec text with
  | none => exact .pure Decision.unavailable
  | some rules =>
    refine (withRegexes_spec (evaluateCached_spec rules)).bind ?_
    dsimp only
    cases evaluate regex req.context req.paranoiaLevel req.anomalyThreshold rules with
    | none => exact .pure Decision.allowed
    | some r => exact .pure (Decision.blocked r.1 r.2)

theorem answerCached_spec (reqLen : Int32) :
    AnswersAs (Statics.Holds regex rulesCodec text reqBuf resultBuf)
      (answerCached codec regex rulesCodec text reqLen (S := S))
      (answer codec regex (getRules rulesCodec text) reqBuf reqLen) := by
  refine .get fun statics hholds => ?_
  rw [hholds.2.1]
  unfold answer
  cases fromUtf8 (requestBytes reqBuf reqLen) with
  | none => exact .pure Decision.badRequest
  | some jsonStr =>
    dsimp only
    cases Request.parse codec jsonStr with
    | none => exact .pure Decision.badRequest
    | some req => exact runRulesCached_spec req

/-- The buffers that a call leaves are those of a guest that remembers nothing. -/
theorem decideCached_spec {statics : Statics S} (h : statics.Valid regex rulesCodec text)
    (reqLen : Int32) : ∃ after : Statics S, after.Valid regex rulesCodec text ∧
      (Guest.decideCached codec regex rulesCodec text reqLen).run statics =
        ((Guest.decide codec regex (getRules rulesCodec text) statics.reqBuf statics.resultBuf
          reqLen).1, after) ∧
      after.resultBuf = (Guest.decide codec regex (getRules rulesCodec text) statics.reqBuf
        statics.resultBuf reqLen).2 := by
  have hanswer := @answerCached_spec codec regex rulesCodec text S statics.reqBuf
    statics.resultBuf reqLen statics ⟨h, rfl, rfl⟩
  generalize hrun : (answerCached codec regex rulesCodec text reqLen).run statics = answered
    at hanswer
  obtain ⟨decision, between⟩ := answered
  obtain ⟨rfl, hvalid, -, hres⟩ := hanswer
  refine ⟨{ between with resultBuf := (Guest.decide codec regex (getRules rulesCodec text)
    statics.reqBuf statics.resultBuf reqLen).2 }, ⟨hvalid.rules, hvalid.regexes⟩, ?_, rfl⟩
  change (writeResultCached codec
    ((answerCached codec regex rulesCodec text reqLen).run statics).1).run
      ((answerCached codec regex rulesCodec text reqLen).run statics).2 = _
  rw [hrun, Guest.decide, ← hres]
  rfl

theorem bytes_overwrite_eq (buf : Buffer) (bytes : Bytes) : (buf.overwrite bytes).bytes =
    bytes.take bufLen ++ buf.bytes.drop (min bytes.length bufLen) := rfl

/-- What the guest reads are the bytes that were put in the buffer, and none that were there. -/
theorem requestBytes_overwrite (buf buf' : Buffer) (json : Bytes) :
    requestBytes (buf.overwrite json) (Int32.ofNat json.length) =
      requestBytes (buf'.overwrite json) (Int32.ofNat json.length) := by
  rcases Nat.le_total json.length bufLen with hle | hge
  · have hstart : ∀ b : Buffer, json <+: (b.overwrite json).bytes := fun b => by
      rw [Wasm.bytes_overwrite hle]
      exact List.prefix_append _ _
    exact Eq.trans ( requestBytes_of_prefix hle (hstart buf))
      ( requestBytes_of_prefix hle (hstart buf')).symm
  · have hall : ∀ b : Buffer, (b.overwrite json).bytes = json.take bufLen := fun b => by
      rw [bytes_overwrite_eq, Nat.min_eq_right hge, List.drop_eq_nil_of_le b.length_eq.le,
        List.append_nil]
    rw [requestBytes, requestBytes, hall, hall]

/-- What the host reads are the bytes of the decision, and none that were there. -/
theorem readReply_writeResult (buf : Buffer) (decision : Decision) :
    readReply (writeResult codec buf decision) =
      (Int32.ofNat (min (asBytes (codec.write decision.toJson)).length bufLen),
        (asBytes (codec.write decision.toJson)).take bufLen) := by
  generalize hbytes : asBytes (codec.write decision.toJson) = bytes
  have hclamp : (Int32.ofNat (min bytes.length bufLen)).toNatClampNeg = min bytes.length bufLen :=
    Int32.toNatClampNeg_ofNat_of_lt
      (lt_of_le_of_lt (Nat.min_le_right _ _) (show bufLen < 2 ^ 31 by decide))
  have htake : (buf.overwrite bytes).bytes.take (min bytes.length bufLen) =
      bytes.take bufLen := by
    rw [bytes_overwrite_eq, Nat.min_comm, ← List.length_take, List.take_left]
  rw [writeResult, readReply, hbytes]
  dsimp only
  rw [hclamp, htake]

/-- A guest replies by the bytes that it is given, whatever is in its buffers. -/
theorem readReply_decide (rules : Option (List Rule)) (buf buf' resultBuf resultBuf' : Buffer)
    (json : Bytes) :
    readReply (Guest.decide codec regex rules (buf.overwrite json) resultBuf
        (Int32.ofNat json.length)) =
      readReply (Guest.decide codec regex rules (buf'.overwrite json) resultBuf'
        (Int32.ofNat json.length)) := by
  have hanswer : answer codec regex rules (buf.overwrite json) (Int32.ofNat json.length) =
      answer codec regex rules (buf'.overwrite json) (Int32.ofNat json.length) := by
    rw [answer, answer, requestBytes_overwrite buf buf']
  rw [Guest.decide, Guest.decide, hanswer, readReply_writeResult, readReply_writeResult]

theorem exchange_spec (json : Bytes) :
    AnswersAs (Statics.Valid regex rulesCodec text)
      (exchange codec regex rulesCodec text json (S := S))
      (reply codec regex rulesCodec text json) := by
  intro statics hvalid
  have hvalid' : Statics.Valid regex rulesCodec text
      { statics with reqBuf := statics.reqBuf.overwrite json } := ⟨hvalid.rules, hvalid.regexes⟩
  obtain ⟨after, hafter, hrun, hres⟩ :=
    @decideCached_spec codec regex rulesCodec text S _ hvalid' (Int32.ofNat json.length)
  have hexchange : (exchange codec regex rulesCodec text json).run statics =
      (readReply (Guest.decide codec regex (getRules rulesCodec text)
        (statics.reqBuf.overwrite json) statics.resultBuf (Int32.ofNat json.length)), after) := by
    change (fun r : Int32 × Statics S =>
      ((r.1, r.2.resultBuf.bytes.take r.1.toNatClampNeg), r.2))
        ((Guest.decideCached codec regex rulesCodec text (Int32.ofNat json.length)).run
          { statics with reqBuf := statics.reqBuf.overwrite json }) = _
    rw [hrun]
    dsimp only
    rw [hres]
    rfl
  rw [hexchange, readReply_decide _ statics.reqBuf zeroBuffer statics.resultBuf zeroBuffer]
  exact ⟨rfl, hafter⟩

theorem Statics.valid_init : (Statics.init S).Valid regex rulesCodec text where
  rules _ h := nomatch h
  regexes := CacheStatic.valid_init

end Spec

/-- **A kept instance replies like a new one**: whatever it was asked before, with other requests in
its buffers, with the rules read once and the patterns compiled once, its replies are those of
instances that are made for one request each. -/
theorem answers_exchange (codec : JsonCodec) (regex : RegexNew) (rulesCodec : RulesCodec)
    (text : Str) (S : CacheStatic) (requests : List Bytes) :
    answers (fun statics json => (exchange codec regex rulesCodec text json).run statics)
        (Statics.init S) requests =
      requests.map (reply codec regex rulesCodec text) :=
  answers_eq_map (fun statics json h => exchange_spec json statics h) requests _
    Statics.valid_init

/-! ### How often a pattern is compiled -/

section Compilations

variable {regex : RegexNew} {S : CacheStatic}

/-- The patterns that are compiled in a history of calls, in their order. -/
def compilations (regex : RegexNew) (S : CacheStatic) : S.Cell → List (Str × Str) → List Str
  | _, [] => []
  | cell, (pattern, value) :: calls =>
    (if (S.content cell).containsKey pattern then [] else [pattern]) ++
      compilations regex S (rxMatchCached regex S cell pattern value).2 calls

/-- A call adds its own pattern, if it compiles, and takes none away. -/
theorem containsKey_rxMatchCached (cell : S.Cell) (pattern value p : Str) :
    (S.content (rxMatchCached regex S cell pattern value).2).containsKey p =
      ((S.content cell).containsKey p || decide (p = pattern) && (regex p).isSome) := by
  rw [rxMatchCached, CacheStatic.withCache, S.content_store, cachedMatch]
  by_cases hkey : (S.content cell).containsKey pattern = true
  · rw [if_pos hkey]
    by_cases hp : p = pattern
    · rw [hp, hkey, Bool.true_or]
    · rw [decide_eq_false hp, Bool.false_and, Bool.or_false]
  · rw [if_neg hkey]
    by_cases hp : p = pattern
    · rw [hp, Bool.eq_false_iff.mpr hkey]
      cases hre : regex pattern with
      | none => simpa using hkey
      | some re => simp [BTreeMap.containsKey, BTreeMap.get?_insert]
    · rw [decide_eq_false hp, Bool.false_and, Bool.or_false]
      cases hre : regex pattern with
      | none => rfl
      | some re => simp [BTreeMap.containsKey, BTreeMap.get?_insert, hp]

theorem count_compilations_from (p : Str) (calls : List (Str × Str)) (cell : S.Cell) :
    (compilations regex S cell calls).count p =
      if (S.content cell).containsKey p then 0
      else if (regex p).isSome then min 1 ((calls.map Prod.fst).count p)
      else (calls.map Prod.fst).count p := by
  induction calls generalizing cell with
  | nil => simp [compilations]
  | cons call calls ih =>
    obtain ⟨pattern, value⟩ := call
    rw [compilations, List.count_append, ih, containsKey_rxMatchCached, List.map_cons,
      List.count_cons]
    by_cases hp : p = pattern
    · rw [hp]
      cases (S.content cell).containsKey pattern <;> cases (regex pattern).isSome <;>
        simp <;> omega
    · have hother : ¬ pattern = p := fun h => hp h.symm
      cases (S.content cell).containsKey pattern <;> simp [hp, hother]

/-- **How often a pattern is compiled**: once, if it compiles, however often it is asked for, and
otherwise every time. -/
theorem count_compilations (regex : RegexNew) (S : CacheStatic) (calls : List (Str × Str))
    (p : Str) : (compilations regex S S.init calls).count p =
      if (regex p).isSome then min 1 ((calls.map Prod.fst).count p)
      else (calls.map Prod.fst).count p := by
  rw [count_compilations_from, S.content_init]
  rfl

end Compilations

end Crs

end Fywaf
