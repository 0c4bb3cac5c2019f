import Fywaf.Crs.Exclusion

/-!
# Variables as a set

The variables of a condition are a list, gone over twice: once for the excluded headers, once for
the values. Only which variables there are decides, not where they stand or how often: a condition
asks whether some value is accepted, and a value is one of some variable, under the exclusions of
the whole list.

## Main results

* `Crs.resolveVariable_congr_mem` — only the members of the exclusion list matter
* `Crs.mem_resolveVariables_congr` — the same variables have the same values
* `Crs.conditionMatches_congr_mem` — the same variables make the same condition
-/

namespace Fywaf

namespace Crs

variable {vars vars' : List Variable}

/-- The same variables exclude the same headers. -/
theorem mem_excludeHeaders_congr (h : ∀ var, var ∈ vars ↔ var ∈ vars') (name : Str) :
    name ∈ excludeHeaders vars ↔ name ∈ excludeHeaders vars' := by
  rw [mem_excludeHeaders, mem_excludeHeaders]
  exact exists_congr fun name' => and_congr_left fun _ => h _

/-- Of the exclusion list only the members matter. -/
theorem resolveVariable_congr_mem {exclude exclude' : List Str}
    (h : ∀ name, name ∈ exclude ↔ name ∈ exclude') (ctx : RequestContext) (var : Variable) :
    resolveVariable ctx exclude var = resolveVariable ctx exclude' var := by
  cases var with
  | requestHeaders =>
    have hcontains : ∀ name, exclude.contains name = exclude'.contains name := by
      intro name
      rw [Bool.eq_iff_iff, List.contains_iff_mem, List.contains_iff_mem]
      exact h name
    rw [resolveVariable, resolveVariable]
    simp only [hcontains]
  | _ => rfl

/-- The same variables have the same values. -/
theorem mem_resolveVariables_congr (h : ∀ var, var ∈ vars ↔ var ∈ vars') (ctx : RequestContext)
    (value : Str) : value ∈ resolveVariables vars ctx ↔ value ∈ resolveVariables vars' ctx := by
  rw [mem_resolveVariables, mem_resolveVariables]
  refine exists_congr fun var => ?_
  rw [h var, resolveVariable_congr_mem (mem_excludeHeaders_congr h) ctx var]

/-- **A condition depends on its variables as a set**: in any order, with any repetitions. -/
theorem conditionMatches_congr_mem (regex : RegexNew) (operator : Operator)
    (transforms : List Transform) (ctx : RequestContext) (vars vars' : List Variable)
    (h : ∀ var, var ∈ vars ↔ var ∈ vars') :
    conditionMatches regex vars operator transforms ctx =
      conditionMatches regex vars' operator transforms ctx := by
  rw [Bool.eq_iff_iff, conditionMatches, conditionMatches, List.any_eq_true, List.any_eq_true]
  exact exists_congr fun value => and_congr_left fun _ => mem_resolveVariables_congr h ctx value

/-- An exclusion may stand behind the headers that it takes one from, and stand there twice. -/
theorem conditionMatches_exclusion_last :
    conditionMatches (fun _ => none) [.requestHeaderExclude "cookie".toList, .requestHeaders]
        (.streq "k=v".toList) [] cookieContext =
      conditionMatches (fun _ => none) [.requestHeaders, .requestHeaderExclude "cookie".toList,
        .requestHeaders, .requestHeaderExclude "cookie".toList] (.streq "k=v".toList) []
        cookieContext := by
  refine conditionMatches_congr_mem _ _ _ _ _ _ fun var => ?_
  simp only [List.mem_cons, List.not_mem_nil, or_false]
  tauto

end Crs

end Fywaf
