import Fywaf.Std.Checks
import Fywaf.Std.Scanner

/-!
# Loops that must consume

A loop whose body may fail, and that may run forever when a pass leaves its state as it is. Here a
pass that consumes nothing is a fault like a failure, so that the result of the loop says both: no
pass fails, and every pass consumes. A loop over the positions of a text that reads at each of them
what a scanner reads there is the run of the scanner.

## Main definitions

* `Pass`, `Fault`, `runLoop` — one pass, what goes wrong, and the loop
* `indexLoop` — a loop over the positions of a list

## Main results

* `runLoop_eq` — a loop is what its passes give, one after the other
* `indexLoop_eq` — a loop over positions is the run of a scanner
-/

namespace Fywaf

variable {σ α β ε : Type}

/-- How a pass ends: the last of the output, or some of it and the state of the next pass. -/
inductive Pass (σ β : Type)
  | last (out : List β)
  | next (out : List β) (s : σ)

/-- What goes wrong in a loop: a pass fails, or it consumes nothing. -/
inductive Fault (ε : Type)
  | failed (e : ε)
  | stuck
  deriving DecidableEq

/-- The loop, given how much a state has left to consume. -/
def runLoop (left : σ → ℕ) (body : σ → Except ε (Pass σ β)) (s : σ) :
    Except (Fault ε) (List β) :=
  match body s with
  | .error e => .error (.failed e)
  | .ok (.last out) => .ok out
  | .ok (.next out s') =>
    if left s' < left s then (runLoop left body s').map (out ++ ·) else .error .stuck
termination_by left s

/-- The pass gives the first part of what is expected and consumes something, or gives all of
it. -/
def Pass.Gives (left : σ → ℕ) (spec : σ → List β) (s : σ) : Pass σ β → Prop
  | .last out => spec s = out
  | .next out s' => left s' < left s ∧ spec s = out ++ spec s'

/-- **A loop is what its passes give**: when every pass succeeds and gives its part, so does the
loop, and what it gives is the whole. -/
theorem runLoop_eq {left : σ → ℕ} {body : σ → Except ε (Pass σ β)} {spec : σ → List β}
    (h : ∀ s, ∃ p, body s = .ok p ∧ p.Gives left spec s) (s : σ) :
    runLoop left body s = .ok (spec s) := by
  induction hn : left s using Nat.strongRecOn generalizing s with
  | ind n ih =>
    subst hn
    obtain ⟨p, hbody, hgives⟩ := h s
    rw [runLoop, hbody]
    cases p with
    | last out => rw [hgives]
    | next out s' =>
      obtain ⟨hlt, hspec⟩ := hgives
      dsimp only
      rw [if_pos hlt, ih _ hlt s' rfl, hspec]
      rfl

/-! ### Loops over positions -/

/-- `while i < len`, with a body that gives some output and the next position. -/
def indexLoop (len : ℕ) (body : ℕ → Except ε (List β × ℕ)) : Except (Fault ε) (List β) :=
  runLoop (len - ·) (fun i =>
    if i < len then (body i).map fun r => .next r.1 r.2 else .ok (.last [])) 0

/-- **A loop over positions is the run of a scanner** when at every position the body gives what
the scanner gives for what is left there. -/
theorem indexLoop_eq {S : Scanner α β} {l : List α} {body : ℕ → Except ε (List β × ℕ)}
    (h : ∀ i a rest, l.drop i = a :: rest → ∃ k, body i = .ok ((S.step a rest).1, i + (k + 1)) ∧
      rest.drop k = (S.step a rest).2) : indexLoop l.length body = .ok (S.run l) := by
  have hgives : ∀ i, ∃ p : Pass ℕ β,
      (if i < l.length then (body i).map fun r => .next r.1 r.2 else .ok (.last [])) = .ok p ∧
        p.Gives (l.length - ·) (fun i => S.run (l.drop i)) i := by
    intro i
    by_cases hi : i < l.length
    · obtain ⟨k, hbody, hdrop⟩ := h i l[i] (l.drop (i + 1)) (List.drop_eq_getElem_cons hi)
      refine ⟨.next _ (i + (k + 1)), by rw [if_pos hi, hbody]; rfl, ?_, ?_⟩
      · show l.length - (i + (k + 1)) < l.length - i
        omega
      · show S.run (l.drop i) = (S.step l[i] (l.drop (i + 1))).1 ++ S.run (l.drop (i + (k + 1)))
        rw [List.drop_eq_getElem_cons hi, Scanner.run_cons, ← hdrop, List.drop_drop,
          show i + 1 + k = i + (k + 1) by omega]
    · refine ⟨.last [], if_neg hi, ?_⟩
      show S.run (l.drop i) = []
      rw [List.drop_eq_nil_of_le (Nat.le_of_not_lt hi), Scanner.run_nil]
  exact runLoop_eq hgives 0

end Fywaf
