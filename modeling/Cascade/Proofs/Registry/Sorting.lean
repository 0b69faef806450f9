-- SUMMARY: Putting rules in order loses none of them and adds none, also where a priority is not a number; so rules that match an event are registered.
import Cascade.Proofs.Registry.Stations

/-! # Sorting rules

Where a priority is not a number, no order of the rules is the right one. But the
rules that come out are in any case those that went in, so the rules that an event
matches are rules of some scope. -/

namespace Cascade

open scoped List

namespace Precedence

variable {α : Type} (before : α → α → Bool)

theorem insert_perm (xs : List α) (x : α) : (insert before xs x).Perm (x :: xs) := by
  let n := position before x xs
  calc xs.take n ++ x :: xs.drop n
    _ ~ x :: (xs.take n ++ xs.drop n) := List.perm_middle
    _ = x :: xs := by rw [List.take_append_drop]

theorem foldl_insert_perm (sorted rest : List α) :
    (rest.foldl (insert before) sorted).Perm (sorted ++ rest) := by
  induction rest generalizing sorted with
  | nil => rw [List.append_nil, List.foldl_nil]
  | cons x rest ih =>
    calc rest.foldl (insert before) (insert before sorted x)
      _ ~ insert before sorted x ++ rest := ih _
      _ ~ x :: sorted ++ rest := (insert_perm before sorted x).append_right rest
      _ ~ sorted ++ x :: rest := List.perm_middle.symm

/-- The run at the start is kept or turned round. -/
theorem withRun_perm (xs : List α) : (withRun before xs).2.Perm xs := by
  unfold withRun
  dsimp only
  split
  · exact .refl xs
  · let n := runLength (fun a b => before b a) xs
    calc (xs.take n).reverse ++ xs.drop n
      _ ~ xs.take n ++ xs.drop n := (List.reverse_perm _).append_right _
      _ = xs := List.take_append_drop n xs

theorem halving_perm (xs : List α) : (halving before xs).Perm xs := by
  let run := withRun before xs
  calc (run.2.drop run.1).foldl (insert before) (run.2.take run.1)
    _ ~ run.2.take run.1 ++ run.2.drop run.1 := foldl_insert_perm before _ _
    _ = run.2 := List.take_append_drop ..
    _ ~ xs := withRun_perm before xs

end Precedence

namespace Rule

theorem sorted_perm (rules : List (Exact × Rule)) : (sorted rules).Perm rules := by
  unfold sorted
  split
  · exact Precedence.halving_perm outranks rules
  · exact List.mergeSort_perm _ _

/-- Rules in order are the rules that were put in order. -/
theorem inOrder_perm {rules ordered : List Rule} (h : inOrder rules = .ok ordered) :
    ordered.Perm rules := by
  rw [inOrder, mapM_ranked] at h
  split at h
  · cases h
    have sorted := (sorted_perm (rules.map fun rule =>
      (rule.priority.exactValue?.getD .nan, rule))).map Prod.snd
    rw [List.map_map] at sorted
    exact sorted.trans (.of_eq (List.map_id rules))
  · cases h

end Rule

/-- A rule that an event matches is registered in some scope. -/
theorem Registry.mem_of_rulesForEvent {r : Registry} {event : String} {rules : List Rule}
    (h : r.rulesForEvent event = .ok rules) {rule : Rule} (hr : rule ∈ rules) :
    ∃ scope, rule ∈ r.rulesOf scope := by
  have found : rule ∈ r.matching event r.active := (Rule.inOrder_perm h).mem_iff.mp hr
  obtain ⟨scope, -, found⟩ := List.mem_flatMap.mp found
  exact ⟨scope, (List.mem_filter.mp found).1⟩

end Cascade
