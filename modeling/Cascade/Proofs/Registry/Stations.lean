-- SUMMARY: The rules that an event meets, each with the scope that it is registered in, in the order in which they are applied; and the registry without one of them.
import Cascade.Proofs.Number.Exact
import Cascade.Proofs.Registry.Thinned
import Cascade.Registry.Basic

/-! # Stations

Rules of different scopes may be equal, so a rule that an event meets is known by
its scope as well. An event passes its **stations** in the order of their
priorities, which is a linear order unless some priority is not a number: by its
declared type a priority is an integer. -/

namespace Cascade

namespace Rule

/-- What the priority of a rule stands for. -/
def urgency (rule : Rule) : WithBot (WithTop ℚ) := (rule.priority.exactValue?.getD .nan).value

/-- Whether the priority of a rule can be compared with a number. -/
def isRanked (rule : Rule) : Bool := rule.priority.exactValue?.isSome

/-- Rules have ranks if all of their priorities can be compared. -/
theorem mapM_ranked (rules : List Rule) :
    rules.mapM ranked = if rules.all isRanked then
        .ok (rules.map fun rule => (rule.priority.exactValue?.getD .nan, rule))
      else .error .wrongType := by
  induction rules with
  | nil => rfl
  | cons rule rest ih =>
    rw [List.mapM_cons, ih, ranked, rank, List.all_cons, isRanked]
    cases hv : rule.priority.exactValue? with
    | none => rfl
    | some v =>
      simp only [Option.isSome_some, Bool.true_and, List.map_cons, hv]
      split <;> rfl

/-- Rules stand in order if their priorities are integers of which none is lower
    than the next. -/
theorem inOrder_of_falling {rules : List Rule} (ranks : List Int)
    (given : rules.map (·.priority) = ranks.map Document.int)
    (falling : ranks.Pairwise (· ≥ ·)) : inOrder rules = .ok rules := by
  let tagged (rule : Rule) : Exact × Rule := (rule.priority.exactValue?.getD .nan, rule)
  have number : ∀ rule ∈ rules, ∃ n : Int, rule.priority = .int n := by
    intro rule hr
    have hp : rule.priority ∈ rules.map (·.priority) := List.mem_map_of_mem hr
    rw [given] at hp
    obtain ⟨n, -, hn⟩ := List.mem_map.mp hp
    exact ⟨n, hn.symm⟩
  have ranked : rules.all isRanked := by
    refine List.all_eq_true.mpr fun rule hr => ?_
    obtain ⟨n, hn⟩ := number rule hr
    rw [isRanked, hn]
    rfl
  have numbers : ¬(rules.map tagged).any (·.1 = .nan) := by
    simp only [List.any_map, List.any_eq_true, not_exists, not_and]
    intro rule hr
    obtain ⟨n, hn⟩ := number rule hr
    simp [tagged, hn, Document.exactValue?, Exact.ofInt]
  have stands : (rules.map (·.priority)).Pairwise fun p q =>
      ∃ m n : Int, p = .int m ∧ q = .int n ∧ n ≤ m := by
    rw [given]
    exact falling.map _ fun m n le => ⟨m, n, rfl, rfl, le⟩
  have ordered : sorted (rules.map tagged) = rules.map tagged := by
    rw [sorted, if_neg numbers]
    refine List.mergeSort_of_pairwise (List.pairwise_map.mpr ?_)
    refine (List.pairwise_map.mp stands).imp ?_
    rintro a b ⟨m, n, hm, hn, le⟩
    have unbeaten : outranks (.ofInt n, b) (.ofInt m, a) = false := by
      simp [outranks, Exact.ofInt, Exact.compare?, Exact.scaled, compare_gt_iff_gt, le]
    simp [tagged, hm, hn, Document.exactValue?, unbeaten]
  rw [inOrder, mapM_ranked, if_pos ranked]
  change Except.ok ((sorted (rules.map tagged)).map (·.2)) = _
  rw [ordered, List.map_map]
  exact congrArg _ (List.map_id rules)

end Rule

namespace Registry

/-- The enabled rules of an event with their scopes, the global scope first. -/
def stations (r : Registry) (event : String) : List (String × Rule) :=
  (globalScope :: r.active.filter (· ≠ globalScope)).flatMap fun scope =>
    ((r.rulesOf scope).filter fun rule => rule.isEnabled && rule.event = event).map
      (Prod.mk scope)

/-- Whether a rule does not have to wait for another one. -/
def goesBefore (a b : String × Rule) : Bool := b.2.urgency ≤ a.2.urgency

/-- The enabled rules of an event with their scopes, in the order in which they
    are applied. -/
def route (r : Registry) (event : String) : List (String × Rule) :=
  (r.stations event).mergeSort goesBefore

/-- No rule has a priority that is a float but not a number. -/
def IsOrdered (r : Registry) : Prop :=
  ∀ scope, ∀ rule ∈ r.rulesOf scope, rule.priority.exactValue? ≠ some .nan

variable {r : Registry} {event scope : String} {rule : Rule}

theorem matching_eq (r : Registry) (event : String) :
    r.matching event r.active = (r.stations event).map (·.2) := by
  simp only [matching, stations, List.map_flatMap, List.map_map]
  simp [Function.comp_def]

theorem rulesForEvent_of_falling {rules : List Rule} (ranks : List Int)
    (found : r.matching event r.active = rules)
    (given : rules.map (·.priority) = ranks.map Document.int)
    (falling : ranks.Pairwise (· ≥ ·)) : r.rulesForEvent event = .ok rules := by
  rw [rulesForEvent, rulesForEventIn, found]
  exact Rule.inOrder_of_falling ranks given falling

theorem mem_stations (h : (scope, rule) ∈ r.stations event) : rule ∈ r.rulesOf scope := by
  unfold stations at h
  obtain ⟨scope', -, h⟩ := List.mem_flatMap.mp h
  obtain ⟨rule', h, same⟩ := List.mem_map.mp h
  cases same
  exact (List.mem_filter.mp h).1

theorem goesBefore_trans (a b c : String × Rule) (hab : goesBefore a b) (hbc : goesBefore b c) :
    goesBefore a c := by
  simp only [goesBefore, decide_eq_true_eq] at hab hbc ⊢
  exact hbc.trans hab

theorem goesBefore_total (a b : String × Rule) : goesBefore a b || goesBefore b a := by
  simp only [goesBefore, Bool.or_eq_true, decide_eq_true_eq]
  exact le_total _ _

/-- Between rules whose priorities are numbers, going before is not being
    outranked. -/
theorem goesBefore_eq {a b : String × Rule} {v w : Exact}
    (ha : a.2.priority.exactValue? = some v) (hb : b.2.priority.exactValue? = some w)
    (hv : v ≠ .nan) (hw : w ≠ .nan) :
    goesBefore a b = !Rule.outranks (w, b.2) (v, a.2) := by
  have order : Rule.outranks (w, b.2) (v, a.2) = decide (v.value < w.value) := by
    simp only [Rule.outranks, Exact.compare?_gt hw hv]
  rw [order, goesBefore, Rule.urgency, Rule.urgency, ha, hb, ← decide_not]
  simp only [Option.getD_some, not_lt]

/-- The rules that match an event are those of its route, if all of them have
    ranks. -/
theorem rulesForEvent_eq (ordered : r.IsOrdered) (event : String) :
    r.rulesForEvent event = if (r.stations event).all (·.2.isRanked) then
        .ok ((r.route event).map (·.2))
      else .error .wrongType := by
  unfold rulesForEvent rulesForEventIn Rule.inOrder
  rw [matching_eq, Rule.mapM_ranked, List.all_map, List.map_map]
  by_cases ranked : (r.stations event).all (·.2.isRanked)
  · let tagged (s : String × Rule) : Exact × Rule := (s.2.priority.exactValue?.getD .nan, s.2)
    have number : ∀ s ∈ r.stations event, ∃ v, s.2.priority.exactValue? = some v ∧ v ≠ .nan := by
      rintro ⟨scope, rule⟩ hs
      have isRanked := List.all_eq_true.mp ranked _ hs
      obtain ⟨v, hv⟩ := Option.isSome_iff_exists.mp isRanked
      refine ⟨v, hv, ?_⟩
      rintro rfl
      exact ordered scope rule (mem_stations hs) hv
    have none : ¬((r.stations event).map tagged).any (·.1 = .nan) := by
      simp only [List.any_map, List.any_eq_true, not_exists, not_and]
      intro s hs
      obtain ⟨v, hv, hn⟩ := number s hs
      simp [tagged, hv, hn]
    have sorted : Rule.sorted ((r.stations event).map tagged) = (r.route event).map tagged := by
      rw [Rule.sorted, if_neg none, route]
      refine (List.map_mergeSort fun a ha b hb => ?_).symm
      obtain ⟨v, hv, hv'⟩ := number a ha
      obtain ⟨w, hw, hw'⟩ := number b hb
      rw [goesBefore_eq hv hw hv' hw']
      simp [tagged, hv, hw]
    rw [if_pos ranked, if_pos (by simpa [Function.comp_def] using ranked)]
    change Except.ok ((Rule.sorted ((r.stations event).map tagged)).map (·.2)) = _
    rw [sorted, List.map_map]
    rfl
  · rw [if_neg ranked, if_neg (by simpa [Function.comp_def] using ranked)]
    rfl

/-- Rules that were found are those of the route. -/
theorem of_rulesForEvent {rules : List Rule} (ordered : r.IsOrdered)
    (h : r.rulesForEvent event = .ok rules) :
    rules = (r.route event).map (·.2) ∧ (r.stations event).all (·.2.isRanked) := by
  rw [rulesForEvent_eq ordered] at h
  split at h
  · rename_i ranked
    exact ⟨(Except.ok.inj h).symm, ranked⟩
  · cases h

/-! ## The rules of scopes -/

/-- A field that was put is found, and so are the others. -/
theorem find?_putField {α : Type} (key : String) (value : α) (fields : List (String × α))
    (other : String) :
    (Document.putField key value fields).find? (·.1 = other)
      = if other = key then some (key, value) else fields.find? (·.1 = other) := by
  induction fields with
  | nil =>
    rw [Document.putField, List.find?_singleton]
    simp [eq_comm]
  | cons field rest ih =>
    rw [Document.putField]
    by_cases here : field.1 = key
    · rw [if_pos here, List.find?_cons, List.find?_cons, here]
      by_cases same : other = key
      · simp [same]
      · simp [same, Ne.symm same]
    · rw [if_neg here, List.find?_cons, List.find?_cons, ih]
      by_cases same : other = key
      · simp [same, here]
      · simp [same]

theorem rulesOf_put (r : Registry) (scope : String) (rules : List Rule) (other : String) :
    (r.put scope rules).rulesOf other = if other = scope then rules else r.rulesOf other := by
  unfold rulesOf put
  rw [find?_putField]
  split
  · rfl
  · rfl

/-- What holds of all rules holds of them when those of a scope are replaced by
    rules of which it holds. -/
theorem forall_put {P : Rule → Prop} {rules : List Rule} (scope : String)
    (old : ∀ other, ∀ rule ∈ r.rulesOf other, P rule) (new : ∀ rule ∈ rules, P rule) :
    ∀ other, ∀ rule ∈ (r.put scope rules).rulesOf other, P rule := by
  intro other
  rw [rulesOf_put]
  split
  · exact new
  · exact old other

theorem rulesOf_empty (scope : String) : empty.rulesOf scope = [] := by
  unfold rulesOf empty
  rw [List.find?_singleton]
  split
  · rfl
  · rfl

/-! ## Without a rule -/

/-- Taking a rule away leaves out that rule of its scope and nothing else. -/
theorem thinned_rulesOf (registered : r.get? rule.id scope = some rule) (other : String) :
    Thinned (fun q => other = scope ∧ q = rule) (r.rulesOf other)
      ((r.unregister rule.id scope).2.rulesOf other) := by
  unfold unregister
  rw [registered, rulesOf_put]
  by_cases same : other = scope
  · rw [if_pos same, same]
    exact (Thinned.eraseP registered).mono fun q hq => ⟨rfl, hq⟩
  · rw [if_neg same]
    exact .refl _

theorem thinned_stations (registered : r.get? rule.id scope = some rule) (event : String) :
    Thinned (· = (scope, rule)) (r.stations event)
      ((r.unregister rule.id scope).2.stations event) := by
  have active : (r.unregister rule.id scope).2.active = r.active := by
    unfold unregister
    rw [registered]
    rfl
  unfold stations
  rw [active]
  refine .flatMap _ fun other => ((thinned_rulesOf registered other).filter _).map ?_
  rintro q ⟨rfl, rfl⟩
  rfl

/-- The route of an event without a rule leaves out that rule and nothing else. -/
theorem thinned_route (registered : r.get? rule.id scope = some rule) (event : String) :
    Thinned (· = (scope, rule)) (r.route event)
      ((r.unregister rule.id scope).2.route event) :=
  .mergeSort goesBefore_trans goesBefore_total (thinned_stations registered event)

/-- Where the rules of an event are found, those without one of them are found as
    well. -/
theorem rulesForEvent_unregister {rules : List Rule} (ordered : r.IsOrdered)
    (registered : r.get? rule.id scope = some rule) (h : r.rulesForEvent event = .ok rules) :
    (r.unregister rule.id scope).2.rulesForEvent event
      = .ok (((r.unregister rule.id scope).2.route event).map (·.2)) := by
  have ordered' : (r.unregister rule.id scope).2.IsOrdered := fun other q hq =>
    ordered other q ((thinned_rulesOf registered other).subset hq)
  obtain ⟨-, ranked⟩ := of_rulesForEvent ordered h
  rw [rulesForEvent_eq ordered', if_pos]
  rw [List.all_eq_true] at ranked ⊢
  exact fun s hs => ranked s ((thinned_stations registered event).subset hs)

end Registry

end Cascade
