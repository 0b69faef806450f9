-- SUMMARY: The rules that an event matches, exactly: which they are, each once, by priority, and otherwise in the order of activation and of registration; and that disabling and enabling a rule leaves no trace.
import Cascade.Proofs.Registry.History

/-! # Matches

An event matches the enabled rules that wait for it in the global scope and in the
active scopes. They come in the order of their priorities. The sort is stable, so
rules of one priority stay as they were gathered: the global scope first, then the
scopes as they were activated, and the rules of a scope as they were registered. -/

namespace Cascade

/-! ## Ties in a stable sort -/

/-- A stable sort leaves ties in the order of the list. -/
theorem pairwise_ties {α : Type} {le : α → α → Bool} {R : α → α → Prop}
    (trans : ∀ a b c, le a b → le b c → le a c) (total : ∀ a b, le a b || le b a)
    {xs : List α} (h : xs.Pairwise R) :
    (xs.mergeSort le).Pairwise fun a b => le a b ∧ (le b a → R a b) := by
  -- the first element goes in front of those that tie with it, and stood there
  induction xs with
  | nil => simp
  | cons x xs ih =>
    obtain ⟨first, others⟩ := List.pairwise_cons.mp h
    have sorted := ih others
    have below : ∀ a, (!le x a) = true → le a x = true ∧ ¬le x a = true := by
      intro a apart
      have apart : le x a = false := by simpa using apart
      have either := total a x
      rw [apart, Bool.or_false] at either
      exact ⟨either, by simp [apart]⟩
    rw [Thinned.mergeSort_cons trans total, List.pairwise_append, List.pairwise_cons]
    refine ⟨sorted.filter _, ⟨fun b hb => ?_, sorted.filter _⟩, fun a ha b hb => ?_⟩
    · obtain ⟨mem, above⟩ := List.mem_filter.mp hb
      exact ⟨above, fun _ => first b (List.mem_mergeSort.mp mem)⟩
    · obtain ⟨under, apart⟩ := below a (List.mem_filter.mp ha).2
      rcases List.mem_cons.mp hb with rfl | hb
      · exact ⟨under, fun tie => absurd tie apart⟩
      · have above := (List.mem_filter.mp hb).2
        exact ⟨trans a x b under above, fun tie => absurd (trans x b a above tie) apart⟩

namespace Registry

/-! ## Stations -/

variable {r : Registry} {event scope : String} {rule : Rule}

/-- The stations of an event are the enabled rules that wait for it in the scopes
    whose rules match. -/
theorem mem_stations_iff :
    (scope, rule) ∈ r.stations event ↔
      r.isActive scope ∧ rule ∈ r.rulesOf scope ∧ rule.isEnabled ∧ rule.event = event := by
  have there : scope ∈ globalScope :: r.active.filter (· ≠ globalScope) ↔ r.isActive scope := by
    by_cases isGlobal : scope = globalScope
    · simp [isActive, isGlobal]
    · simp [isActive, isGlobal]
  rw [← there]
  constructor
  · intro mem
    obtain ⟨other, here, mem⟩ := List.mem_flatMap.mp mem
    obtain ⟨found, mem, same⟩ := List.mem_map.mp mem
    cases same
    exact ⟨here, by simpa using mem⟩
  · rintro ⟨here, mem⟩
    exact List.mem_flatMap.mpr ⟨scope, here, List.mem_map.mpr ⟨rule, by simpa using mem, rfl⟩⟩

/-- The order of stations is made up of the order of the scopes and the order of
    the rules in each scope. -/
theorem pairwise_stations {R : String × Rule → String × Rule → Prop}
    (scopes : (globalScope :: r.active.filter (· ≠ globalScope)).Pairwise fun s t =>
      ∀ a b, R (s, a) (t, b))
    (rules : ∀ scope, (r.rulesOf scope).Pairwise fun a b => R (scope, a) (scope, b))
    (event : String) : (r.stations event).Pairwise R := by
  refine List.pairwise_flatMap.mpr ⟨fun scope _ => ?_, scopes.imp fun apart => ?_⟩
  · exact List.pairwise_map.mpr ((rules scope).filter _)
  · rintro x hx y hy
    obtain ⟨a, -, rfl⟩ := List.mem_map.mp hx
    obtain ⟨b, -, rfl⟩ := List.mem_map.mp hy
    exact apart a b

/-- No scope is gathered twice. -/
theorem nodup_gathered (consistent : r.IsConsistent) :
    (globalScope :: r.active.filter (· ≠ globalScope)).Nodup :=
  List.nodup_cons.mpr ⟨by simp, consistent.active.filter _⟩

/-- No rule of a scope is a station twice. -/
theorem nodup_stations (consistent : r.IsConsistent) (event : String) :
    (r.stations event).Nodup := by
  refine pairwise_stations ?_ (fun scope => ?_) event
  · exact (nodup_gathered consistent).imp fun apart a b same => apart (congrArg Prod.fst same)
  · have distinct := List.pairwise_map.mp (consistent.names scope)
    exact distinct.imp fun apart same => apart (congrArg (fun s => s.2.id) same)

/-! ## Disabling and enabling -/

theorem rulesOf_setEnabled (r : Registry) (id : String) (enablement : Document)
    (scope other : String) :
    (r.setEnabled id enablement scope).2.rulesOf other
      = if other = scope then
          (r.rulesOf scope).map fun rule => if rule.id = id then { rule with enablement } else rule
        else r.rulesOf other := by
  unfold setEnabled
  split
  · rename_i absent
    have kept : (r.rulesOf scope).map (fun rule =>
        if rule.id = id then { rule with enablement } else rule) = r.rulesOf scope := by
      refine (List.map_congr_left fun rule mem => ?_).trans (List.map_id _)
      have other := List.find?_eq_none.mp absent rule mem
      exact if_neg (by simpa using other)
    split
    · rename_i same
      rw [same, kept]
    · rfl
  · exact rulesOf_put ..

theorem active_setEnabled (r : Registry) (id : String) (enablement : Document) (scope : String) :
    (r.setEnabled id enablement scope).2.active = r.active := by
  unfold setEnabled
  split <;> rfl

/-- A rule that is enabled and is disabled and enabled again is what it was, and so
    is what any event matches. -/
theorem rulesForEvent_reenabled (distinct : ((r.rulesOf scope).map (·.id)).Nodup)
    (found : r.get? rule.id scope = some rule) (enabled : rule.enablement = .bool true)
    (event : String) :
    ((r.setEnabled rule.id (.bool false) scope).2.setEnabled rule.id (.bool true)
      scope).2.rulesForEvent event = r.rulesForEvent event := by
  refine rulesForEvent_congr (fun other => ?_) ?_ event
  · rw [rulesOf_setEnabled, rulesOf_setEnabled, rulesOf_setEnabled, if_pos rfl]
    split
    · rename_i same
      rw [same, List.map_map]
      refine (List.map_congr_left fun q mem => ?_).trans (List.map_id _)
      by_cases here : q.id = rule.id
      · -- names are distinct, so this is the rule itself
        obtain rfl : q = rule := List.inj_on_of_nodup_map distinct mem
          (List.mem_of_find?_eq_some found) here
        simp [← enabled]
      · simp [here]
    · rfl
  · rw [active_setEnabled, active_setEnabled]

/-! ## Routes -/

/-- Whether a rule comes before another one by what has been done to the registry:
    their scopes differ and its own is global or was activated first, or the scopes
    are one and it was registered first. -/
def Precedes (changes : List Change) (a b : String × Rule) : Prop :=
  a.1 ≠ b.1 ∧ List.Sublist [a.1, b.1] (globalScope :: activations changes) ∨
    a.1 = b.1 ∧ List.Sublist [(a.1, a.2.id), (b.1, b.2.id)] (roll changes)

/-- Rules are gathered in the order of the history. -/
theorem pairwise_precedes (changes : List Change) (event : String) :
    ((empty.changed changes).stations event).Pairwise (Precedes changes) := by
  have distinct := nodup_gathered (isConsistent_empty.changed changes)
  refine pairwise_stations ?_ (fun scope => ?_) event
  · exact (distinct.and (pairwise_activations changes)).imp fun stand _ _ => .inl stand
  · exact (pairwise_roll changes scope).imp fun stand => .inr ⟨rfl, stand⟩

/-- Whatever has been done to a registry in which no priority is a float but not a
    number: an event matches each enabled rule that waits for it in the global scope
    or in an active one, once, and no others, if their priorities can be compared at
    all. Those of higher priority come first, and rules of one priority as their
    scopes were activated, behind the global one, and as they were registered in
    their scope. In any registry, a rule that is enabled may be disabled and enabled
    again without a trace. -/
theorem matches_exact (changes : List Change) :
    let r := empty.changed changes
    (r.IsOrdered → ∀ event, ∃ found : List (String × Rule),
      r.rulesForEvent event = (if found.all (·.2.isRanked) then .ok (found.map (·.2))
        else .error .wrongType) ∧
      found.Nodup ∧
      (∀ scope rule, (scope, rule) ∈ found ↔
        r.isActive scope ∧ rule ∈ r.rulesOf scope ∧ rule.isEnabled ∧ rule.event = event) ∧
      found.Pairwise fun a b => b.2.urgency ≤ a.2.urgency ∧
        (a.2.urgency = b.2.urgency → Precedes changes a b)) ∧
      ∀ scope rule, r.get? rule.id scope = some rule → rule.enablement = .bool true →
        ∀ event, ((r.setEnabled rule.id (.bool false) scope).2.setEnabled rule.id (.bool true)
          scope).2.rulesForEvent event = r.rulesForEvent event := by
  intro r
  have consistent : r.IsConsistent := isConsistent_empty.changed changes
  refine ⟨fun ordered event => ⟨r.route event, ?_, ?_, fun scope rule => ?_, ?_⟩,
    fun scope rule found enabled => rulesForEvent_reenabled (consistent.names scope) found enabled⟩
  · have all : (r.route event).all (·.2.isRanked) = (r.stations event).all (·.2.isRanked) :=
      (List.mergeSort_perm _ _).all_eq
    rw [rulesForEvent_eq ordered, all]
  · exact (List.mergeSort_perm _ _).nodup_iff.mpr (nodup_stations consistent event)
  · rw [route, List.mem_mergeSort, mem_stations_iff]
  · have ties := pairwise_ties goesBefore_trans goesBefore_total
      (pairwise_precedes changes event)
    refine ties.imp fun tie => ⟨by simpa [goesBefore] using tie.1, fun same => tie.2 ?_⟩
    simp [goesBefore, same]

/-- A rule of a scope stands in an entry of the registry. -/
theorem exists_entry (mem : rule ∈ r.rulesOf scope) : ∃ entry ∈ r.scopes, rule ∈ entry.2 := by
  unfold rulesOf at mem
  cases found : r.scopes.find? (·.1 = scope) with
  | none =>
    rw [found] at mem
    cases mem
  | some entry =>
    rw [found] at mem
    exact ⟨entry, List.mem_of_find?_eq_some found, mem⟩

namespace Fair

/-- A rule of the fair that applies when it opens. -/
def crier (id : String) (priority : Int) : Rule :=
  ⟨id, "open", .always, [], [], [], .bool false, .int priority, .bool true⟩

/-- Two stands open, the stall before the booth, and tea is taken from the stall and
    put back. -/
def days : List Change :=
  [ .register (crier "wares" 5) "booth", .activate "stall", .activate "booth",
    .register (crier "tea" 0) "stall", .register (crier "bread" (-1)) "stall",
    .register (crier "bell" 0) globalScope, .unregister "tea" "stall",
    .register (crier "tea" (-1)) "stall" ]

def fair : Registry := empty.changed days

theorem crier_of_mem {rule : Rule} {scope : String} (mem : rule ∈ fair.rulesOf scope) :
    ∃ id priority, rule = crier id priority := by
  obtain ⟨entry, there, mem⟩ := exists_entry mem
  have entries : fair.scopes
      = [(globalScope, [crier "bell" 0]), ("booth", [crier "wares" 5]),
          ("stall", [crier "bread" (-1), crier "tea" (-1)])] := rfl
  rw [entries] at there
  simp only [List.mem_cons, List.not_mem_nil, or_false] at there
  rcases there with rfl | rfl | rfl
  · exact ⟨_, _, List.mem_singleton.mp mem⟩
  · exact ⟨_, _, List.mem_singleton.mp mem⟩
  · rcases List.mem_pair.mp mem with rfl | rfl
    · exact ⟨_, _, rfl⟩
    · exact ⟨_, _, rfl⟩

/-- At the fair the tea has become the last that was registered, and bread and tea
    come as they were. -/
theorem fair_matches :
    roll days = [("booth", "wares"), ("stall", "bread"), (globalScope, "bell"), ("stall", "tea")] ∧
      activations days = ["stall", "booth"] ∧
      (∃ found : List (String × Rule), fair.rulesForEvent "open" = .ok (found.map (·.2)) ∧
        ("stall", crier "tea" (-1)) ∈ found ∧
        found.Pairwise fun a b => b.2.urgency ≤ a.2.urgency ∧
          (a.2.urgency = b.2.urgency → Precedes days a b)) ∧
      ((fair.setEnabled "tea" (.bool false) "stall").2.setEnabled "tea" (.bool true)
        "stall").2.rulesForEvent "open" = fair.rulesForEvent "open" := by
  have ordered : fair.IsOrdered := by
    intro scope rule mem
    obtain ⟨id, priority, rfl⟩ := crier_of_mem mem
    exact nofun
  obtain ⟨matched, reenabled⟩ := matches_exact days
  obtain ⟨found, rules, -, exactly, order⟩ := matched ordered "open"
  have ranked : found.all (·.2.isRanked) := by
    refine List.all_eq_true.mpr fun ⟨scope, rule⟩ mem => ?_
    obtain ⟨id, priority, rfl⟩ := crier_of_mem ((exactly scope rule).mp mem).2.1
    rfl
  have stall : fair.rulesOf "stall" = [crier "bread" (-1), crier "tea" (-1)] := rfl
  have there : crier "tea" (-1) ∈ fair.rulesOf "stall" := by simp [stall]
  refine ⟨rfl, rfl, ⟨found, rules.trans (if_pos ranked), ?_, order⟩, ?_⟩
  · exact (exactly "stall" (crier "tea" (-1))).mpr ⟨rfl, there, rfl, rfl⟩
  · exact reenabled "stall" (crier "tea" (-1)) rfl rfl "open"

end Fair

end Registry

end Cascade
