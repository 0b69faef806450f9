-- SUMMARY: Changes of a registry as a history: the roll of the names in the order of their registration, the scopes in the order of their activation, and that the registry goes by both.
import Cascade.Proofs.Registry.Changes

/-! # The history of a registry

What has been done to a registry tells in which order its rules were registered
and in which order its scopes were activated. The **roll** is kept of the names
with their scopes: a registration that is accepted enters names at its end, and
what is taken away is struck out, so that a name that comes back is the newest one.
Nothing else has a bearing on the roll. The registry keeps no roll, but in each
scope its rules stand in the order of it. -/

namespace Cascade

namespace Registry

/-! ## What is entered and struck out -/

namespace Change

/-- The names that a change enters if it is accepted, with their scope. -/
def entries : Change → List (String × String)
  | .register rule scope => [(scope, rule.id)]
  | .registerBatch batch scope policy =>
    match (do resolve (← DuplicatePolicy.named policy) scope batch) with
    | .ok rules => rules.map fun rule => (scope, rule.id)
    | .error _ => []
  | _ => []

/-- Whether a change takes a name of a scope away. -/
def strikes : Change → String × String → Bool
  | .unregister id scope, entry => entry = (scope, id)
  | .clearScope scope, entry => entry.1 = scope
  | _, _ => false

/-- What a change makes of a roll. -/
def enrol (change : Change) (roll : List (String × String)) : List (String × String) :=
  roll.filter (!change.strikes ·) ++ change.entries

/-- What a change makes of the scopes in the order of their activation. -/
def enact (change : Change) (scopes : List String) : List String :=
  match change with
  | .activate scope =>
    if scope = globalScope ∨ scope ∈ scopes then scopes else scopes ++ [scope]
  | .deactivate scope => scopes.filter (· ≠ scope)
  | _ => scopes

end Change

/-- The roll after some changes. One that is refused has no part in it. -/
def rollAfter (r : Registry) (roll : List (String × String)) :
    List Change → List (String × String)
  | [] => roll
  | change :: rest =>
    match r.after change with
    | .ok r' => rollAfter r' (change.enrol roll) rest
    | .error _ => rollAfter r roll rest

/-- The names that are registered after some changes, in the order in which they
    were registered. -/
def roll (changes : List Change) : List (String × String) := rollAfter empty [] changes

/-- The scopes that are active after some changes, in the order in which they were
    activated. -/
def activations (changes : List Change) : List String :=
  changes.foldl (fun scopes change => change.enact scopes) []

/-! ## One change -/

/-- The names of a scope, with the scope. -/
def namesOf (r : Registry) (scope : String) : List (String × String) :=
  (r.rulesOf scope).map fun rule => (scope, rule.id)

variable {r r' : Registry}

theorem namesOf_put (r : Registry) (scope : String) (rules : List Rule) (other : String) :
    (r.put scope rules).namesOf other
      = if other = scope then rules.map fun rule => (scope, rule.id) else r.namesOf other := by
  unfold namesOf
  rw [rulesOf_put]
  split
  · rename_i same
    rw [same]
  · rfl

/-- The names that were put at the end of a scope, as they show in any scope. -/
theorem namesOf_append (r : Registry) (scope : String) (rules : List Rule) (other : String) :
    (r.append scope rules).namesOf other
      = r.namesOf other ++ (rules.map fun rule => (scope, rule.id)).filter (·.1 = other) := by
  rw [append, namesOf_put]
  by_cases same : other = scope
  · subst same
    simp [namesOf, List.filter_map, Function.comp_def]
  · simp [same, Ne.symm same]

theorem after_register {rule : Rule} {scope : String} (h : r.register rule scope = .ok r') :
    r' = r.append scope [rule] := by
  unfold register at h
  split at h
  · cases h
  · cases h
    rfl

/-- A batch that is accepted was resolved, and is put at the end of its scope. -/
theorem after_registerBatch {batch : List Rule} {scope : String} {policy : Document}
    (h : r.after (.registerBatch batch scope policy) = .ok r') :
    ∃ resolved, (do resolve (← DuplicatePolicy.named policy) scope batch) = .ok resolved ∧
      r' = r.append scope resolved := by
  obtain ⟨chosen, named, h⟩ := exists_of_bind_ok h
  obtain ⟨⟨resolved, extended⟩, accepted, h⟩ := exists_of_bind_ok h
  obtain ⟨rules, resolves, accepted⟩ := exists_of_bind_ok accepted
  obtain ⟨taken, -, accepted⟩ := exists_of_bind_ok accepted
  cases accepted
  cases h
  exact ⟨resolved, by rw [named]; exact resolves, rfl⟩

/-- Enabling and disabling has no bearing on the names. -/
theorem namesOf_setEnabled (r : Registry) (id : String) (enablement : Document)
    (scope other : String) :
    (r.setEnabled id enablement scope).2.namesOf other = r.namesOf other := by
  unfold setEnabled
  split
  · rfl
  · dsimp only
    rw [namesOf_put]
    split
    · rename_i same
      subst same
      rw [List.map_map]
      refine List.map_congr_left fun rule _ => ?_
      simp only [Function.comp_apply]
      split <;> rfl
    · rfl

/-- Names that are distinct in a scope are distinct with the scope. -/
theorem nodup_namesOf (distinct : ∀ scope, ((r.rulesOf scope).map (·.id)).Nodup)
    (scope : String) : (r.namesOf scope).Nodup := by
  have pairs := (distinct scope).map (f := Prod.mk scope) fun _ _ same => congrArg Prod.snd same
  rwa [List.map_map] at pairs

theorem rulesOf_unregister (r : Registry) (id scope other : String) :
    (r.unregister id scope).2.rulesOf other
      = if other = scope then (r.rulesOf scope).eraseP (·.id = id) else r.rulesOf other := by
  unfold unregister
  split
  · rename_i absent
    have kept : (r.rulesOf scope).eraseP (·.id = id) = r.rulesOf scope :=
      List.eraseP_of_forall_not fun rule mem same => List.find?_eq_none.mp absent rule mem same
    split
    · rename_i same
      rw [same, kept]
    · rfl
  · exact rulesOf_put ..

/-- A rule that is taken away takes its name away from its scope. -/
theorem namesOf_unregister (distinct : ∀ scope, ((r.rulesOf scope).map (·.id)).Nodup)
    (id scope other : String) :
    (r.unregister id scope).2.namesOf other
      = (r.namesOf other).filter fun entry => !decide (entry = (scope, id)) := by
  rw [namesOf, rulesOf_unregister]
  by_cases same : other = scope
  · subst same
    have erased : ((r.rulesOf other).eraseP (·.id = id)).map (fun rule => (other, rule.id))
        = (r.namesOf other).erase (other, id) := by
      rw [namesOf, List.erase_eq_eraseP, List.eraseP_map]
      congr 2
      funext rule
      rw [Bool.eq_iff_iff]
      simpa using eq_comm
    rw [if_pos rfl, erased, (nodup_namesOf distinct other).erase_eq_filter]
    refine List.filter_congr fun entry _ => ?_
    rw [Bool.eq_iff_iff]
    simp
  · rw [if_neg same]
    refine (List.filter_eq_self.mpr fun entry mem => ?_).symm
    obtain ⟨rule, -, rfl⟩ := List.mem_map.mp mem
    simp [same]

/-- The names of a scope that is cleared are gone. -/
theorem namesOf_clearScope (r : Registry) (scope other : String) :
    (r.clearScope scope).namesOf other
      = (r.namesOf other).filter fun entry => !decide (entry.1 = scope) := by
  rw [namesOf, rulesOf_clearScope]
  by_cases same : other = scope
  · subst same
    simp [namesOf]
  · simp [namesOf, same, List.filter_map, Function.comp_def]

/-- What a change that is accepted makes of the names of a scope, it makes of any
    roll of them. -/
theorem namesOf_after (distinct : ∀ scope, ((r.rulesOf scope).map (·.id)).Nodup)
    {change : Change} (h : r.after change = .ok r') (scope : String) :
    r'.namesOf scope = (r.namesOf scope).filter (!change.strikes ·)
      ++ change.entries.filter (·.1 = scope) := by
  cases change with
  | register rule other =>
    rw [after_register h, namesOf_append]
    simp [Change.strikes, Change.entries]
  | registerBatch batch other policy =>
    obtain ⟨resolved, resolves, rfl⟩ := after_registerBatch h
    rw [namesOf_append, Change.entries, resolves]
    simp [Change.strikes]
  | unregister id other =>
    cases h
    simp [namesOf_unregister distinct, Change.strikes, Change.entries]
  | setEnabled id enablement other =>
    cases h
    simp [namesOf_setEnabled, Change.strikes, Change.entries]
  | clearScope other =>
    cases h
    simp [namesOf_clearScope, Change.strikes, Change.entries]
  | activate other =>
    cases h
    simp [namesOf, rulesOf_activate, Change.strikes, Change.entries]
  | deactivate other =>
    cases h
    have same : (r.deactivate other).namesOf scope = r.namesOf scope := rfl
    simp [same, Change.strikes, Change.entries]

/-! ## Runs of changes -/

/-- The names of each scope, as they stand in a roll, stand in it so after any
    changes. -/
theorem filter_rollAfter (consistent : r.IsConsistent) {roll : List (String × String)}
    (rolled : ∀ scope, roll.filter (·.1 = scope) = r.namesOf scope) (changes : List Change)
    (scope : String) :
    (r.rollAfter roll changes).filter (·.1 = scope) = (r.changed changes).namesOf scope := by
  -- on the changes; a roll goes through each that is accepted as the registry does
  induction changes generalizing r roll with
  | nil => exact rolled scope
  | cons change rest ih =>
    rw [rollAfter, changed, List.foldl_cons]
    cases made : r.after change with
    | error f => exact ih consistent rolled
    | ok r' =>
      refine ih (consistent.after change r' made) fun other => ?_
      rw [Change.enrol, List.filter_append, List.filter_filter,
        namesOf_after consistent.names made, ← rolled other, List.filter_filter]
      refine congrArg (· ++ _) (List.filter_congr fun entry _ => Bool.and_comm _ _)

/-- The rules of each scope stand in the order of the roll, and the roll has no
    others. -/
theorem filter_roll (changes : List Change) (scope : String) :
    (roll changes).filter (·.1 = scope) = (empty.changed changes).namesOf scope := by
  refine filter_rollAfter isConsistent_empty (fun other => ?_) changes scope
  rw [namesOf, rulesOf_empty]
  rfl

/-- What a change that is accepted makes of the active scopes. -/
theorem active_after (consistent : r.IsConsistent) {change : Change}
    (h : r.after change = .ok r') : r'.active = change.enact r.active := by
  cases change with
  | register rule scope => exact active_of_register h
  | registerBatch batch scope policy =>
    obtain ⟨resolved, -, rfl⟩ := after_registerBatch h
    rfl
  | unregister id scope =>
    cases h
    unfold unregister
    split <;> rfl
  | setEnabled id enablement scope =>
    cases h
    unfold setEnabled
    split <;> rfl
  | clearScope scope =>
    cases h
    unfold clearScope
    split <;> rfl
  | activate scope =>
    cases h
    unfold activate Change.enact
    by_cases isGlobal : scope = globalScope
    · rw [if_pos isGlobal]
      exact (if_pos (.inl isGlobal)).symm
    · rw [if_neg isGlobal]
      simp only [isGlobal, false_or]
      split
      · rename_i again
        exact (if_pos again).symm
      · rename_i new
        exact (if_neg new).symm
  | deactivate scope =>
    cases h
    refine (consistent.active.erase_eq_filter scope).trans (List.filter_congr fun other _ => ?_)
    rw [Bool.eq_iff_iff]
    simp

/-- Only registrations are refused, and they have no part in what is active. -/
theorem enact_of_refused {change : Change} {f : Fault} (h : r.after change = .error f)
    (scopes : List String) : change.enact scopes = scopes := by
  cases change with
  | register rule scope => rfl
  | registerBatch batch scope policy => rfl
  | _ => cases h

theorem active_changed (consistent : r.IsConsistent) (changes : List Change) :
    (r.changed changes).active
      = changes.foldl (fun scopes change => change.enact scopes) r.active := by
  induction changes generalizing r with
  | nil => rfl
  | cons change rest ih =>
    rw [changed, List.foldl_cons, List.foldl_cons]
    cases made : r.after change with
    | error f =>
      rw [enact_of_refused made]
      exact ih consistent
    | ok r' =>
      rw [← active_after consistent made]
      exact ih (consistent.after change r' made)

/-- The active scopes stand in the order of their activation. -/
theorem active_eq_activations (changes : List Change) :
    (empty.changed changes).active = activations changes :=
  active_changed isConsistent_empty changes

/-! ## Orders -/

/-- Of two rules of a scope, the one that stands first was registered first. -/
theorem pairwise_roll (changes : List Change) (scope : String) :
    ((empty.changed changes).rulesOf scope).Pairwise fun a b =>
      List.Sublist [(scope, a.id), (scope, b.id)] (roll changes) := by
  rw [List.pairwise_iff_forall_sublist]
  intro a b stand
  have names : List.Sublist [(scope, a.id), (scope, b.id)]
      ((empty.changed changes).namesOf scope) :=
    stand.map fun rule : Rule => (scope, rule.id)
  rw [← filter_roll] at names
  exact names.trans List.filter_sublist

/-- Of two scopes whose rules match, the one that comes first is the global one or
    was activated first. -/
theorem pairwise_activations (changes : List Change) :
    (globalScope :: (empty.changed changes).active.filter (· ≠ globalScope)).Pairwise fun s t =>
      List.Sublist [s, t] (globalScope :: activations changes) := by
  rw [List.pairwise_iff_forall_sublist]
  intro s t stand
  rw [active_eq_activations] at stand
  exact stand.trans (List.filter_sublist.cons_cons globalScope)

end Registry

end Cascade
