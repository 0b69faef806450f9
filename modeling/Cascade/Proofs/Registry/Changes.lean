-- SUMMARY: Changes of a registry, one after the other: whatever they are, no scope gets a name twice, no scope is active twice, and the global scope is there and is never activated.
import Cascade.Proofs.Outcome
import Cascade.Proofs.Registry.Active

/-! # Changes

A registry is changed by registering rules, one at a time or as a batch, by
taking rules away, enabling them or disabling them, and by clearing, activating
and deactivating scopes. A change may be refused. In either case a registry that
was **consistent** is so afterwards: each change replaces the rules of one scope
by rules with distinct names, or the active scopes by distinct ones. -/

namespace Cascade

namespace Registry

/-! ## Changes -/

/-- What can be done to a registry, with whatever is handed over for it. -/
inductive Change where
  | register (rule : Rule) (scope : String)
  | registerBatch (batch : List Rule) (scope : String) (policy : Document)
  | unregister (id scope : String)
  | setEnabled (id : String) (enablement : Document) (scope : String)
  | clearScope (scope : String)
  | activate (scope : String)
  | deactivate (scope : String)

/-- The registry that a change makes of another one, unless it is refused. -/
def after (r : Registry) : Change → Except Fault Registry
  | .register rule scope => r.register rule scope
  | .registerBatch batch scope policy => do
    let policy ← DuplicatePolicy.named policy
    let (_, r') ← r.registerBatch batch scope policy
    return r'
  | .unregister id scope => .ok (r.unregister id scope).2
  | .setEnabled id enablement scope => .ok (r.setEnabled id enablement scope).2
  | .clearScope scope => .ok (r.clearScope scope)
  | .activate scope => .ok (r.activate scope)
  | .deactivate scope => .ok (r.deactivate scope)

/-- A registry after some changes. One that is refused leaves it as it was. -/
def changed (changes : List Change) (r : Registry) : Registry :=
  changes.foldl (fun r change => (r.after change).toOption.getD r) r

/-! ## Consistency -/

/-- Every scope is there once and has no name twice, every active scope is active
    once, and the global scope is there without being activated. -/
structure IsConsistent (r : Registry) : Prop where
  scopes : (r.scopes.map (·.1)).Nodup
  names : ∀ scope, ((r.rulesOf scope).map (·.id)).Nodup
  active : r.active.Nodup
  inactive : globalScope ∉ r.active
  present : globalScope ∈ r.scopes.map (·.1)

variable {r : Registry}

/-- The registry that has only the global scope, without rules. -/
theorem isConsistent_empty : empty.IsConsistent where
  scopes := List.nodup_singleton globalScope
  names scope := by
    rw [rulesOf_empty]
    exact List.nodup_nil
  active := List.nodup_nil
  inactive := List.not_mem_nil
  present := List.mem_singleton_self globalScope

/-! ## Rules of a scope replaced -/

/-- A field that is put is in its place, or at the end if there was none. -/
theorem keys_putField {α : Type} (key : String) (value : α) (fields : List (String × α)) :
    (Document.putField key value fields).map (·.1)
      = if key ∈ fields.map (·.1) then fields.map (·.1) else fields.map (·.1) ++ [key] := by
  induction fields with
  | nil => rfl
  | cons field rest ih =>
    rw [Document.putField]
    by_cases here : field.1 = key
    · simp [here]
    · rw [if_neg here, List.map_cons, ih, List.map_cons]
      by_cases later : key ∈ rest.map (·.1)
      · rw [if_pos later, if_pos (List.mem_cons_of_mem _ later)]
      · have absent : key ∉ field.1 :: rest.map (·.1) :=
          List.not_mem_cons_of_ne_of_not_mem (Ne.symm here) later
        rw [if_neg later, if_neg absent, List.cons_append]

/-- No field is put twice. -/
theorem nodup_putField {α : Type} {fields : List (String × α)}
    (distinct : (fields.map (·.1)).Nodup) (key : String) (value : α) :
    ((Document.putField key value fields).map (·.1)).Nodup := by
  rw [keys_putField]
  split
  · exact distinct
  · rename_i absent
    exact List.nodup_append.mpr ⟨distinct, List.nodup_singleton key, by
      intro other mem last new same
      obtain rfl := List.mem_singleton.mp new
      exact absent (same ▸ mem)⟩

/-- Rules with distinct names may take the place of the rules of a scope. -/
theorem IsConsistent.put (h : r.IsConsistent) {rules : List Rule}
    (distinct : (rules.map (·.id)).Nodup) (scope : String) : (r.put scope rules).IsConsistent where
  scopes := nodup_putField h.scopes scope rules
  names other := by
    rw [rulesOf_put]
    split
    · exact distinct
    · exact h.names other
  active := h.active
  inactive := h.inactive
  present := by
    change globalScope ∈ (Document.putField scope rules r.scopes).map (·.1)
    rw [keys_putField]
    split
    · exact h.present
    · exact List.mem_append_left _ h.present

/-- Rules that are new to a scope may be put behind those that it has. -/
theorem IsConsistent.append (h : r.IsConsistent) {rules : List Rule} {scope : String}
    (distinct : (rules.map (·.id)).Nodup)
    (new : ∀ rule ∈ rules, rule.id ∉ (r.rulesOf scope).map (·.id)) :
    (r.append scope rules).IsConsistent := by
  apply h.put
  rw [List.map_append]
  refine List.nodup_append.mpr ⟨h.names scope, distinct, ?_⟩
  intro id stored id' added same
  obtain ⟨rule, mem, rfl⟩ := List.mem_map.mp added
  exact new rule mem (same ▸ stored)

/-! ## Registering -/

/-- A rule is registered only under a name that is new to the scope. -/
theorem IsConsistent.register (h : r.IsConsistent) (rule : Rule) (scope : String) :
    Yields (r.register rule scope) IsConsistent := by
  unfold Registry.register
  split
  · exact .error _
  · rename_i absent
    refine .ok (h.append (List.nodup_singleton _) ?_)
    intro rule' mem taken
    obtain rfl := List.mem_singleton.mp mem
    obtain ⟨stored, found, same⟩ := List.mem_map.mp taken
    apply absurd absent
    rw [not_not, get?, List.find?_isSome]
    exact ⟨stored, found, by simpa using same⟩

/-- The check of a batch lets names through that are distinct and not taken. -/
theorem fresh_of_check {scope : String} {rules : List Rule} {taken taken' : List String}
    (h : rules.foldlM (fun taken rule =>
        if rule.id ∈ taken then Except.error (Fault.duplicateRule rule.id scope)
        else Except.ok (rule.id :: taken)) taken = .ok taken') :
    (rules.map (·.id)).Nodup ∧ ∀ rule ∈ rules, rule.id ∉ taken := by
  -- on the rules, each of which joins the names that are taken for those after it
  induction rules generalizing taken with
  | nil => exact ⟨List.nodup_nil, List.forall_mem_nil _⟩
  | cons rule rest ih =>
    rw [List.foldlM_cons] at h
    by_cases again : rule.id ∈ taken
    · rw [if_pos again] at h
      cases h
    · rw [if_neg again] at h
      obtain ⟨distinct, new⟩ := ih h
      refine ⟨List.nodup_cons.mpr ⟨?_, distinct⟩, List.forall_mem_cons.mpr ⟨again, ?_⟩⟩
      · intro mem
        obtain ⟨rule', later, same⟩ := List.mem_map.mp mem
        exact new rule' later (same ▸ List.mem_cons_self)
      · intro rule' later mem
        exact new rule' later (List.mem_cons_of_mem _ mem)

/-- A batch is registered only under names that are distinct and new, also where
    names were numbered. -/
theorem IsConsistent.registerBatch (h : r.IsConsistent) (batch : List Rule) (scope : String)
    (policy : DuplicatePolicy) :
    Yields (r.registerBatch batch scope policy) fun p => p.2.IsConsistent := by
  refine Yields.seq fun resolved => (Yields.self _).bind fun taken checked => .ok ?_
  obtain ⟨distinct, new⟩ := fresh_of_check checked
  exact h.append distinct new

/-! ## Other changes -/

theorem IsConsistent.unregister (h : r.IsConsistent) (id scope : String) :
    (r.unregister id scope).2.IsConsistent := by
  unfold Registry.unregister
  split
  · exact h
  · exact h.put ((h.names scope).sublist (List.eraseP_sublist.map _)) scope

theorem IsConsistent.setEnabled (h : r.IsConsistent) (id : String) (enablement : Document)
    (scope : String) : (r.setEnabled id enablement scope).2.IsConsistent := by
  unfold Registry.setEnabled
  split
  · exact h
  · apply h.put
    have same : ((fun rule : Rule => rule.id) ∘ fun rule =>
        if rule.id = id then { rule with enablement } else rule) = fun rule => rule.id := by
      funext rule
      simp only [Function.comp_apply]
      split <;> rfl
    rw [List.map_map, same]
    exact h.names scope

/-- A scope that is cleared has no rules, and the others keep theirs. -/
theorem rulesOf_clearScope (r : Registry) (scope other : String) :
    (r.clearScope scope).rulesOf other = if other = scope then [] else r.rulesOf other := by
  unfold clearScope
  split
  · exact rulesOf_put r scope [] other
  · unfold rulesOf
    rw [List.find?_filter]
    split
    · rename_i same
      -- no scope is another one than this and this one
      have none : r.scopes.find? (fun entry =>
          decide (decide (entry.1 ≠ scope) ∧ decide (entry.1 = other))) = none := by
        simp [same]
      rw [none]
      rfl
    · rename_i differs
      congr 2
      apply congrArg (List.find? · r.scopes)
      funext entry
      by_cases here : entry.1 = other
      · simp [here, differs]
      · simp [here]

/-- The global scope stays, without rules; another one goes altogether. -/
theorem IsConsistent.clearScope (h : r.IsConsistent) (scope : String) :
    (r.clearScope scope).IsConsistent := by
  have names : ∀ other, (((r.clearScope scope).rulesOf other).map (·.id)).Nodup := by
    intro other
    rw [rulesOf_clearScope]
    split
    · exact List.nodup_nil
    · exact h.names other
  unfold Registry.clearScope at names ⊢
  split at names
  · rename_i isGlobal
    rw [if_pos isGlobal]
    have none : (([] : List Rule).map (·.id)).Nodup := List.nodup_nil
    exact h.put none scope
  · rename_i other
    rw [if_neg other]
    refine ⟨h.scopes.sublist (List.filter_sublist.map _), names, h.active, h.inactive, ?_⟩
    obtain ⟨entry, mem, isGlobal⟩ := List.mem_map.mp h.present
    refine List.mem_map.mpr ⟨entry, List.mem_filter.mpr ⟨mem, ?_⟩, isGlobal⟩
    rw [isGlobal]
    exact decide_eq_true (Ne.symm other)

/-- A scope that is active already is not activated again, and the global one is
    never activated. -/
theorem IsConsistent.activate (h : r.IsConsistent) (scope : String) :
    (r.activate scope).IsConsistent := by
  have there : (r.append scope []).IsConsistent :=
    h.append List.nodup_nil (List.forall_mem_nil _)
  unfold Registry.activate
  split
  · exact h
  · rename_i other
    dsimp only
    split
    · exact there
    · rename_i absent
      refine { there with active := ?_, inactive := ?_ }
      · refine List.nodup_append.mpr ⟨there.active, List.nodup_singleton scope, ?_⟩
        intro before mem last new same
        obtain rfl := List.mem_singleton.mp new
        exact absent (same ▸ mem)
      · intro mem
        rcases List.mem_append.mp mem with mem | mem
        · exact there.inactive mem
        · exact other (List.mem_singleton.mp mem).symm

theorem IsConsistent.deactivate (h : r.IsConsistent) (scope : String) :
    (r.deactivate scope).IsConsistent :=
  { h with
    active := h.active.erase scope
    inactive := fun mem => h.inactive (List.mem_of_mem_erase mem) }

/-! ## Runs of changes -/

/-- What a change makes of a consistent registry is consistent. -/
theorem IsConsistent.after (h : r.IsConsistent) (change : Change) :
    Yields (r.after change) IsConsistent := by
  cases change with
  | register rule scope => exact h.register rule scope
  | registerBatch batch scope policy =>
    exact Yields.seq fun policy => (h.registerBatch batch scope policy).bind fun p hp => .ok hp
  | unregister id scope => exact .ok (h.unregister id scope)
  | setEnabled id enablement scope => exact .ok (h.setEnabled id enablement scope)
  | clearScope scope => exact .ok (h.clearScope scope)
  | activate scope => exact .ok (h.activate scope)
  | deactivate scope => exact .ok (h.deactivate scope)

/-- A consistent registry is so after any changes. -/
theorem IsConsistent.changed (h : r.IsConsistent) (changes : List Change) :
    (r.changed changes).IsConsistent := by
  -- on the changes, over every registry that the ones before may have left
  induction changes generalizing r with
  | nil => exact h
  | cons change rest ih =>
    rw [Registry.changed, List.foldl_cons]
    cases made : r.after change with
    | error f => exact ih h
    | ok r' => exact ih (h.after change r' made)

/-- Whatever is done to an empty registry, in whatever order and whether it is
    refused or not: no scope has two rules of one name, the active scopes are
    distinct and the global one is not among them, and the registry has an entry
    for the global scope. -/
theorem changes_stay_consistent (changes : List Change) :
    let r := empty.changed changes
    (∀ scope, ((r.rulesOf scope).map (·.id)).Nodup) ∧
      r.active.Nodup ∧ globalScope ∉ r.active ∧
      globalScope ∈ r.scopes.map (·.1) ∧ (r.scopes.map (·.1)).Nodup := by
  have h := isConsistent_empty.changed changes
  exact ⟨h.names, h.active, h.inactive, h.present, h.scopes⟩

end Registry

end Cascade
