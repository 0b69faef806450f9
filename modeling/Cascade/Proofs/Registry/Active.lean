-- SUMMARY: The active scopes of a registry: what changes them, and what they have to do with contexts that are entered and left.
import Cascade.Proofs.Outcome
import Cascade.Proofs.Registry.Stations

/-! # Active scopes

Rules come and go without a change of what is active. Activating and deactivating
scopes follows a list of contexts, in which a scope may be several times: it is
active once, and it stays active until it is not in the list any more. -/

namespace Cascade

namespace Registry

variable {r r' : Registry}

theorem active_of_register {rule : Rule} {scope : String} (h : r.register rule scope = .ok r') :
    r'.active = r.active := by
  unfold register at h
  split at h
  · cases h
  · cases h
    rfl

theorem active_of_registerBatch {batch : List Rule} {scope : String} {policy : DuplicatePolicy} :
    Yields (r.registerBatch batch scope policy) fun p => p.2.active = r.active :=
  Yields.seq fun _ => Yields.seq fun _ => .ok rfl

theorem rulesOf_activate (r : Registry) (scope other : String) :
    (r.activate scope).rulesOf other = r.rulesOf other := by
  have appended : (r.append scope []).rulesOf other = r.rulesOf other := by
    rw [append, rulesOf_put, List.append_nil]
    split
    · rename_i same
      rw [same]
    · rfl
  unfold activate
  split
  · rfl
  · dsimp only
    split <;> exact appended

/-- What an event matches depends on the rules of the scopes and on the scopes
    that are active, in their order. -/
theorem rulesForEvent_congr (rules : ∀ scope, r'.rulesOf scope = r.rulesOf scope)
    (active : r'.active = r.active) (event : String) :
    r'.rulesForEvent event = r.rulesForEvent event := by
  simp only [rulesForEvent, rulesForEventIn, matching, rules, active]

/-- Contexts as active scopes: each once, where it comes up first, and the global
    scope not at all. -/
def scopesOf (contexts : List String) : List String :=
  (contexts.filter (· ≠ globalScope)).eraseDups

theorem mem_scopesOf {contexts : List String} {scope : String} :
    scope ∈ scopesOf contexts ↔ scope ∈ contexts ∧ scope ≠ globalScope := by
  simp [scopesOf, List.mem_eraseDups]

theorem scopesOf_concat (contexts : List String) (scope : String) :
    scopesOf (contexts ++ [scope])
      = if scope = globalScope ∨ scope ∈ contexts then scopesOf contexts
        else scopesOf contexts ++ [scope] := by
  have single : [scope].eraseDups = [scope] := by simp [List.eraseDups_cons]
  unfold scopesOf
  rw [List.filter_append, List.eraseDups_append]
  by_cases isGlobal : scope = globalScope
  · simp [isGlobal, List.removeAll]
  · by_cases again : scope ∈ contexts
    · simp [isGlobal, again, List.removeAll]
    · simp [isGlobal, again, List.removeAll, single]

/-- Activating a scope is entering it as a context. -/
theorem active_activate {contexts : List String} (h : r.active = scopesOf contexts)
    (scope : String) : (r.activate scope).active = scopesOf (contexts ++ [scope]) := by
  rw [scopesOf_concat, ← h]
  unfold activate
  by_cases isGlobal : scope = globalScope
  · rw [if_pos isGlobal, if_pos (.inl isGlobal)]
  · have active : scope ∈ (r.append scope []).active ↔ scope ∈ contexts := by
      change scope ∈ r.active ↔ _
      rw [h, mem_scopesOf]
      exact and_iff_left isGlobal
    rw [if_neg isGlobal]
    simp only [active, isGlobal, false_or]
    split
    · rfl
    · rfl

/-- Deactivating a scope that is no context any more is leaving it. -/
theorem active_deactivate {contexts : List String} {scope : String}
    (h : r.active = scopesOf (contexts ++ [scope])) (left : scope ∉ contexts) :
    (r.deactivate scope).active = scopesOf contexts := by
  have absent : scope ∉ scopesOf contexts := fun mem => left (mem_scopesOf.mp mem).1
  unfold deactivate
  rw [h, scopesOf_concat]
  split
  · exact List.erase_of_not_mem absent
  · simp [List.erase_append, absent]

end Registry

end Cascade
