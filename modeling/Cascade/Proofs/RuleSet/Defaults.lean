-- SUMMARY: Ids that are made up: they tell the rules of a document without ids apart, so a scope without rules takes the document as it is.
import Cascade.Proofs.Engine.Nameless
import Cascade.Proofs.Registry.Batches
import Cascade.Proofs.RuleSet.Conjunctions

/-! # Ids that are made up

A rule without an id is named after its event and its number in the document. Two
events may come out the same there, as colons and underscores do. The numbers do
not: they are digits behind the last underscore of the id, and leading zeros make
no other number of them. So the rules of a document without ids never share one. -/

namespace Cascade

namespace RuleSet

/-! ## Made up ids -/

theorem toList_threeDigits (n : Nat) :
    (threeDigits n).toList
      = List.replicate (3 - (Nat.toDigits 10 n).length) '0' ++ Nat.toDigits 10 n :=
  String.toList_ofList

theorem threeDigits_inj {n n' : Nat} (h : threeDigits n = threeDigits n') : n = n' := by
  have value (n : Nat) : Nat.ofDigitChars 10 (threeDigits n).toList 0 = n := by
    rw [toList_threeDigits, Nat.ofDigitChars_append, Nat.ofDigitChars_replicate_zero, Nat.mul_zero,
      Nat.ofDigitChars_ten_toDigits]
  rw [← value n, h, value n']

theorem underscore_not_mem_threeDigits (n : Nat) : '_' ∉ (threeDigits n).toList := by
  rw [toList_threeDigits, List.mem_append]
  rintro (zero | digit)
  · exact absurd (List.eq_of_mem_replicate zero) (by decide)
  · exact Registry.not_mem_toDigits rfl n digit

/-- Whatever the events, made up ids of different numbers are different: the last
    underscore tells where the number begins. -/
theorem defaultId_inj {event event' : String} {n n' : Nat}
    (h : defaultId event n = defaultId event' n') : n = n' := by
  have chars := congrArg String.toList h
  unfold defaultId at chars
  have underscore : "_".toList = ['_'] := rfl
  simp only [String.toList_append, underscore, List.append_assoc, List.singleton_append] at chars
  simp only [← List.append_assoc] at chars
  obtain ⟨-, digits⟩ := Registry.cut_at_last (underscore_not_mem_threeDigits n)
    (underscore_not_mem_threeDigits n') chars
  exact threeDigits_inj (String.toList_inj.mp digits)

/-! ## Documents without ids -/

/-- The record of a rule writes no id, or an empty one. -/
def IsUnnamed (record : Document) : Prop :=
  record.get? "id" = none ∨ record.get? "id" = some .null ∨ record.get? "id" = some (.str "")

/-- The id of a checked rule is what its record writes. -/
theorem id_of_ruleOf {place : String} {record : List (String × Document)} {r : RuleSpec}
    (h : (ruleOf place record).value? = some r) : field record "id" none optionalText? = some r.id := by
  replace h := Checked.of_flagging h
  iterate 9 obtain ⟨_, _, h, -, _⟩ := Checked.seq_eq_some.mp h
  obtain ⟨_, id, _⟩ := Checked.map_eq_some.mp h
  subst_vars
  rwa [simpleField, Checked.ofOption_value?] at id

/-- A rule whose record writes no id is given one. -/
theorem name_of_unnamed {place : String} {record : List (String × Document)} {r : RuleSpec}
    (h : (ruleOf place record).value? = some r) (unnamed : IsUnnamed (.dict record)) (index : Nat) :
    r.name index = defaultId r.event index := by
  have id := id_of_ruleOf h
  unfold field at id
  unfold RuleSpec.name
  rcases unnamed with none | null | empty
  · rw [show Document.field? record "id" = _ from none] at id
    rw [← Option.some.inj id]
    rfl
  · rw [show Document.field? record "id" = _ from null] at id
    rw [← Option.some.inj id]
    rfl
  · rw [show Document.field? record "id" = _ from empty] at id
    rw [← Option.some.inj id]
    rfl

/-- The rules of a document without ids are named after their events and numbers. -/
theorem ids_of_unnamed {d : Document} {rs : RuleSet} (loaded : ofDocument d = .ok rs)
    (unnamed : ∀ record ∈ listed d "rules", IsUnnamed record) :
    rs.rules.map (·.id) = rs.rules.mapIdx fun index rule => defaultId rule.event index := by
  obtain ⟨spec, form, build⟩ := exists_of_bind_ok loaded
  have written := forall₂_of_ofDocument form
  have built := (Spec.build_eq_ok.mp build).2
  have many : spec.rules.length = rs.rules.length := by
    rw [← built.length_eq, List.length_zipIdx]
  have many' : (listed d "rules").length = rs.rules.length := by
    rw [written.length_eq, many]
  refine List.ext_getElem (by simp) fun i hi _ => ?_
  rw [List.length_map] at hi
  rw [List.getElem_map, List.getElem_mapIdx]
  -- the rule, the checked one that it was built from, and the record of that one
  have made := built.get (by rwa [List.length_zipIdx, many]) hi
  obtain ⟨place, record, item, checked⟩ := written.get (i := i) (by omega) (by omega)
  simp only [List.get_eq_getElem, List.getElem_zipIdx, Nat.zero_add] at made item checked
  obtain ⟨condition, modifications, -, -, rule, -⟩ := build_eq_ok.mp made
  rw [rule]
  exact name_of_unnamed checked (item ▸ unnamed _ (List.getElem_mem _)) i

theorem nodup_ids_of_unnamed {d : Document} {rs : RuleSet} (loaded : ofDocument d = .ok rs)
    (unnamed : ∀ record ∈ listed d "rules", IsUnnamed record) :
    (rs.rules.map (·.id)).Nodup := by
  rw [ids_of_unnamed loaded unnamed]
  refine List.pairwise_iff_getElem.mpr fun i j hi hj lt same => ?_
  rw [List.getElem_mapIdx, List.getElem_mapIdx] at same
  exact Nat.ne_of_lt lt (defaultId_inj same)

end RuleSet

/-! ## Registering -/

namespace Registry

variable {r : Registry} {batch : List Rule} {scope : String}

/-- Numbering leaves a batch alone whose names are distinct. -/
theorem numbered_of_nodup (distinct : (batch.map (·.id)).Nodup) : numbered batch = batch := by
  refine List.ext_getElem (by simp [numbered]) fun i _ _ => ?_
  have once : ¬1 < occurrences batch batch[i].id := by
    rw [occurrences_eq_count]
    exact Nat.not_lt.mpr (List.nodup_iff_count_le_one.mp distinct _)
  simp only [numbered, List.getElem_mapIdx, numberedId, if_neg once]

/-- A scope without rules takes a batch of distinct names, whatever would be done
    about names that are repeated. -/
theorem registerBatch_of_empty (empty : r.rulesOf scope = [])
    (distinct : (batch.map (·.id)).Nodup) (policy : DuplicatePolicy) :
    r.registerBatch batch scope policy = .ok (batch, r.append scope batch) := by
  have same : renamed policy batch = batch := by
    cases policy with
    | error => rfl
    | suffix => exact numbered_of_nodup distinct
  have takes : r.Admits scope (renamed policy batch) := by
    rw [same]
    refine ⟨distinct, fun rule _ => ?_⟩
    rw [empty]
    exact List.not_mem_nil
  rw [registerBatch_of_admits takes, same]

end Registry

/-! ## Loading -/

namespace Engine

open Attempt

variable {η ω : Type}

/-- Once the rules are registered, loading does not touch them, and fails for a fact
    without a name if it fails. -/
theorem load_of_accepted {e : Engine η ω} {rs : RuleSet} {scope : String}
    {registered : List Rule} {registry : Registry}
    (h : e.registry.registerBatch rs.rules scope e.config.duplicates = .ok (registered, registry)) :
    ∃ outcome e', (load rs scope).on e = (outcome, e') ∧ e'.registry = registry ∧
      (outcome = .ok (registered.map (·.id)) ∨
        Facts.Nameless rs.facts ∧ outcome = .error (.mismatch .badKey)) := by
  have same : (e.admitted registry scope rs.facts).registry = registry := by
    unfold admitted
    split <;> rfl
  rw [load_of_registered h]
  cases e.receiver? scope with
  | none => exact ⟨_, _, rfl, same, .inl rfl⟩
  | some layer =>
    have stored := storeAll_on rs.facts layer (e.admitted registry scope rs.facts)
    by_cases nameless : Facts.Nameless rs.facts
    · rw [if_pos nameless] at stored
      exact ⟨_, _, bind_of_error stored _, same, .inr ⟨nameless, rfl⟩⟩
    · rw [if_neg nameless] at stored
      exact ⟨_, _, bind_of_ok stored _, same, .inl rfl⟩

/-- A document without ids gives its rules ids that are all different. An engine that
    has no rules in a scope takes all of them there under these ids, whatever its
    policy for repeated ids is; loading only fails if the document has a fact without
    a name, for that fact. -/
theorem defaults_never_clash {d : Document} {rs : RuleSet} (loaded : RuleSet.ofDocument d = .ok rs)
    (unnamed : ∀ record ∈ RuleSet.listed d "rules", RuleSet.IsUnnamed record) :
    (rs.rules.map (·.id)).Nodup ∧
      ∀ {η ω : Type} (e : Engine η ω) (scope : String), e.registry.rulesOf scope = [] →
        ∃ outcome e', (load rs scope).on e = (outcome, e') ∧
          e'.registry.rulesOf scope = rs.rules ∧
          (outcome = .ok (rs.rules.map (·.id)) ∨
            Facts.Nameless rs.facts ∧ outcome = .error (.mismatch .badKey)) := by
  have distinct := RuleSet.nodup_ids_of_unnamed loaded unnamed
  refine ⟨distinct, fun e scope empty => ?_⟩
  obtain ⟨outcome, e', ends, registered, given⟩ :=
    load_of_accepted (Registry.registerBatch_of_empty empty distinct e.config.duplicates)
  refine ⟨outcome, e', ends, ?_, given⟩
  rw [registered, Registry.rulesOf_append, if_pos rfl, empty, List.nil_append]

namespace Gatehouse

/-- Three rules without ids; the events of the first two read alike in an id. -/
def orders : Document :=
  .dict
    [ ("rules", .list
        [ .dict [("event", .str "gate:open")],
          .dict [("id", .str ""), ("event", .str "gate_open")],
          .dict [("id", .null), ("trigger", .dict
            [("action", .str "jump"), ("kind", .str "pressed")])] ]) ]

/-- An engine with nothing in it that numbers repeated ids. -/
def manned : Engine Unit Unit :=
  ofConfig { Config.default with duplicates := .suffix } (.collecting []) ()

theorem orders_kept_apart : ∃ rs, RuleSet.ofDocument orders = .ok rs ∧
    (∀ record ∈ RuleSet.listed orders "rules", RuleSet.IsUnnamed record) ∧
    rs.rules.map (·.id)
      = ["rule_gate_open_000", "rule_gate_open_001", "rule_action_jump_pressed_002"] ∧
    ∃ outcome e', (load rs "gate").on manned = (outcome, e') ∧
      e'.registry.rulesOf "gate" = rs.rules ∧ outcome = .ok (rs.rules.map (·.id)) := by
  have unnamed : ∀ record ∈ RuleSet.listed orders "rules", RuleSet.IsUnnamed record := by
    rintro _ (_ | ⟨_, _ | ⟨_, _ | ⟨_, ⟨⟩⟩⟩⟩)
    · exact .inl rfl
    · exact .inr (.inr rfl)
    · exact .inr (.inl rfl)
  have seen : (RuleSet.ofDocument orders).toOption.map (fun rs => decide (rs.rules.map (·.id)
      = ["rule_gate_open_000", "rule_gate_open_001", "rule_action_jump_pressed_002"] ∧
        ¬Facts.Nameless rs.facts)) = some true := by
    decide +kernel
  obtain ⟨rs, loaded, holds⟩ := exists_of_map_toOption seen
  obtain ⟨ids, named⟩ := of_decide_eq_true holds
  obtain ⟨outcome, e', ends, taken, given⟩ :=
    (defaults_never_clash loaded unnamed).2 manned "gate" rfl
  exact ⟨rs, loaded, unnamed, ids, outcome, e', ends, taken,
    given.resolve_right fun nameless => named nameless.1⟩

end Gatehouse

end Engine

end Cascade
