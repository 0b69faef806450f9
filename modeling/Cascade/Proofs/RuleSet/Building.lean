-- SUMMARY: Building rules: a checked rule is built exactly if its parts are read and its names are not empty, and which rule it becomes.
import Cascade.Proofs.Rule.Record
import Cascade.Proofs.Rule.Sound

/-! # Rules that are built

A checked rule becomes a rule if its condition and its modifications are read and
none of its names is empty. Everything else is taken over as it is, only an id
that is missing or empty gives way to one that is made of the event and the number
of the rule. -/

namespace Cascade

namespace Rule

structure HasNames (r : Rule) : Prop where
  id : r.id ≠ ""
  event : r.event ≠ ""
  actions : ∀ name ∈ r.actions, name ≠ ""
  outputs : ∀ name ∈ r.outputs, name ≠ ""

theorem nonEmpty_eq_ok {s name : String} {fault : Fault} :
    nonEmpty (.str s) fault = .ok name ↔ s ≠ "" ∧ s = name := by
  by_cases h : s = ""
  · simp [nonEmpty, h]
  · simp [nonEmpty, h]

theorem names_eq_ok {id list : String} {texts found : List String} :
    names id list (.texts texts) = .ok found ↔ (∀ name ∈ texts, name ≠ "") ∧ texts = found := by
  constructor
  · intro h
    have named : ∀ name ∈ texts, name ≠ "" := by
      intro name mem
      have each : ∀ d ∈ texts.map Document.str, ∃ name,
          nonEmpty d (.refused (.emptyName id list)) = .ok name := forall_of_mapM_ok h
      obtain ⟨_, read⟩ := each (.str name) (List.mem_map.mpr ⟨name, mem, rfl⟩)
      exact (nonEmpty_eq_ok.mp read).1
    rw [names_texts named] at h
    exact ⟨named, Except.ok.inj h⟩
  · rintro ⟨named, rfl⟩
    exact names_texts named id list

/-- The parts of a rule make a rule exactly if none of its names is empty, and then
    that one. -/
theorem parts_rule_eq_ok {r rule : Rule} (layered : ∀ m ∈ r.modifications,
    m.layer = none ∨ ∃ name, m.layer = some (.named name)) :
    r.parts.rule = .ok rule ↔ r.HasNames ∧ r = rule := by
  have ready : (r.modifications.map ModificationPart.ready).mapM (·.modification r.id)
      = .ok r.modifications :=
    mapM_map_of_ok fun m mem => modification_ready (layered m mem) r.id
  constructor
  · intro h
    obtain ⟨_, named, h⟩ := exists_of_bind_ok h
    obtain ⟨id, rfl⟩ := nonEmpty_eq_ok.mp named
    obtain ⟨_, named, h⟩ := exists_of_bind_ok h
    obtain ⟨event, rfl⟩ := nonEmpty_eq_ok.mp named
    obtain ⟨_, condition, h⟩ := exists_of_bind_ok h
    cases condition
    obtain ⟨_, given, h⟩ := exists_of_bind_ok h
    cases given
    obtain ⟨_, modifications, h⟩ := exists_of_bind_ok h
    obtain rfl := Except.ok.inj (ready.symm.trans modifications)
    obtain ⟨_, named, h⟩ := exists_of_bind_ok h
    obtain ⟨actions, rfl⟩ := names_eq_ok.mp named
    obtain ⟨_, named, h⟩ := exists_of_bind_ok h
    obtain ⟨outputs, rfl⟩ := names_eq_ok.mp named
    exact ⟨⟨id, event, actions, outputs⟩, Except.ok.inj h⟩
  · rintro ⟨named, rfl⟩
    have actions := names_texts named.actions
    have outputs := names_texts named.outputs
    simp [parts, Draft.rule, nonEmpty_str named.id, nonEmpty_str named.event,
      Condition.Loose.condition, ready, actions, outputs, bind, Except.bind, pure, Except.pure]

end Rule

namespace RuleSet

/-- The id of a checked rule: its own, or one made of its event and number. -/
def RuleSpec.name (r : RuleSpec) (index : Nat) : String :=
  (r.id.filter (· ≠ "")).getD (defaultId r.event index)

/-- The rule that a checked one becomes with a condition and modifications that
    have been read. -/
def RuleSpec.ready (r : RuleSpec) (index : Nat) (condition : Condition)
    (modifications : List Modification) : Rule where
  id := r.name index
  event := r.event
  condition := condition
  modifications := modifications
  actions := r.actions
  outputs := r.outputs
  consumption := .bool r.consumes
  priority := .int r.priority
  enablement := .bool r.enabled

variable {r : RuleSpec} {index : Nat} {rule : Rule}

theorem build_eq (r : RuleSpec) (index : Nat) :
    r.build index = r.buildCondition >>= fun condition =>
      r.modifications.mapM (·.build) >>= fun modifications =>
        (r.ready index condition modifications).parts.rule := rfl

/-- A checked rule is built exactly if its parts are read and its names are not
    empty. -/
theorem build_eq_ok : r.build index = .ok rule ↔
    ∃ condition modifications, r.buildCondition = .ok condition ∧
      r.modifications.mapM (·.build) = .ok modifications ∧
      rule = r.ready index condition modifications ∧ rule.HasNames := by
  have layered {modifications : List Modification}
      (read : r.modifications.mapM (·.build) = .ok modifications) :
      ∀ m ∈ modifications, m.layer = none ∨ ∃ name, m.layer = some (.named name) := fun m mem =>
    (Yields.mapM (fun m _ => named_modification m) modifications read m mem).layer
  rw [build_eq]
  constructor
  · intro h
    obtain ⟨condition, asked, h⟩ := exists_of_bind_ok h
    obtain ⟨modifications, read, h⟩ := exists_of_bind_ok h
    obtain ⟨named, rfl⟩ := (Rule.parts_rule_eq_ok (layered read)).mp h
    exact ⟨condition, modifications, asked, read, rfl, named⟩
  · rintro ⟨condition, modifications, asked, read, rfl, named⟩
    rw [asked]
    change (r.modifications.mapM (·.build) >>= _) = _
    rw [read]
    exact (Rule.parts_rule_eq_ok (layered read)).mpr ⟨named, rfl⟩

/-! ## Rule sets -/

theorem naming_eq_ok {α : Type} {wrap : Fault → Fault} {x : Except Fault α} {a : α} :
    naming wrap x = .ok a ↔ x = .ok a := by
  cases x with
  | error f => simp [naming, Except.mapError]
  | ok b => rfl

/-- A checked rule set is built exactly if its facts are read and its rules are built,
    one by one. -/
theorem Spec.build_eq_ok {s : Spec} {rs : RuleSet} : s.build = .ok rs ↔
    List.Forall₂ (fun written fact =>
        written.1 = fact.1 ∧ Fact.ofDocument written.2 = .ok fact.2) s.facts rs.facts ∧
      List.Forall₂ (fun numbered rule => numbered.1.build numbered.2 = .ok rule)
        s.rules.zipIdx rs.rules := by
  have named (written : String × Document) (fact : String × Fact) :
      (do return (written.1, ← naming (.badFact written.1) (Fact.ofDocument written.2)))
          = Except.ok fact ↔
        written.1 = fact.1 ∧ Fact.ofDocument written.2 = .ok fact.2 := by
    cases Fact.ofDocument written.2 with
    | error f => simp [naming, Except.mapError, bind, Except.bind]
    | ok f => simp [naming, Except.mapError, bind, Except.bind, pure, Except.pure, Prod.ext_iff]
  simp only [← named]
  constructor
  · intro h
    obtain ⟨facts, read, h⟩ := exists_of_bind_ok h
    obtain ⟨rules, built, h⟩ := exists_of_bind_ok h
    cases h
    exact ⟨mapM_eq_ok.mp read, (mapM_eq_ok.mp built).imp fun _ _ => naming_eq_ok.mp⟩
  · rintro ⟨read, built⟩
    have facts := mapM_eq_ok.mpr read
    have rules : s.rules.zipIdx.mapM (fun numbered =>
        naming (.badRule (numbered.1.label numbered.2)) (numbered.1.build numbered.2))
          = .ok rs.rules :=
      mapM_eq_ok.mpr (built.imp fun _ _ => naming_eq_ok.mpr)
    refine (congrArg (· >>= _) facts).trans ?_
    exact congrArg (· >>= fun rules => .ok (RuleSet.mk rs.facts rules)) rules

end RuleSet

end Cascade
