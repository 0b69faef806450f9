-- SUMMARY: Sound rules: conditions and modifications over names, events that are named and priorities that are integers; the rules of a rule set that is read from a document are sound.
import Cascade.Modification.Apply
import Cascade.Proofs.Expr.Named
import Cascade.RuleSet.Basic

/-! # Sound rules

What a document may hold where a rule is written is checked in several places.
Together the checks make sure that a rule refers to facts by names only, changes
layers that exist, names the events that it puts out and has an integer for its
priority. Applying the parts of such a rule is computed. Only the events that
follow a change of a fact are not looked at: they are texts, but one of them may
be empty. -/

namespace Cascade

variable {read : Reading} {look : Lookup}

/-! ## Conditions -/

namespace Condition

mutual
def keys : Condition → List Key
  | always => []
  | expr e _ => e.keys
  | compares _ key _ | present key | absent key | flag _ key => [key]
  | all parts | any parts => keysAll parts
  | not part => part.keys

def keysAll : List Condition → List Key
  | [] => []
  | c :: cs => c.keys ++ keysAll cs
end

/-- Every key that a condition refers to is a name. -/
def IsNamed (c : Condition) : Prop := ∀ k ∈ c.keys, k.isName

def AreNamed (cs : List Condition) : Prop := ∀ k ∈ keysAll cs, k.isName

theorem areNamed_cons {c : Condition} {cs : List Condition} :
    AreNamed (c :: cs) ↔ c.IsNamed ∧ AreNamed cs := List.forall_mem_append

theorem computed_truthOf (answers : read.Answers) {key : Key} (h : key.isName) :
    Computed (truthOf read key) := by
  obtain ⟨content, hc⟩ := answers key h
  unfold truthOf
  rw [hc]
  refine (Computed.ok content).seq fun content => ?_
  split
  · exact .ok _
  · exact .ok _
  · exact .error rfl

mutual
/-- Whether a condition over names holds is computed. -/
theorem computed_check (answers : read.Answers) (c : Condition) (h : c.IsNamed) :
    Computed (c.check read) := by
  cases c with
  | always => exact .ok true
  | expr e source => exact Expr.computed_holds answers h
  | compares op key value =>
    obtain ⟨content, hc⟩ := answers key (h key (List.mem_singleton_self key))
    unfold check
    rw [hc]
    cases content with
    | none => exact .ok false
    | some f => exact Fact.computed_compare op f value
  | present key =>
    obtain ⟨content, hc⟩ := answers key (h key (List.mem_singleton_self key))
    unfold check
    rw [hc]
    exact .ok _
  | absent key =>
    obtain ⟨content, hc⟩ := answers key (h key (List.mem_singleton_self key))
    unfold check
    rw [hc]
    exact .ok _
  | flag expected key =>
    exact (computed_truthOf answers (h key (List.mem_singleton_self key))).seq fun _ => .ok _
  | all parts => exact computed_checkAll answers parts h
  | any parts => exact computed_checkAny answers parts h
  | not part => exact (computed_check answers part h).seq fun _ => .ok _

theorem computed_checkAll (answers : read.Answers) (cs : List Condition) (h : AreNamed cs) :
    Computed (checkAll read cs) := by
  cases cs with
  | nil => exact .ok true
  | cons c cs =>
    obtain ⟨hc, hcs⟩ := areNamed_cons.mp h
    refine (computed_check answers c hc).seq fun truth => ?_
    split
    · exact computed_checkAll answers cs hcs
    · exact .ok false

theorem computed_checkAny (answers : read.Answers) (cs : List Condition) (h : AreNamed cs) :
    Computed (checkAny read cs) := by
  cases cs with
  | nil => exact .ok false
  | cons c cs =>
    obtain ⟨hc, hcs⟩ := areNamed_cons.mp h
    refine (computed_check answers c hc).seq fun truth => ?_
    split
    · exact .ok true
    · exact computed_checkAny answers cs hcs
end

theorem named_conjunction {cs : List Condition} (h : AreNamed cs) : (conjunction cs).IsNamed := by
  unfold conjunction
  split
  · exact nofun
  · exact (areNamed_cons.mp h).1
  · exact h

theorem areNamed_of_forall {cs : List Condition} (h : ∀ c ∈ cs, c.IsNamed) : AreNamed cs := by
  induction cs with
  | nil => exact nofun
  | cons c cs ih =>
    obtain ⟨hc, hcs⟩ := List.forall_mem_cons.mp h
    exact areNamed_cons.mpr ⟨hc, ih hcs⟩

theorem named_ofText (source : String) : Yields (ofText source) IsNamed :=
  (Expr.named_parse source).bind fun _ he => .ok he

end Condition

/-! ## Modifications -/

def ValueSpec.keys : ValueSpec → List Key
  | constant _ => []
  | computed e => e.keys

def Effect.keys : Effect → List Key
  | .set value | .setIfChanged value _ | .increment value | .decrement value
  | .combine _ value => value.keys
  | .remove | .toggle => []

/-- The events that follow an effect if it changes something. -/
def Effect.followers : Effect → List Document
  | .setIfChanged _ outputs => outputs
  | _ => []

/-- An effect whose value is over names; the events that follow it are texts. -/
structure Effect.IsNamed (effect : Effect) : Prop where
  values : ∀ k ∈ effect.keys, k.isName
  followers : ∀ o ∈ effect.followers, ∃ s, o = .str s

/-- A modification of a named fact over names, in a layer that exists. -/
structure Modification.IsNamed (m : Modification) : Prop where
  key : m.key.isName
  layer : m.layer = none ∨ ∃ name, m.layer = some (.named name)
  effect : m.effect.IsNamed

/-- A lookup that answers for every name in every state of the store. -/
def Lookup.Answers (look : Lookup) : Prop := ∀ db, (look db).Answers

namespace Modification

open Attempt

theorem computes_resolve (answers : look.Answers) {value : ValueSpec}
    (h : ∀ k ∈ value.keys, k.isName) : (value.resolve look).Computes := by
  intro db
  cases value with
  | constant f => exact .ok f
  | computed e => exact Expr.computed_eval (answers db) h

/-- A name can always be looked up in a store. -/
theorem read_name (db : Layered) {key : Key} (h : key.isName) :
    db.read key = .ok (db.visible? key) := by
  cases key with
  | name s => rfl
  | other d => cases h

theorem computes_current {key : Key} (h : key.isName) : (current key).Computes := by
  refine computes_reading fun db => ?_
  rw [read_name db h]
  exact .ok _

theorem computes_target (name : LayerName) :
    (Layered.target (.named name)).Computes := fun _ => .ok _

theorem computes_set {p : Place Layered} (key : Key) (f : Fact) :
    (p.set key (.fact f)).Computes := by
  refine (computes_ofExcept ?_).bind fun _ => fun _ => .ok _
  refine Computed.seq ?_ fun _ => .ok _
  unfold Facts.storable
  split
  · split
    · exact .error rfl
    · exact .ok _
  · exact .error rfl

theorem computed_get {p : Place Layered} {key : Key} (h : key.isName) (db : Layered) :
    Computed (p.get key db) := by
  cases key with
  | name s => exact .ok _
  | other d => cases h

theorem computes_setIfChanged {p : Place Layered} {key : Key} (h : key.isName) (f : Fact) :
    (p.setIfChanged key (.fact f)).Computes := by
  refine (computes_ofExcept (.ok f)).bind fun f => ?_
  refine (computes_reading (computed_get h)).bind fun stored => ?_
  split
  · exact computes_pure _
  · exact (computes_set key f).bind fun _ => computes_pure _

theorem computed_assignable (key : Key) (current : Option Fact) (new : Fact) :
    Computed (Fact.assignable key current new) := by
  unfold Fact.assignable
  split
  · exact .ok _
  · split
    · exact .ok _
    · split
      · exact Fact.computed_ofKind _ _
      · exact .error rfl

theorem computes_overwrite {key : Key} (h : key.isName) (name : LayerName)
    (visible : Option Fact) {new : Except Fault Fact} (hn : Computed new) :
    (overwrite key (.named name) visible new).Computes := by
  refine (computes_ofExcept ?_).bind fun f => (computes_target name).bind fun p => ?_
  · exact hn.seq fun f => computed_assignable key visible f
  · exact computes_setIfChanged h f

theorem computes_count (answers : look.Answers) (op : Arithmetic) {key : Key} (h : key.isName)
    {amount : ValueSpec} (ha : ∀ k ∈ amount.keys, k.isName) (name : LayerName) :
    (count op key amount look (.named name)).Computes :=
  (computes_resolve answers ha).bind fun _ => (computes_current h).bind fun visible =>
    computes_overwrite h name visible (Fact.computed_arithmetic op _ _)

theorem mem_followers {m : Modification} {changed : Bool} {o : Document}
    (h : o ∈ m.outputs changed) : o ∈ m.effect.followers := by
  unfold outputs at h
  split at h
  · rename_i value outputs he
    rw [he]
    split at h
    · exact h
    · cases h
  · cases h

/-- The layer that a modification goes to exists. -/
theorem target_named {m : Modification} (h : m.IsNamed) (default : LayerName) :
    ∃ name, m.target (.named default) = .named name := by
  unfold target
  obtain none | ⟨name, some⟩ := h.layer
  · rw [none]
    exact ⟨default, rfl⟩
  · rw [some]
    dsimp only
    split
    · exact ⟨name, rfl⟩
    · exact ⟨default, rfl⟩

/-- Applying a modification over names is computed. -/
theorem computes_apply (answers : look.Answers) {m : Modification} (h : m.IsNamed)
    (default : LayerName) : (m.apply look (.named default)).Computes := by
  obtain ⟨name, target⟩ := target_named h default
  have values := h.effect.values
  unfold apply
  rw [target]
  cases he : m.effect with
  | set value =>
    rw [he] at values
    exact (computes_resolve answers values).bind fun f => (computes_current h.key).bind
      fun visible => computes_overwrite h.key name visible (.ok f)
  | setIfChanged value outputs =>
    rw [he] at values
    refine (computes_resolve answers values).bind fun new => (computes_current h.key).bind
      fun visible => (computes_ofExcept (computed_assignable _ _ _)).bind fun f => ?_
    split
    · exact computes_pure _
    · cases name with
      | global => exact (computes_target .global).bind fun p => computes_setIfChanged h.key f
      | inner =>
        refine (computes_current h.key).bind fun visible =>
          (computes_ofExcept (.ok f)).bind fun f => ?_
        split
        · exact computes_pure _
        · exact (computes_target .inner).bind fun p => computes_setIfChanged h.key f
  | increment amount =>
    rw [he] at values
    exact computes_count answers .add h.key values name
  | decrement amount =>
    rw [he] at values
    exact computes_count answers .sub h.key values name
  | combine op operand =>
    rw [he] at values
    refine (computes_current h.key).bind fun visible => ?_
    split
    · exact computes_ofExcept (.error rfl)
    · exact (computes_resolve answers values).bind fun g =>
        computes_overwrite h.key name _ (Fact.computed_arithmetic _ _ g)
  | remove =>
    refine Computes.bind ?_ fun _ => computes_pure _
    refine (computes_target name).bind fun p => ?_
    exact (computes_reading (computed_get h.key)).bind fun _ _ => .ok _
  | toggle =>
    refine (computes_current h.key).bind fun visible => ?_
    split
    · exact (computes_target name).bind fun p => computes_setIfChanged h.key _
    · exact (computes_target name).bind fun p => computes_setIfChanged h.key _
    · exact computes_ofExcept (.error rfl)

end Modification

/-! ## Rules -/

/-- A rule over names with an integer for its priority, which names every event
    that it puts out when it fires. -/
structure Rule.IsSound (rule : Rule) : Prop where
  condition : rule.condition.IsNamed
  modifications : ∀ m ∈ rule.modifications, m.IsNamed
  outputs : ∀ o ∈ rule.outputs, o ≠ ""
  priority : ∃ n, rule.priority = .int n

namespace Rule

theorem named_names (id list : String) (texts : List String) :
    Yields (names id list (.texts texts)) fun ys => ∀ s ∈ ys, s ≠ "" := by
  unfold names
  refine Yields.seq fun items => Yields.mapM fun item _ => ?_
  unfold nonEmpty
  split
  · split
    · exact .error _
    · rename_i nonempty
      exact .ok nonempty
  · exact .error _

/-- What a draft becomes whose condition and modifications have been read. -/
theorem sound_draft {condition : Condition} {modifications : List Modification}
    {id event consumption enablement : Document} {actions : Document} {outputs : List String}
    {priority : Int} (hc : condition.IsNamed) (hm : ∀ m ∈ modifications, m.IsNamed) :
    Yields (Draft.rule {
      id, event, actions, consumption, enablement
      condition := .ready condition
      modifications := .ok (modifications.map .ready)
      outputs := .texts outputs
      priority := .int priority }) IsSound := by
  unfold Draft.rule
  refine Yields.seq fun id => Yields.seq fun event => ?_
  refine (Yields.ok (a := condition) hc).bind fun condition hc => ?_
  have kept : Yields ((modifications.map ModificationPart.ready).mapM (·.modification id))
      fun ms => ∀ m ∈ ms, m.IsNamed := by
    refine Yields.mapM fun part hp => ?_
    obtain ⟨m, hmem, rfl⟩ := List.mem_map.mp hp
    unfold ModificationPart.modification
    dsimp only
    split
    · exact .error _
    · exact .ok (hm m hmem)
  refine kept.bind fun ms hms => Yields.seq fun actions => ?_
  exact (named_names id "outputs" outputs).bind fun outputs ho => .ok ⟨hc, hms, ho, _, rfl⟩

end Rule

/-! ## Rule sets -/

namespace ConditionSpec

mutual
theorem named_build (c : ConditionSpec) : Yields c.build Condition.IsNamed := by
  cases c with
  | text source => exact Condition.named_ofText source
  | always => exact .ok nofun
  | expr source => exact Condition.named_ofText source
  | compares op key value => exact Yields.seq fun _ => .ok (Expr.named_fact key)
  | present key => exact .ok (Expr.named_fact key)
  | absent key => exact .ok (Expr.named_fact key)
  | flag expected key => exact .ok (Expr.named_fact key)
  | all parts => exact (named_buildAll parts).bind fun _ h => .ok h
  | any parts => exact (named_buildAll parts).bind fun _ h => .ok h
  | not part => exact (named_build part).bind fun _ h => .ok h

theorem named_buildAll (cs : List ConditionSpec) : Yields (buildAll cs) Condition.AreNamed := by
  cases cs with
  | nil => exact .ok nofun
  | cons c cs =>
    exact (named_build c).bind fun _ hc => (named_buildAll cs).bind fun _ hcs =>
      .ok (Condition.areNamed_cons.mpr ⟨hc, hcs⟩)
end

end ConditionSpec

namespace RuleSet

theorem named_amountOf (d : Document) :
    Yields (amountOf d) fun value => ∀ k ∈ value.keys, k.isName := by
  unfold amountOf
  split
  · exact (Expr.named_parse _).bind fun _ he => .ok he
  · exact Yields.seq fun _ => .ok nofun

theorem named_source (source : Source) :
    Yields source.build fun value => ∀ k ∈ value.keys, k.isName := by
  cases source with
  | expr text => exact (Expr.named_parse text).bind fun _ he => .ok he
  | value d => exact Yields.seq fun _ => .ok nofun

theorem named_effect (effect : EffectSpec) : Yields effect.build Effect.IsNamed := by
  cases effect with
  | set source => exact (named_source source).bind fun value hv => .ok ⟨hv, nofun⟩
  | setIfChanged source outputs =>
    refine (named_source source).bind fun value hv => .ok ⟨hv, fun o ho => ?_⟩
    obtain ⟨s, -, rfl⟩ := List.mem_map.mp ho
    exact ⟨s, rfl⟩
  | increment amount => exact (named_amountOf amount).bind fun value hv => .ok ⟨hv, nofun⟩
  | decrement amount => exact (named_amountOf amount).bind fun value hv => .ok ⟨hv, nofun⟩
  | combine op operand => exact (named_amountOf operand).bind fun value hv => .ok ⟨hv, nofun⟩
  | remove => exact .ok ⟨nofun, nofun⟩
  | toggle => exact .ok ⟨nofun, nofun⟩

theorem named_modification (m : ModificationSpec) : Yields m.build Modification.IsNamed := by
  refine (named_effect m.effect).bind fun effect he => .ok ⟨rfl, ?_, he⟩
  cases m.layer with
  | none => exact .inl rfl
  | some name => exact .inr ⟨name, rfl⟩

theorem named_condition (r : RuleSpec) : Yields r.buildCondition Condition.IsNamed := by
  unfold RuleSpec.buildCondition
  refine (Yields.mapM fun source _ => Condition.named_ofText source).bind fun parts hp => ?_
  have hp := Condition.areNamed_of_forall hp
  split
  · exact .ok (Condition.named_conjunction hp)
  · refine (ConditionSpec.named_buildAll _).bind fun specs hs => .ok ?_
    exact Condition.named_conjunction
      (Condition.areNamed_cons.mpr ⟨Condition.named_conjunction hs, hp⟩)

theorem sound_rule (r : RuleSpec) (index : Nat) : Yields (r.build index) Rule.IsSound := by
  refine (named_condition r).bind fun condition hc => ?_
  refine (Yields.mapM fun m _ => named_modification m).bind fun modifications hm => ?_
  exact Rule.sound_draft hc hm

/-- The rules of a rule set that is read from a document are sound. -/
theorem sound_ofDocument (d : Document) :
    Yields (ofDocument d) fun rules => ∀ rule ∈ rules.rules, rule.IsSound := by
  refine Yields.seq fun spec => Yields.seq fun facts => ?_
  refine (Yields.mapM fun (r, i) _ => ?_).bind fun rules hr => .ok hr
  exact (sound_rule r i).mapError _

end RuleSet

end Cascade
