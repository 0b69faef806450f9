-- SUMMARY: Parts of rule sets as documents: which facts, conditions and modifications have the form that rule sets ask for when they are written.
import Cascade.Proofs.RuleSet.Conjunctions

/-! # Parts of rule sets that are written

The form of rule set documents is stricter than the records of facts, conditions and
modifications that a rule set writes. It has room for every fact that was read from a
document, and for every condition, by the text that it was read from. Of modifications
it has room for those that have no value and those that set a constant: computed values
are written as records, and so are amounts and operands, constant or not, where the form
asks for a text or a number. -/

namespace Cascade

open Document

/-! ## Facts -/

namespace Fact

theorem writable_ofKind (k : Kind) (d : Document) : Yields (ofKind k d) IsWritable := by
  unfold ofKind
  split
  case h_3 n =>
    cases floatOfInt? n with
    | none => exact .error _
    | some x => exact .ok trivial
  case h_6 items =>
    cases ints? items with
    | none => exact .error _
    | some ns => exact .ok trivial
  case h_7 items =>
    cases texts? items with
    | none => exact .error _
    | some ss => exact .ok trivial
  all_goals first | exact .ok trivial | exact .error _

theorem writable_ofBare (d : Document) : Yields (ofBare d) IsWritable := by
  cases d with
  | list items =>
    intro f read
    obtain ⟨ns, -, rfl⟩ | ⟨ss, -, rfl⟩ := of_ofBare_list read
    · exact trivial
    · exact trivial
  | null => exact .error _
  | dict fields => exact .error _
  | _ => exact .ok trivial

/-- A fact of a document can be written as a record. -/
theorem writable_ofDocument (d : Document) : Yields (ofDocument d) IsWritable := by
  unfold ofDocument
  split
  · unfold ofTagged
    split
    · split
      · exact .error _
      · split
        · exact writable_ofKind _ _
        · exact .error _
    · exact .error _
  · exact writable_ofBare d

theorem ofDocument_toDocument {f : Fact} (h : f.IsWritable) : ofDocument f.toDocument = .ok f := by
  have tagged : f.toDocument.isTagged = true := rfl
  rw [ofDocument, if_pos tagged, ofTagged_toDocument h]

end Fact

namespace RuleSet

/-! ## Conditions -/

open ConditionSpec in
theorem ofDocuments?_toDocuments {cs : List Condition} (h : ∀ c ∈ cs, Stands c.toDocument c) :
    ∃ specs, ofDocuments? (Condition.toDocuments cs) = some specs ∧ buildAll specs = .ok cs := by
  induction cs with
  | nil => exact ⟨[], by rw [Condition.toDocuments, ofDocuments?], rfl⟩
  | cons c cs ih =>
    obtain ⟨⟨spec, form, built⟩, rest⟩ := List.forall_mem_cons.mp h
    obtain ⟨specs, forms, builts⟩ := ih rest
    refine ⟨spec :: specs, ?_, ?_⟩
    · rw [Condition.toDocuments, ofDocuments?, form, forms]
      rfl
    · rw [buildAll, built, builts]
      rfl

/-- A group in the strict form is read part by part. -/
theorem ofDocument?_group {name : String} {combine : List ConditionSpec → ConditionSpec}
    (h : (name, combine) = ("all", .all) ∨ (name, combine) = ("any", .any))
    {fields : List (String × Document)} {ds : List Document}
    (only : hasOnly fields ["kind", "conditions"])
    (kind : field? fields "kind" = some (.str name))
    (conditions : field? fields "conditions" = some (.list ds)) :
    ConditionSpec.ofDocument? (.dict fields)
      = (ConditionSpec.ofDocuments? ds).map combine := by
  rw [ConditionSpec.ofDocument?, kind]
  rcases h with h | h
  all_goals
    cases h
    simp only [Option.bind_some, text?, if_pos only]
    split
    case h_1 none => cases conditions.symm.trans none
    case h_2 items found =>
      cases conditions.symm.trans found
      rfl
    case h_3 d other found =>
      cases conditions.symm.trans found
      exact absurd rfl (other ds)

/-- So is a negation. -/
theorem ofDocument?_negation {fields : List (String × Document)} {d : Document}
    (only : hasOnly fields ["kind", "condition"])
    (kind : field? fields "kind" = some (.str "not"))
    (condition : field? fields "condition" = some d) :
    ConditionSpec.ofDocument? (.dict fields) = (ConditionSpec.ofDocument? d).map .not := by
  rw [ConditionSpec.ofDocument?, kind]
  simp only [Option.bind_some, text?, if_pos only]
  split
  case h_1 part found =>
    cases condition.symm.trans found
    rfl
  case h_2 none => cases condition.symm.trans none

theorem stands_text {e : Expr} {source : String} (parsed : Expr.parse source = .ok e) :
    Stands (Condition.expr e (some source)).toDocument (.expr e (some source)) := by
  refine ⟨.expr source, ?_, ?_⟩
  · unfold Condition.toDocument ConditionSpec.ofDocument?
    simp [field?, text?, Condition.kindName, hasOnly, textField?]
  · rw [ConditionSpec.build, Condition.ofText, parsed]
    rfl

theorem stands_always : Stands Condition.always.toDocument .always := by
  refine ⟨.always, ?_, rfl⟩
  unfold Condition.toDocument ConditionSpec.ofDocument?
  simp [field?, text?, Condition.kindName, hasOnly]

theorem stands_compares {op : Comparison} {name : String} {f : Fact} (h : f.IsWritable) :
    Stands (Condition.compares op (.name name) f).toDocument (.compares op (.name name) f) := by
  refine ⟨.compares op name f.toDocument, ?_, ?_⟩
  · unfold Condition.toDocument ConditionSpec.ofDocument?
    cases op <;>
      simp [field?, text?, Condition.kindName, Condition.comparisonName, Condition.comparisonOf?,
        Comparison.all, hasOnly, ConditionSpec.comparison?, textField?]
  · rw [ConditionSpec.build, Fact.ofDocument_toDocument h]
    rfl

theorem stands_present (name : String) :
    Stands (Condition.present (.name name)).toDocument (.present (.name name)) := by
  refine ⟨.present name, ?_, rfl⟩
  unfold Condition.toDocument ConditionSpec.ofDocument?
  simp [field?, text?, Condition.kindName, hasOnly, ConditionSpec.keyed?, textField?]

theorem stands_absent (name : String) :
    Stands (Condition.absent (.name name)).toDocument (.absent (.name name)) := by
  refine ⟨.absent name, ?_, rfl⟩
  unfold Condition.toDocument ConditionSpec.ofDocument?
  simp [field?, text?, Condition.kindName, hasOnly, ConditionSpec.keyed?, textField?]

theorem stands_flag (expected : Bool) (name : String) :
    Stands (Condition.flag expected (.name name)).toDocument (.flag expected (.name name)) := by
  refine ⟨.flag expected name, ?_, rfl⟩
  unfold Condition.toDocument ConditionSpec.ofDocument?
  cases expected <;>
    simp [field?, text?, Condition.kindName, hasOnly, ConditionSpec.keyed?, textField?]

theorem stands_all {parts : List Condition} (h : ∀ c ∈ parts, Stands c.toDocument c) :
    Stands (Condition.all parts).toDocument (.all parts) := by
  obtain ⟨specs, forms, built⟩ := ofDocuments?_toDocuments h
  refine ⟨.all specs, ?_, ?_⟩
  · unfold Condition.toDocument
    rw [ofDocument?_group (.inl rfl) rfl rfl rfl, forms]
    rfl
  · rw [ConditionSpec.build, built]
    rfl

theorem stands_any {parts : List Condition} (h : ∀ c ∈ parts, Stands c.toDocument c) :
    Stands (Condition.any parts).toDocument (.any parts) := by
  obtain ⟨specs, forms, built⟩ := ofDocuments?_toDocuments h
  refine ⟨.any specs, ?_, ?_⟩
  · unfold Condition.toDocument
    rw [ofDocument?_group (.inr rfl) rfl rfl rfl, forms]
    rfl
  · rw [ConditionSpec.build, built]
    rfl

theorem stands_not {part : Condition} (h : Stands part.toDocument part) :
    Stands (Condition.not part).toDocument (.not part) := by
  obtain ⟨spec, form, built⟩ := h
  refine ⟨.not spec, ?_, ?_⟩
  · rw [Condition.toDocument, ofDocument?_negation rfl rfl rfl, form]
    rfl
  · rw [ConditionSpec.build, built]
    rfl

/-- A group of one condition or none is what it would be with others. -/
theorem stands_conjunction {parts : List Condition} (h : ∀ c ∈ parts, Stands c.toDocument c) :
    Stands (Condition.conjunction parts).toDocument (Condition.conjunction parts) := by
  match parts with
  | [] => exact stands_always
  | [c] => exact h c (List.mem_singleton.mpr rfl)
  | _ :: _ :: _ => exact stands_all h

theorem stands_ofText (source : String) :
    Yields (Condition.ofText source) fun c => Stands c.toDocument c :=
  (Yields.self _).bind fun _ parsed => .ok (stands_text parsed)

mutual
/-- Whatever a strict form stands for is written as a strict form that stands for it. -/
theorem stands_build (spec : ConditionSpec) :
    Yields spec.build fun c => Stands c.toDocument c := by
  cases spec with
  | text source => exact stands_ofText source
  | always => exact .ok stands_always
  | expr source => exact stands_ofText source
  | compares op key value =>
    exact (Fact.writable_ofDocument value).bind fun _ written => .ok (stands_compares written)
  | present key => exact .ok (stands_present key)
  | absent key => exact .ok (stands_absent key)
  | flag expected key => exact .ok (stands_flag expected key)
  | all parts => exact (stands_buildAll parts).bind fun _ each => .ok (stands_all each)
  | any parts => exact (stands_buildAll parts).bind fun _ each => .ok (stands_any each)
  | not part => exact (stands_build part).bind fun _ inner => .ok (stands_not inner)

theorem stands_buildAll (specs : List ConditionSpec) :
    Yields (ConditionSpec.buildAll specs) fun cs => ∀ c ∈ cs, Stands c.toDocument c := by
  cases specs with
  | nil => exact .ok nofun
  | cons spec specs =>
    exact (stands_build spec).bind fun _ first => (stands_buildAll specs).bind fun _ rest =>
      .ok (List.forall_mem_cons.mpr ⟨first, rest⟩)
end

/-- So is the condition of a rule, whatever it was put together from. -/
theorem stands_buildCondition (r : RuleSpec) :
    Yields r.buildCondition fun c => Stands c.toDocument c := by
  unfold RuleSpec.buildCondition
  refine (Yields.mapM fun source _ => stands_ofText source).bind fun parts each => ?_
  split
  · exact .ok (stands_conjunction each)
  · refine (stands_buildAll _).bind fun specs older => .ok ?_
    exact stands_conjunction (List.forall_mem_cons.mpr ⟨stands_conjunction older, each⟩)

/-! ## Modifications -/

/-- The effects that the form of rule sets has room for when they are written: those
    without a value, and those that set a constant. -/
def plain : Effect → Bool
  | .set (.constant _) | .setIfChanged (.constant _) _ | .remove | .toggle => true
  | _ => false

def Changes (d : Document) (m : Modification) : Prop :=
  ∃ spec, ModificationSpec.ofDocument? d = some spec ∧ spec.build = .ok m

/-- The fields of a modification, of which those after the layer depend on the effect. -/
def changeFields (key : String) (layer : Option LayerName) (effect : Effect) :
    List (String × Document) :=
  [ ("op", .str effect.name), ("key", .str key),
    ("layer", Modification.layerDocument ⟨.name key, layer.map .named, effect⟩) ]
    ++ effect.toFields

variable {key : String} {layer : Option LayerName} {effect : Effect}

theorem layer_changeFields :
    field (changeFields key layer effect) "layer" none optionalLayer? = some layer := by
  rcases layer with _ | _ | _ <;> rfl

/-- A modification is read if its effect is and there are no other fields. -/
theorem changes_of_effect {form : EffectSpec} {names : List String}
    (read : ModificationSpec.effect? (changeFields key layer effect) = some (form, names))
    (only : hasOnly (changeFields key layer effect) ("op" :: "key" :: "layer" :: names))
    (built : form.build = .ok effect) :
    Changes (.dict (changeFields key layer effect)) ⟨.name key, layer.map .named, effect⟩ := by
  refine ⟨⟨key, layer, form⟩, ?_, ?_⟩
  · have named : textField? (changeFields key layer effect) "key" = some key := rfl
    simpa [ModificationSpec.ofDocument?, read, named, layer_changeFields] using only
  · rw [ModificationSpec.build, built]
    rfl

/-- A constant of a document can be written as a record. -/
theorem writable_source (source : Source) :
    Yields source.build fun value => ∀ f, value = .constant f → f.IsWritable := by
  cases source with
  | expr text => exact (Yields.self _).bind fun e _ => .ok nofun
  | value d =>
    refine (Fact.writable_ofDocument d).bind fun f written => .ok fun g same => ?_
    cases same
    exact written

theorem source_constant {f : Fact} (h : f.IsWritable) :
    (Source.value f.toDocument).build = .ok (.constant f) := by
  rw [Source.build, Fact.ofDocument_toDocument h]
  rfl

theorem read_constant (f : Fact) :
    ModificationSpec.effect? (changeFields key layer (.set (.constant f)))
      = some (.set (.value f.toDocument), ["value", "expr", "outputs_on_change"]) := rfl

theorem read_conditional (f : Fact) (outputs : List String) :
    ModificationSpec.effect?
        (changeFields key layer (.setIfChanged (.constant f) (outputs.map .str)))
      = some (.setIfChanged (.value f.toDocument) outputs,
          ["value", "expr", "outputs_on_change"]) := by
  generalize shape : changeFields key layer (.setIfChanged (.constant f) (outputs.map .str)) = fields
  have source : ModificationSpec.source? fields = some (.value f.toDocument) := shape ▸ rfl
  have texts : field fields "outputs_on_change" [] texts? = some outputs :=
    shape ▸ texts?_eq_some.mpr rfl
  have name : textField? fields "op" = some "set_if_changed" := shape ▸ rfl
  simp [ModificationSpec.effect?, ModificationSpec.setting?, name, source, texts]

/-- What a plain effect becomes is written as a form of it. -/
theorem changes_build {spec : ModificationSpec} {m : Modification} (built : spec.build = .ok m)
    (h : plain m.effect) : Changes m.toDocument m := by
  obtain ⟨key, layer, form⟩ := spec
  obtain ⟨effect, made, built⟩ := exists_of_bind_ok built
  cases built
  cases form with
  | set source =>
    obtain ⟨value, given, made⟩ := exists_of_bind_ok made
    cases made
    cases value with
    | computed e => cases h
    | constant f =>
      have back := source_constant (writable_source source _ given f rfl)
      exact changes_of_effect (read_constant f) rfl (by rw [EffectSpec.build, back]; rfl)
  | setIfChanged source outputs =>
    obtain ⟨value, given, made⟩ := exists_of_bind_ok made
    cases made
    cases value with
    | computed e => cases h
    | constant f =>
      have back := source_constant (writable_source source _ given f rfl)
      exact changes_of_effect (read_conditional f outputs) rfl (by rw [EffectSpec.build, back]; rfl)
  | increment amount | decrement amount | combine op amount =>
    obtain ⟨value, -, made⟩ := exists_of_bind_ok made
    cases made
    cases h
  | remove =>
    cases made
    exact changes_of_effect rfl rfl rfl
  | toggle =>
    cases made
    exact changes_of_effect rfl rfl rfl

/-- What is computed is written as a record, and so is every amount. -/
theorem ofDocument?_other {m : Modification} (h : plain m.effect = false) :
    ModificationSpec.ofDocument? m.toDocument = none := by
  obtain ⟨key, layer, effect⟩ := m
  have unread {fields : List (String × Document)} (none : ModificationSpec.effect? fields = none) :
      ModificationSpec.ofDocument? (.dict fields) = .none := by
    rw [ModificationSpec.ofDocument?, none]
    rfl
  cases effect with
  | set value =>
    cases value with
    | constant f => cases h
    | computed e => exact unread (by cases e <;> rfl)
  | setIfChanged value outputs =>
    cases value with
    | constant f => cases h
    | computed e => exact unread (by cases e <;> rfl)
  | increment amount => exact unread rfl
  | decrement amount => exact unread rfl
  | combine op operand => exact unread (by cases op <;> rfl)
  | remove => cases h
  | toggle => cases h

end RuleSet

end Cascade
