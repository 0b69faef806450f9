-- SUMMARY: The record of a rule gives the rule back, and so do those of its condition and of its modifications.
import Cascade.Proofs.Expr.Record
import Cascade.Rule.Record

/-! # Rules and their records

A rule, its condition and each of its modifications write themselves as records,
and each of these is read by a reader of its own. What the constructors of a rule
admit is what its record can write: names that are names, layers that exist, and
constants that documents have. All of it comes back unchanged, and nothing is
made simpler on the way, neither a combination of one part nor an empty list. -/

namespace Cascade

open Document

/-! ## Conditions -/

namespace Condition

/-- A condition that a record can write: it asks for names only, its constants
    and expressions can be written, and the text that an expression remembers is
    one that it is read from. -/
inductive IsWritable : Condition → Prop
  | always : IsWritable always
  | expr {e : Expr} : e.IsWritable → IsWritable (expr e none)
  | read {e : Expr} {source : String} :
      Expr.parse source = .ok e → IsWritable (.expr e (some source))
  | compares {op : Comparison} {name : String} {f : Fact} :
      f.IsWritable → IsWritable (compares op (.name name) f)
  | present {name : String} : IsWritable (present (.name name))
  | absent {name : String} : IsWritable (absent (.name name))
  | flag {expected : Bool} {name : String} : IsWritable (flag expected (.name name))
  | all {parts : List Condition} : (∀ c ∈ parts, IsWritable c) → IsWritable (all parts)
  | any {parts : List Condition} : (∀ c ∈ parts, IsWritable c) → IsWritable (any parts)
  | not {part : Condition} : IsWritable part → IsWritable (not part)

theorem keyOf_name {fields : List (String × Document)} {name : String}
    (h : field? fields "key" = some (.str name)) : keyOf fields = .ok (.name name) := by
  unfold keyOf
  rw [need_of_field? h]
  rfl

/-- The records of a list give back the conditions if each of them does. -/
theorem ofRecords_toDocuments {cs : List Condition}
    (h : ∀ c ∈ cs, ofRecord c.toDocument = .ok c) : ofRecords (toDocuments cs) = .ok cs := by
  induction cs with
  | nil =>
    unfold toDocuments ofRecords
    rfl
  | cons c cs ih =>
    obtain ⟨first, rest⟩ := List.forall_mem_cons.mp h
    unfold toDocuments ofRecords
    rw [first, ih rest]
    rfl

theorem comparison_of_fields {op : Comparison} {fields : List (String × Document)}
    {name : String} {f : Fact} (hf : f.IsWritable)
    (value : field? fields "value" = some f.toDocument)
    (key : field? fields "key" = some (.str name)) :
    comparison op fields = .ok (compares op (.name name) f) := by
  have read := Fact.ofTagged_toDocument hf
  unfold Fact.toDocument at read value
  unfold comparison
  simp [need_of_field? value, read, keyOf_name key, bind, Except.bind, pure, Except.pure]

/-- The record of a combination is read part by part. -/
theorem ofRecord_parts {name : String} {combine : List Condition → Condition}
    (h : (name, combine) = ("all", all) ∨ (name, combine) = ("any", any))
    {fields : List (String × Document)} {ds : List Document}
    (kind : field? fields "kind" = some (.str name))
    (conditions : field? fields "conditions" = some (.list ds)) :
    ofRecord (.dict fields) = (do return combine (← ofRecords ds)) := by
  rw [ofRecord, kind]
  rcases h with h | h
  all_goals
    cases h
    simp only [Option.getD_some]
    split
    case h_1 none => cases conditions.symm.trans none
    case h_2 items found =>
      cases conditions.symm.trans found
      rfl
    case h_3 d other found =>
      cases conditions.symm.trans found
      exact absurd rfl (other ds)

/-- A record gives back the condition that it writes. -/
theorem ofRecord_toDocument {c : Condition} (h : c.IsWritable) :
    ofRecord c.toDocument = .ok c := by
  induction h with
  | always =>
    unfold toDocument ofRecord
    rfl
  | @expr e h =>
    have expression : field? [("kind", .str "expr"), ("expression", e.toDocument)] "expression"
        = some e.toDocument := rfl
    unfold toDocument ofRecord
    simp [field?, kindName, need_of_field? expression, Expr.ofDocument_toDocument h, bind,
      Except.bind, pure, Except.pure]
  | read parsed =>
    unfold toDocument ofRecord
    simp [field?, kindName, ofLoose, Loose.ofDocument, Loose.condition, ofText, parsed, bind, Except.bind, pure, Except.pure]
  | @compares op name f h =>
    have read (kind : Document) : comparison op
        [("kind", kind), ("key", .str name), ("value", f.toDocument)]
          = .ok (compares op (.name name) f) := comparison_of_fields h rfl rfl
    unfold toDocument ofRecord
    cases op <;> simp [field?, kindName, comparisonName, comparisonOf?, Comparison.all, read]
  | @present name | @absent name =>
    have key (kind : Document) : keyOf [("kind", kind), ("key", .str name)] = .ok (.name name) :=
      keyOf_name rfl
    unfold toDocument ofRecord
    simp [field?, kindName, key]
  | @flag expected name =>
    have key (kind : Document) : keyOf [("kind", kind), ("key", .str name)] = .ok (.name name) :=
      keyOf_name rfl
    unfold toDocument ofRecord
    cases expected <;> simp [field?, kindName, key]
  | all _ ih =>
    unfold toDocument
    refine (ofRecord_parts (.inl rfl) rfl rfl).trans ?_
    rw [ofRecords_toDocuments ih]
    rfl
  | any _ ih =>
    unfold toDocument
    refine (ofRecord_parts (.inr rfl) rfl rfl).trans ?_
    rw [ofRecords_toDocuments ih]
    rfl
  | @not part _ ih =>
    have condition : field? [("kind", .str "not"), ("condition", part.toDocument)] "condition"
        = some part.toDocument := rfl
    unfold toDocument ofRecord
    simp [field?, kindName, need_of_field? condition, ih, bind, Except.bind, pure, Except.pure]

end Condition

/-! ## Modifications -/

theorem Document.field?_append (fields fields' : List (String × Document)) (key : String) :
    field? (fields ++ fields') key = (field? fields key).or (field? fields' key) := by
  simp [field?, List.find?_append, Option.map_or]

def ValueSpec.IsWritable : ValueSpec → Prop
  | constant f => f.IsWritable
  | computed e => e.IsWritable

def Effect.IsWritable : Effect → Prop
  | set value | setIfChanged value _ | increment value | decrement value | combine _ value =>
    value.IsWritable
  | remove | toggle => True

/-- A modification that a record can write: it changes a name, in a layer that
    exists or in the default one. -/
structure Modification.IsWritable (m : Modification) : Prop where
  key : ∃ name, m.key = .name name
  layer : m.layer = none ∨ ∃ layer, m.layer = some (.named layer)
  effect : m.effect.IsWritable

/-- A value is read from its field, whatever other fields there are. -/
theorem ValueSpec.ofRecord_toField {v : ValueSpec} (h : v.IsWritable)
    {fields : List (String × Document)} (expr : field? fields "expr" = none)
    (value : field? fields "value" = none) :
    ofRecord (.dict (fields ++ [v.toField])) = .ok v := by
  cases v with
  | constant f =>
    have found : field? (fields ++ [(constant f).toField]) "value" = some f.toDocument := by
      rw [field?_append, value]
      rfl
    have none : field? (fields ++ [(constant f).toField]) "expr" = none := by
      rw [field?_append, expr]
      rfl
    have read := Fact.ofTagged_toDocument h
    simp [ofRecord, none, need_of_field? found, read, bind, Except.bind, pure, Except.pure]
  | computed e =>
    have found : field? (fields ++ [(computed e).toField]) "expr" = some e.toDocument := by
      rw [field?_append, expr]
      rfl
    have read := Expr.ofDocument_toDocument h
    simp [ofRecord, found, read, bind, Except.bind, pure, Except.pure]

namespace Modification

theorem specOf_toField {fields : List (String × Document)} {name : String} {v : ValueSpec}
    (h : v.IsWritable) (found : field? fields name = some (.dict [v.toField])) :
    specOf fields name = .ok v := by
  have read : ValueSpec.ofRecord (.dict ([] ++ [v.toField])) = .ok v :=
    ValueSpec.ofRecord_toField h rfl rfl
  rw [List.nil_append] at read
  simp [specOf, need_of_field? found, read, bind, Except.bind]

/-- The fields of an effect give it back, between those of its modification. -/
theorem effectOf_toFields {effect : Effect} (h : effect.IsWritable) (key layer : Document) :
    effectOf ([("op", .str effect.name), ("key", key), ("layer", layer)] ++ effect.toFields)
      = .ok effect := by
  cases effect with
  | set v =>
    have read : ValueSpec.ofRecord
        (.dict ([("op", .str "set"), ("key", key), ("layer", layer)] ++ [v.toField])) = .ok v :=
      ValueSpec.ofRecord_toField h rfl rfl
    simp only [List.cons_append, List.nil_append] at read
    simp [effectOf, Effect.toFields, Effect.name, field?, read]
  | setIfChanged v outputs =>
    have read : ValueSpec.ofRecord
        (.dict ([("op", .str "set_if_changed"), ("key", key), ("layer", layer),
          ("outputs_on_change", .list outputs)] ++ [v.toField])) = .ok v :=
      ValueSpec.ofRecord_toField h rfl rfl
    simp only [List.cons_append, List.nil_append] at read
    simp [effectOf, Effect.toFields, Effect.name, field?, read, Document.elements, elements?, bind,
      Except.bind, pure, Except.pure]
  | increment v | decrement v =>
    have read (op : String) : specOf [("op", .str op), ("key", key), ("layer", layer),
        ("amount", .dict [v.toField])] "amount" = .ok v := specOf_toField h rfl
    simp [effectOf, Effect.toFields, Effect.name, field?, read]
  | combine op v =>
    have read (op : String) : specOf [("op", .str op), ("key", key), ("layer", layer),
        ("operand", .dict [v.toField])] "operand" = .ok v := specOf_toField h rfl
    cases op <;>
      simp [effectOf, Effect.toFields, Effect.name, Compound.name, Compound.arithmetic,
        Compound.ofName?, Compound.all, Arithmetic.name, field?, read]
  | remove => rfl
  | toggle => rfl

theorem layerOf_layerDocument {m : Modification}
    (h : m.layer = none ∨ ∃ layer, m.layer = some (.named layer)) :
    layerOf m.layerDocument = m.layer := by
  unfold layerDocument
  rcases h with h | ⟨layer, h⟩
  · rw [h]
    rfl
  · rw [h]
    cases layer <;> rfl

/-- A record gives back the modification that it writes. -/
theorem modificationOf_toDocument {m : Modification} (h : m.IsWritable) :
    Rule.modificationOf m.toDocument = .ok m := by
  obtain ⟨key, layer, effect⟩ := m
  obtain ⟨⟨name, rfl⟩, layered, written⟩ := h
  have found : field? ([("op", .str effect.name), ("key", .str name),
      ("layer", layerDocument ⟨.name name, layer, effect⟩)] ++ effect.toFields) "key"
        = some (.str name) := rfl
  have read := effectOf_toFields written (.str name) (layerDocument ⟨.name name, layer, effect⟩)
  have back := layerOf_layerDocument layered
  simp only [List.cons_append, List.nil_append] at found read
  simp [Rule.modificationOf, toDocument, ofRecord, need_of_field? found, read, bind, Except.bind,
    pure, Except.pure]
  exact ⟨rfl, back⟩

end Modification

/-! ## Rules -/

namespace Rule

/-- A rule that a record can write: its names are not empty, its condition and
    modifications can be written, and its settings are two truth values and an
    integer. -/
structure IsWritable (r : Rule) : Prop where
  id : r.id ≠ ""
  event : r.event ≠ ""
  condition : r.condition.IsWritable
  modifications : ∀ m ∈ r.modifications, m.IsWritable
  actions : ∀ name ∈ r.actions, name ≠ ""
  outputs : ∀ name ∈ r.outputs, name ≠ ""
  consumption : ∃ b, r.consumption = .bool b
  priority : ∃ n, r.priority = .int n
  enablement : ∃ b, r.enablement = .bool b

theorem nonEmpty_str {s : String} (h : s ≠ "") (fault : Fault) :
    nonEmpty (.str s) fault = .ok s := by
  simp [nonEmpty, h]

theorem names_texts {ss : List String} (h : ∀ s ∈ ss, s ≠ "") (id list : String) :
    names id list (.texts ss) = .ok ss :=
  mapM_map_of_ok fun s mem => nonEmpty_str (h s mem) _

theorem modification_ready {m : Modification}
    (h : m.layer = none ∨ ∃ name, m.layer = some (.named name)) (id : String) :
    (ModificationPart.ready m).modification id = .ok m := by
  rcases h with layer | ⟨layer, named⟩
  · simp [ModificationPart.modification, layer]
  · simp [ModificationPart.modification, named]

theorem conditionOf_written {fields : List (String × Document)} {c : Condition}
    (h : c.IsWritable) (found : field? fields "condition" = some c.toDocument) :
    conditionOf fields = .ok c := by
  have read := Condition.ofRecord_toDocument h
  unfold Condition.toDocument at read found
  simp only [conditionOf, found, read]

/-- The parts of a rule, as its record hands them over. -/
def parts (r : Rule) : Draft where
  id := .str r.id
  event := .str r.event
  condition := .ready r.condition
  modifications := .ok (r.modifications.map .ready)
  actions := .texts r.actions
  outputs := .texts r.outputs
  consumption := r.consumption
  priority := r.priority
  enablement := r.enablement

theorem ofRecord_eq_parts {r : Rule} (h : r.IsWritable) : ofRecord r.toDocument = r.parts.rule := by
  obtain ⟨id, event, condition, modifications, actions, outputs, _, _, _⟩ := r
  obtain ⟨-, -, written, modified, -, -, ⟨consumes, rfl⟩, ⟨n, rfl⟩, ⟨enabled, rfl⟩⟩ := h
  have read : (modifications.map (·.toDocument)).mapM modificationOf = .ok modifications :=
    mapM_map_of_ok fun m mem => Modification.modificationOf_toDocument (modified m mem)
  unfold ofRecord toDocument draftOf
  dsimp only
  rw [conditionOf_written written rfl, need_of_field? (d := .str id) rfl,
    need_of_field? (d := .str event) rfl]
  simp [fieldOr, field?, Document.elements, elements?, Document.texts, read, integerOf, truthy,
    parts, bind, Except.bind, pure, Except.pure]

theorem parts_rule {r : Rule} (h : r.IsWritable) : r.parts.rule = .ok r := by
  have id := nonEmpty_str h.id
  have event := nonEmpty_str h.event
  have modifications : (r.modifications.map ModificationPart.ready).mapM (·.modification r.id)
      = .ok r.modifications :=
    mapM_map_of_ok fun m mem => modification_ready (h.modifications m mem).layer r.id
  have actions := names_texts h.actions
  have outputs := names_texts h.outputs
  simp [parts, Draft.rule, id, event, Condition.Loose.condition, modifications, actions, outputs,
    bind, Except.bind, pure, Except.pure]

/-- A record gives back the rule that it writes. -/
theorem ofRecord_toDocument {r : Rule} (h : r.IsWritable) : ofRecord r.toDocument = .ok r :=
  (ofRecord_eq_parts h).trans (parts_rule h)

end Rule

/-! ## All records -/

/-- Records give back what they write, at every level of a rule. -/
theorem records_restore :
    (∀ f : Fact, f.IsWritable → Fact.ofTagged f.toDocument = .ok f) ∧
    (∀ e : Expr, e.IsWritable → Expr.ofDocument e.toDocument = .ok e) ∧
    (∀ c : Condition, c.IsWritable → Condition.ofRecord c.toDocument = .ok c) ∧
    (∀ m : Modification, m.IsWritable → Rule.modificationOf m.toDocument = .ok m) ∧
    ∀ r : Rule, r.IsWritable → Rule.ofRecord r.toDocument = .ok r :=
  ⟨fun _ => Fact.ofTagged_toDocument, fun _ => Expr.ofDocument_toDocument,
    fun _ => Condition.ofRecord_toDocument, fun _ => Modification.modificationOf_toDocument,
    fun _ => Rule.ofRecord_toDocument⟩

namespace Errand

def richer : Expr := .binary (.arithmetic .add) (.fact (.name "gold")) (.literal (.int 1))

/-- A rule with parts in parts, with lists that are empty, and with an expression
    that remembers its text. -/
def rule (asked : Expr) : Rule where
  id := "sell"
  event := "market"
  condition := .all
    [ .expr asked (some "gold > 2 and not sold"), .any [],
      .not (.compares .eq (.name "stock") (.intList [])) ]
  modifications :=
    [ ⟨.name "gold", some (.named .global), .setIfChanged (.computed richer) [.str "richer"]⟩,
      ⟨.name "stock", none, .set (.constant (.stringList []))⟩ ]
  actions := ["cheer"]
  outputs := ["sold"]
  consumption := .bool true
  priority := .int (-3)
  enablement := .bool true

theorem rule_writable {asked : Expr} (h : Expr.parse "gold > 2 and not sold" = .ok asked) :
    (rule asked).IsWritable where
  id := show "sell" ≠ "" by decide
  event := show "market" ≠ "" by decide
  condition := by
    refine .all fun c mem => ?_
    rcases mem with _ | ⟨_, _ | ⟨_, _ | ⟨_, mem⟩⟩⟩
    · exact .read h
    · exact .any nofun
    · exact .not (.compares True.intro)
    · cases mem
  modifications := by
    intro m mem
    rcases mem with _ | ⟨_, _ | ⟨_, mem⟩⟩
    · exact ⟨⟨"gold", rfl⟩, .inr ⟨.global, rfl⟩, ⟨show "gold" ≠ "" by decide, True.intro⟩⟩
    · exact ⟨⟨"stock", rfl⟩, .inl rfl, True.intro⟩
    · cases mem
  actions := List.forall_mem_singleton.mpr (by decide)
  outputs := List.forall_mem_singleton.mpr (by decide)
  consumption := ⟨true, rfl⟩
  priority := ⟨-3, rfl⟩
  enablement := ⟨true, rfl⟩

/-- The text of the expression is read, and the record of the rule gives it back. -/
theorem rule_restored :
    ∃ asked, Expr.parse "gold > 2 and not sold" = .ok asked ∧
      Rule.ofRecord (rule asked).toDocument = .ok (rule asked) := by
  have seen : (Expr.parse "gold > 2 and not sold").toOption.map (fun _ => ()) = some () := by
    decide +kernel
  obtain ⟨asked, read, -⟩ := exists_of_map_toOption seen
  exact ⟨asked, read, records_restore.2.2.2.2 (rule asked) (rule_writable read)⟩

end Errand

end Cascade
