-- SUMMARY: Rule sets written as documents and read again: what comes back, and at which places the document of a rule set is refused.
import Cascade.Proofs.RuleSet.Written

/-! # Rule sets that are read again

A rule set writes itself as a document. Of a rule set that was loaded only modifications
can be written in a form that documents do not have, so it comes back unchanged if all of
them are plain, and otherwise its document is refused, at the place of every modification
that is not. -/

namespace Cascade

open Document

namespace RuleSet

/-! ## Checks of what was written -/

namespace Checked

variable {α β γ : Type}

/-! Of checks that are put together, one that fits is as good as its value. -/

theorem map_fits (f : α → β) (a : α) : f <$> fits a = fits (f a) := rfl

theorem fits_seq (f : α → β) (x : Checked α) : fits f <*> x = f <$> x := rfl

theorem seq_fits (x : Checked (α → β)) (a : α) : x <*> fits a = (· a) <$> x := by
  obtain ⟨value, places⟩ := x
  refine congr (congrArg Checked.mk ?_) (List.append_nil places)
  cases value <;> rfl

theorem map_map (f : β → γ) (g : α → β) (x : Checked α) : f <$> g <$> x = (f ∘ g) <$> x := by
  obtain ⟨value, places⟩ := x
  cases value <;> rfl

/-- Checks whose values are all there have their values together. -/
theorem exists_of_all {check : α → Checked β} {good : α → β → Prop} {xs : List α}
    (h : ∀ x ∈ xs, ∃ b, (check x).value? = some b ∧ good x b) :
    ∃ bs, (all (xs.map check)).value? = some bs ∧ List.Forall₂ good xs bs := by
  induction xs with
  | nil => exact ⟨[], rfl, .nil⟩
  | cons x xs ih =>
    obtain ⟨⟨b, first, fits⟩, rest⟩ := List.forall_mem_cons.mp h
    obtain ⟨bs, others, fit⟩ := ih rest
    have others : (xs.map check).mapM (·.value?) = some bs := others
    exact ⟨b :: bs, by simp [all, List.mapM_cons, first, others], .cons fits fit⟩

/-- One value that is not there is enough for there to be none. -/
theorem none_of_all {xs : List (Checked α)} {x : Checked α} (mem : x ∈ xs)
    (h : x.value? = none) : (all xs).value? = none := by
  by_contra there
  obtain ⟨as, there⟩ := Option.ne_none_iff_exists'.mp there
  obtain ⟨length, found⟩ := List.forall₂_iff_get.mp (forall₂_of_mapM_some there)
  obtain ⟨i, rfl⟩ := List.mem_iff_get.mp mem
  rw [found i i.isLt (length ▸ i.isLt)] at h
  cases h

/-- What fits everywhere fits. -/
theorem all_fits (as : List α) : all (as.map fits) = fits as := by
  have values : (as.map fits).mapM (·.value?) = some as := by
    induction as with
    | nil => rfl
    | cons a as ih => simp [List.mapM_cons, fits, ih]
  have places : (as.map fits).flatMap (·.places) = ([] : List String) := by simp [fits]
  rw [all, values, places, fits]

end Checked

/-! ## Records of rules -/

def recordOf (rule : Rule) : List (String × Document) :=
  [ ("id", .str rule.id),
    ("event", .str rule.event),
    ("condition", rule.condition.toDocument),
    ("modifications", .list (rule.modifications.map (·.toDocument))),
    ("actions", .texts rule.actions),
    ("outputs", .texts rule.outputs),
    ("consume_event", rule.consumption),
    ("priority", rule.priority),
    ("enabled", rule.enablement) ]

/-- What is known of a rule that was read from a document. -/
structure IsLoaded (rule : Rule) : Prop where
  names : rule.HasNames
  condition : Stands rule.condition.toDocument rule.condition
  modifications : ∀ m ∈ rule.modifications, plain m.effect → Changes m.toDocument m
  consumption : ∃ b, rule.consumption = .bool b
  priority : ∃ n, rule.priority = .int n
  enablement : ∃ b, rule.enablement = .bool b

theorem loaded_of_build {r : RuleSpec} {index : Nat} {rule : Rule}
    (h : r.build index = .ok rule) : IsLoaded rule := by
  obtain ⟨condition, modifications, asked, read, rfl, names⟩ := build_eq_ok.mp h
  refine ⟨names, stands_buildCondition r condition asked, ?_, ⟨_, rfl⟩, ⟨_, rfl⟩, ⟨_, rfl⟩⟩
  exact Yields.mapM (fun _ _ _ built => changes_build built) modifications read

theorem simpleField_fits {α : Type} {record : List (String × Document)} {name : String}
    {default a : α} {read? : Document → Option α} {d : Document} (place : String)
    (found : field? record name = some d) (read : read? d = some a) :
    simpleField place record name default read? = .fits a := by
  rw [simpleField, field, found]
  exact congrArg (Checked.ofOption _) read

theorem listField_texts (place name : String) {record : List (String × Document)}
    {texts : List String} (h : field? record name = some (.texts texts)) :
    listField place record name text? = .fits texts := by
  have each : (texts.map Document.str).zipIdx.map (fun p =>
      Checked.ofOption (place ++ "." ++ name ++ "." ++ toString p.2) p.1.text?)
        = texts.map .fits := by
    conv_rhs => rw [← List.zipIdx_map_fst 0 texts, List.map_map]
    rw [List.zipIdx_map, List.map_map]
    rfl
  rw [listField, h]
  exact (congrArg Checked.all each).trans (Checked.all_fits texts)

/-- The checks of the modifications of a rule, each at its place. -/
def checkedChanges (place : String) (ms : List Modification) : Checked (List ModificationSpec) :=
  .all (ms.zipIdx.map fun p =>
    .ofOption (place ++ "." ++ "modifications" ++ "." ++ toString p.2)
      (ModificationSpec.ofDocument? p.1.toDocument))

/-- Only the modifications of the record of a rule can be misfits. -/
theorem ruleOf_record {rule : Rule} {spec : ConditionSpec} {consumes enabled : Bool}
    {priority : Int} (place : String)
    (form : ConditionSpec.ofDocument? rule.condition.toDocument = some spec)
    (consumption : rule.consumption = .bool consumes) (urgency : rule.priority = .int priority)
    (enablement : rule.enablement = .bool enabled) :
    ruleOf place (recordOf rule)
      = (RuleSpec.mk (some rule.id) rule.event [] (some [spec]) · rule.actions rule.outputs consumes
          priority enabled) <$> checkedChanges place rule.modifications := by
  have id : simpleField place (recordOf rule) "id" none optionalText? = .fits (some rule.id) :=
    simpleField_fits place rfl rfl
  have event : eventField place (recordOf rule) = .fits rule.event := rfl
  have conditions : listField place (recordOf rule) "conditions" text? = .fits [] := rfl
  have condition : simpleField place (recordOf rule) "condition" none conditions?
      = .fits (some [spec]) := by
    refine simpleField_fits place rfl ?_
    obtain ⟨fields, written⟩ : ∃ fields, rule.condition.toDocument = .dict fields :=
      ⟨_, by unfold Condition.toDocument; rfl⟩
    rw [written] at form ⊢
    exact congrArg (Option.map fun c => some [c]) form
  have modifications : listField place (recordOf rule) "modifications" ModificationSpec.ofDocument?
      = checkedChanges place rule.modifications := by
    have each : (rule.modifications.map (·.toDocument)).zipIdx.map (fun p =>
        Checked.ofOption (place ++ "." ++ "modifications" ++ "." ++ toString p.2)
          (ModificationSpec.ofDocument? p.1))
          = rule.modifications.zipIdx.map fun p =>
            .ofOption (place ++ "." ++ "modifications" ++ "." ++ toString p.2)
              (ModificationSpec.ofDocument? p.1.toDocument) := by
      rw [List.zipIdx_map, List.map_map]
      rfl
    exact congrArg Checked.all each
  have actions : listField place (recordOf rule) "actions" text? = .fits rule.actions :=
    listField_texts place "actions" rfl
  have outputs : listField place (recordOf rule) "outputs" text? = .fits rule.outputs :=
    listField_texts place "outputs" rfl
  have consuming : simpleField place (recordOf rule) "consume_event" false truth?
      = .fits consumes := simpleField_fits place rfl (congrArg truth? consumption)
  have ranked : simpleField place (recordOf rule) "priority" 0 integer? = .fits priority :=
    simpleField_fits place rfl (congrArg integer? urgency)
  have enabling : simpleField place (recordOf rule) "enabled" true truth? = .fits enabled :=
    simpleField_fits place rfl (congrArg truth? enablement)
  unfold ruleOf
  rw [id, event, conditions, condition, modifications, actions, outputs, consuming, ranked,
    enabling]
  have known : ((recordOf rule).map (·.1)).filter (fun name =>
      name ∉ ruleFields && name ≠ "event" && name ≠ "trigger") = [] := rfl
  dsimp only
  rw [known, List.map_nil, Checked.flagging, if_pos rfl]
  simp only [Checked.map_fits, Checked.fits_seq, Checked.seq_fits, Checked.map_map]
  rfl

/-! ## Places -/

/-- The places of the modifications that a rule cannot have in a document. -/
def misplacedIn (place : String) (ms : List Modification) : List String :=
  ms.zipIdx.flatMap fun p =>
    if plain p.1.effect then [] else [place ++ ".modifications." ++ toString p.2]

/-- The places in the document of a rule set at which it cannot be read. -/
def misplaced (rs : RuleSet) : List String :=
  rs.rules.zipIdx.flatMap fun p => misplacedIn ("rules." ++ toString p.2) p.1.modifications

variable {ms : List Modification}

/-- Of numbered elements holds what holds of the elements. -/
theorem forall_mem_zipIdx {α : Type} {P : α → Prop} {xs : List α} :
    (∀ p ∈ xs.zipIdx, P p.1) ↔ ∀ x ∈ xs, P x := by
  conv_rhs => rw [← List.zipIdx_map_fst 0 xs]
  exact List.forall_mem_map.symm

/-- Every element has a number. -/
theorem exists_mem_zipIdx {α : Type} {xs : List α} {x : α} (mem : x ∈ xs) :
    ∃ i, (x, i) ∈ xs.zipIdx := by
  obtain ⟨i, hi, rfl⟩ := List.getElem_of_mem mem
  exact ⟨i, by simp [List.mk_mem_zipIdx_iff_getElem?]⟩

theorem misplacedIn_eq_nil_iff (place : String) :
    misplacedIn place ms = [] ↔ ∀ m ∈ ms, plain m.effect := by
  rw [← forall_mem_zipIdx, misplacedIn, List.flatMap_eq_nil_iff]
  refine forall₂_congr fun p _ => ?_
  cases plain p.1.effect <;> simp

/-- A rule set has no such places if all its modifications are plain. -/
theorem misplaced_eq_nil_iff (rs : RuleSet) :
    rs.misplaced = [] ↔ ∀ rule ∈ rs.rules, ∀ m ∈ rule.modifications, plain m.effect := by
  rw [← forall_mem_zipIdx, misplaced, List.flatMap_eq_nil_iff]
  exact forall₂_congr fun p _ => misplacedIn_eq_nil_iff _

/-! ## Rules that are read -/

variable {rule : Rule}

/-- The checks of modifications complain at the places of those that are not plain. -/
theorem places_checkedChanges (place : String)
    (h : ∀ m ∈ ms, plain m.effect → Changes m.toDocument m) :
    (checkedChanges place ms).places = misplacedIn place ms := by
  have modifications (j : String) :
      place ++ "." ++ "modifications" ++ "." ++ j = place ++ ".modifications." ++ j := by
    have words : "." ++ "modifications" ++ "." = ".modifications." := rfl
    rw [← words]
    simp only [String.append_assoc]
  rw [checkedChanges, Checked.all, List.flatMap_map, misplacedIn]
  refine List.flatMap_congr fun p mem => ?_
  cases simple : plain p.1.effect with
  | true =>
    obtain ⟨spec, form, -⟩ := h p.1 (List.fst_mem_of_mem_zipIdx mem) simple
    rw [form]
    rfl
  | false =>
    rw [ofDocument?_other simple, modifications]
    rfl

/-- Plain modifications are all read, as what they are. -/
theorem checkedChanges_of_plain (place : String) (h : ∀ m ∈ ms, Changes m.toDocument m) :
    ∃ specs, (checkedChanges place ms).value? = some specs ∧ specs.mapM (·.build) = .ok ms := by
  obtain ⟨specs, found, built⟩ : ∃ specs, (checkedChanges place ms).value? = some specs ∧
      List.Forall₂ (fun p spec => spec.build = .ok p.1) ms.zipIdx specs := by
    refine Checked.exists_of_all ?_
    simp only [Checked.ofOption_value?]
    exact forall_mem_zipIdx.mpr h
  exact ⟨specs, found, mapM_eq_ok.mpr (forall₂_zipIdx.mp built).flip⟩

/-- The record of a rule is checked like its modifications, and if they are read as what
    they are, so is the rule. -/
theorem exists_ruleOf (loaded : IsLoaded rule) : ∃ form : List ModificationSpec → RuleSpec,
    (∀ place, ruleOf place (recordOf rule) = form <$> checkedChanges place rule.modifications) ∧
      ∀ specs index, specs.mapM (·.build) = .ok rule.modifications →
        (form specs).build index = .ok rule := by
  obtain ⟨names, ⟨spec, form, built⟩, -, ⟨consumes, consumption⟩, ⟨priority, urgency⟩,
    ⟨enabled, enablement⟩⟩ := loaded
  refine ⟨_, fun place => ruleOf_record place form consumption urgency enablement,
    fun specs index read => ?_⟩
  refine build_eq_ok.mpr ⟨rule.condition, rule.modifications, ?_, read, ?_, names⟩
  · have alone : ConditionSpec.buildAll [spec] = .ok [rule.condition] := by
      rw [ConditionSpec.buildAll, built]
      rfl
    change (ConditionSpec.buildAll [spec] >>= _) = _
    rw [alone]
    rfl
  · obtain ⟨id, event, condition, modifications, actions, outputs, _, _, _⟩ := rule
    have given : RuleSpec.name ⟨some id, event, [], some [spec], specs, actions, outputs, consumes,
        priority, enabled⟩ index = id := by
      simp [RuleSpec.name, Option.filter, names.id]
    cases consumption
    cases urgency
    cases enablement
    rw [RuleSpec.ready, given]

/-- The record of a rule is read as that rule if its modifications are plain. -/
theorem ruleOf_of_plain (loaded : IsLoaded rule) (place : String)
    (h : ∀ m ∈ rule.modifications, plain m.effect) :
    ∃ r, (ruleOf place (recordOf rule)).value? = some r ∧ ∀ index, r.build index = .ok rule := by
  obtain ⟨form, checked, built⟩ := exists_ruleOf loaded
  obtain ⟨specs, found, read⟩ := checkedChanges_of_plain place
    fun m mem => loaded.modifications m mem (h m mem)
  rw [checked]
  exact ⟨form specs, Checked.map_eq_some.mpr ⟨specs, found, rfl⟩,
    fun index => built specs index read⟩

/-- Where the record of a rule does not fit, it is for modifications that are not plain. -/
theorem places_ruleOf (loaded : IsLoaded rule) (place : String) :
    (ruleOf place (recordOf rule)).places = misplacedIn place rule.modifications := by
  obtain ⟨form, checked, -⟩ := exists_ruleOf loaded
  rw [checked]
  exact places_checkedChanges place loaded.modifications

/-- A modification that is not plain is enough for it not to be read. -/
theorem ruleOf_of_not_plain (loaded : IsLoaded rule) (place : String) {m : Modification}
    (mem : m ∈ rule.modifications) (h : plain m.effect = false) :
    (ruleOf place (recordOf rule)).value? = none := by
  obtain ⟨form, checked, -⟩ := exists_ruleOf loaded
  obtain ⟨j, numbered⟩ := exists_mem_zipIdx mem
  have nothing : (checkedChanges place rule.modifications).value? = none := by
    refine Checked.none_of_all (List.mem_map_of_mem numbered) ?_
    rw [ofDocument?_other h]
    rfl
  rw [checked]
  exact congrArg (Option.map form) nothing

/-! ## Rule sets that are read -/

/-- What is known of a rule set that was read from a document. -/
structure WasRead (rs : RuleSet) : Prop where
  facts : ∀ fact ∈ rs.facts, fact.2.IsWritable
  rules : ∀ rule ∈ rs.rules, IsLoaded rule

/-- What corresponds to the elements of a list corresponds to one of them. -/
theorem exists_of_forall₂ {α β : Type} {R : α → β → Prop} {xs : List α} {ys : List β}
    (h : List.Forall₂ R xs ys) : ∀ b ∈ ys, ∃ a ∈ xs, R a b := by
  induction h with
  | nil => exact nofun
  | cons first _ ih =>
    refine List.forall_mem_cons.mpr ⟨⟨_, List.mem_cons_self, first⟩, fun b mem => ?_⟩
    exact (ih b mem).imp fun a found => ⟨List.mem_cons_of_mem _ found.1, found.2⟩

theorem wasRead_of_loaded {d : Document} {rs : RuleSet} (loaded : ofDocument d = .ok rs) :
    WasRead rs := by
  obtain ⟨spec, -, build⟩ := exists_of_bind_ok loaded
  obtain ⟨facts, rules⟩ := Spec.build_eq_ok.mp build
  refine ⟨fun fact mem => ?_, fun rule mem => ?_⟩
  · obtain ⟨written, -, -, read⟩ := exists_of_forall₂ facts _ mem
    exact Fact.writable_ofDocument _ _ read
  · obtain ⟨numbered, -, built⟩ := exists_of_forall₂ rules _ mem
    exact loaded_of_build built

def documentOf (rs : RuleSet) : List (String × Document) :=
  [ ("facts", .dict (rs.facts.map fun (name, f) => (name, f.toDocument))),
    ("rules", .list (rs.rules.map (·.toDocument))) ]

/-- The checks of the rules of a rule set, each at its place. -/
def checkedRules (rs : RuleSet) : Checked (List RuleSpec) :=
  .all (rs.rules.zipIdx.map fun p => ruleOf ("rules." ++ toString p.2) (recordOf p.1))

theorem specOf_documentOf (rs : RuleSet) :
    specOf (documentOf rs)
      = Spec.mk (rs.facts.map fun (name, f) => (name, f.toDocument)) <$> checkedRules rs := by
  have rules : rulesOf (.list (rs.rules.map (·.toDocument))) = checkedRules rs := by
    rw [rulesOf, List.zipIdx_map, List.map_map]
    rfl
  exact congrArg (Spec.mk (rs.facts.map fun (name, f) => (name, f.toDocument)) <$> ·) rules

variable {rs : RuleSet}

/-- The checks of rules complain at the places of the modifications that are not plain. -/
theorem places_checkedRules (read : WasRead rs) : (checkedRules rs).places = rs.misplaced := by
  rw [checkedRules, Checked.all, List.flatMap_map, misplaced]
  exact List.flatMap_congr fun p mem => places_ruleOf (read.rules _ (List.fst_mem_of_mem_zipIdx mem)) _

/-- Rules with plain modifications are all read, as what they are. -/
theorem checkedRules_of_plain (read : WasRead rs)
    (h : ∀ rule ∈ rs.rules, ∀ m ∈ rule.modifications, plain m.effect) :
    ∃ specs, (checkedRules rs).value? = some specs ∧
      List.Forall₂ (fun numbered rule => numbered.1.build numbered.2 = .ok rule)
        specs.zipIdx rs.rules := by
  obtain ⟨specs, found, built⟩ : ∃ specs, (checkedRules rs).value? = some specs ∧
      List.Forall₂ (fun p r => ∀ index, RuleSpec.build r index = .ok p.1) rs.rules.zipIdx specs := by
    refine Checked.exists_of_all fun p mem => ?_
    have within := List.fst_mem_of_mem_zipIdx mem
    exact ruleOf_of_plain (read.rules _ within) _ (h _ within)
  -- a rule with an id does not depend on its number
  have matched : List.Forall₂ (fun rule (r : RuleSpec) => ∀ index, r.build index = .ok rule)
      rs.rules specs := forall₂_zipIdx.mp built
  exact ⟨specs, found, (forall₂_zipIdx.mpr matched.flip).imp fun numbered _ built =>
    built numbered.2⟩

/-- A rule with another modification is enough for them not to be read. -/
theorem checkedRules_of_not_plain (read : WasRead rs)
    (h : ¬ ∀ rule ∈ rs.rules, ∀ m ∈ rule.modifications, plain m.effect) :
    (checkedRules rs).value? = none := by
  push Not at h
  obtain ⟨rule, within, m, mem, other⟩ := h
  obtain ⟨i, numbered⟩ := exists_mem_zipIdx within
  refine Checked.none_of_all (List.mem_map_of_mem numbered) ?_
  exact ruleOf_of_not_plain (read.rules _ within) _ mem (Bool.eq_false_iff.mpr other)

/-- The document of a rule set is read as that rule set, or refused at the places of the
    modifications that are not plain. -/
theorem ofDocument_toDocument (read : WasRead rs) :
    ofDocument rs.toDocument
      = if rs.misplaced = [] then .ok rs
        else .error (.refused (.badPlaces (sorted rs.misplaced))) := by
  have form : rs.toDocument = .dict (documentOf rs) := rfl
  rw [ofDocument, form, Spec.ofDocument, specOf_documentOf]
  by_cases none : rs.misplaced = []
  · obtain ⟨specs, found, built⟩ :=
      checkedRules_of_plain read ((misplaced_eq_nil_iff rs).mp none)
    rw [if_pos none]
    simp only [Checked.map_eq_some.mpr ⟨specs, found, rfl⟩]
    refine Spec.build_eq_ok.mpr ⟨?_, built⟩
    refine List.forall₂_map_left_iff.mpr (List.forall₂_same.mpr fun fact mem => ?_)
    exact ⟨rfl, Fact.ofDocument_toDocument (read.facts fact mem)⟩
  · have nothing := checkedRules_of_not_plain read fun h => none ((misplaced_eq_nil_iff rs).mpr h)
    have places : (Spec.mk (rs.facts.map fun (name, f) => (name, f.toDocument))
        <$> checkedRules rs).places = rs.misplaced := places_checkedRules read
    have value : (Spec.mk (rs.facts.map fun (name, f) => (name, f.toDocument))
        <$> checkedRules rs).value? = .none := congrArg (Option.map _) nothing
    simp only [if_neg none, value, places]
    rfl

/-- A rule set that was loaded is read again from the document that it writes, unless a
    modification of it has a computed value, an amount or an operand: its document is
    refused at the places of these. -/
theorem rewritten_loads {d : Document} (loaded : ofDocument d = .ok rs) :
    (ofDocument rs.toDocument
        = if rs.misplaced = [] then .ok rs
          else .error (.refused (.badPlaces (sorted rs.misplaced)))) ∧
      (rs.misplaced = [] ↔ ∀ rule ∈ rs.rules, ∀ m ∈ rule.modifications, plain m.effect) :=
  ⟨ofDocument_toDocument (wasRead_of_loaded loaded), misplaced_eq_nil_iff rs⟩

namespace Bakery

/-- The oven is lit in the morning, and loaves are baked on order. -/
def night : Document :=
  .dict
    [ ("facts", .dict [("loaves", .int 2), ("oven", .str "cold")]),
      ("rules", .list
        [ .dict
            [ ("event", .str "morning"), ("conditions", .list [.str "loaves < 3"]),
              ("modifications", .list
                [.dict [("op", .str "set"), ("key", .str "oven"), ("value", .str "hot")]]) ] ]) ]

theorem night_reloads : ∃ rs, ofDocument night = .ok rs ∧ rs.rules.length = 1 ∧
    ofDocument rs.toDocument = .ok rs := by
  have seen : (ofDocument night).toOption.map
      (fun rs => decide (rs.rules.length = 1 ∧ rs.misplaced = [])) = some true := by
    decide +kernel
  obtain ⟨rs, loaded, holds⟩ := exists_of_map_toOption seen
  obtain ⟨one, none⟩ := of_decide_eq_true holds
  have back := (rewritten_loads loaded).1
  rw [if_pos none] at back
  exact ⟨rs, loaded, one, back⟩

/-- Every order is counted. -/
def tally : Document :=
  .dict
    [ ("rules", .list
        [ .dict
            [ ("id", .str "count"), ("event", .str "order"),
              ("modifications", .list
                [.dict [("op", .str "increment"), ("key", .str "loaves")]]) ] ]) ]

theorem tally_refused : ∃ rs, ofDocument tally = .ok rs ∧
    ofDocument rs.toDocument = .error (.refused (.badPlaces ["rules.0.modifications.0"])) := by
  have seen : (ofDocument tally).toOption.map
      (fun rs => decide (rs.misplaced = ["rules.0.modifications.0"])) = some true := by
    decide +kernel
  obtain ⟨rs, loaded, holds⟩ := exists_of_map_toOption seen
  have places := of_decide_eq_true holds
  have back := ofDocument_toDocument (wasRead_of_loaded loaded)
  rw [places, if_neg (List.cons_ne_nil _ _), sorted, List.mergeSort_singleton] at back
  exact ⟨rs, loaded, back⟩

end Bakery

end RuleSet

end Cascade
