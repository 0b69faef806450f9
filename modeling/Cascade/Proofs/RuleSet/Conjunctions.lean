-- SUMMARY: Combined conditions: the conditions that stand together for one, in a rule of a rule set or as nested lists, are checked as one conjunction from left to right.
import Cascade.Proofs.Condition.Formula
import Cascade.Proofs.Fact.Reading
import Cascade.Proofs.RuleSet.Building

/-! # Combined conditions

Where one condition belongs there may be several. A rule of a rule set has a condition
of the older form, which may be a list, and a list of expressions; where a condition is
asked for loosely, lists may be nested. Two readers put the parts together, and each of
them leaves out a group of one or none. However the parts are grouped, the condition is
checked as all of its parts are, from left to right, up to the first that fails or does
not hold. -/

namespace Cascade

open Document

/-! ## Conjunctions -/

namespace Condition

/-- What a condition says of a reading of the facts. -/
def verdict (c : Condition) (read : Reading) : Verdict := c.check read

/-- What conditions say together: that they hold if they all do, and else what the
    first one says that does not. -/
def together (cs : List Condition) (read : Reading) : Verdict :=
  Connective.and.gather (cs.map (check read))

/-- The second word only counts if the first one is that something holds. -/
def andThen (first second : Reading → Verdict) (read : Reading) : Verdict :=
  Connective.and.gather [first read, second read]

theorem together_single (c : Condition) : together [c] = c.verdict :=
  funext fun _ => Connective.gather_single ..

theorem together_append (cs ds : List Condition) :
    together (cs ++ ds) = andThen (together cs) (together ds) := by
  funext read
  rw [together, List.map_append, ← Connective.gather_append, andThen, Connective.gather,
    Connective.gather, Connective.gather_single]
  rfl

theorem together_cons (c : Condition) (cs : List Condition) :
    together (c :: cs) = andThen c.verdict (together cs) := by
  rw [← List.singleton_append, together_append, together_single]

/-- A conjunction says what its conditions say together, whether it is a group or not. -/
theorem verdict_conjunction (cs : List Condition) : (conjunction cs).verdict = together cs := by
  match cs with
  | [] => rfl
  | [c] => exact (together_single c).symm
  | _ :: _ :: _ => exact funext fun _ => checkAll_eq _

/-! ## Nested lists -/

namespace Loose

mutual
/-- What a loose form holds that is no list, from left to right. -/
def leaves : Loose → List Loose
  | list items => leavesAll items
  | leaf => [leaf]

def leavesAll : List Loose → List Loose
  | [] => []
  | item :: items => item.leaves ++ leavesAll items
end

theorem together_bind_cons {x : Except Fault Condition} {y : Except Fault (List Condition)} :
    together <$> (do return (← x) :: (← y))
      = andThen <$> (verdict <$> x) <*> (together <$> y) := by
  cases x with
  | error f => rfl
  | ok c =>
    cases y with
    | error f => rfl
    | ok cs => exact congrArg Except.ok (together_cons c cs)

theorem together_bind_append {x y : Except Fault (List Condition)} :
    together <$> (do return (← x) ++ (← y))
      = andThen <$> (together <$> x) <*> (together <$> y) := by
  cases x with
  | error f => rfl
  | ok cs =>
    cases y with
    | error f => rfl
    | ok ds => exact congrArg Except.ok (together_append cs ds)

theorem verdict_leaf (leaf : Loose) :
    verdict <$> leaf.condition = together <$> [leaf].mapM condition := by
  rw [List.mapM_cons, List.mapM_nil]
  cases leaf.condition with
  | error f => rfl
  | ok c => exact congrArg Except.ok (together_single c).symm

mutual
/-- A loose form says what its leaves say together, or fails as the first of them does
    that stands for no condition. -/
theorem verdict_leaves (l : Loose) :
    verdict <$> l.condition = together <$> l.leaves.mapM condition := by
  cases l with
  | list items =>
    rw [leaves, ← together_leaves items, condition, map_bind]
    simp only [map_pure, verdict_conjunction]
    rfl
  | _ => exact verdict_leaf _

theorem together_leaves (items : List Loose) :
    together <$> conditions items = together <$> (leavesAll items).mapM condition := by
  cases items with
  | nil => rfl
  | cons item items =>
    rw [conditions, together_bind_cons, verdict_leaves item, together_leaves items, leavesAll,
      List.mapM_append, together_bind_append]
end

end Loose

end Condition

/-! ## Lists in step -/

/-- Lists that correspond to a third one in between correspond. -/
theorem forall₂_comp {α β γ : Type} {R : α → β → Prop} {S : β → γ → Prop} {T : α → γ → Prop}
    {xs : List α} {ys : List β} {zs : List γ} (h : List.Forall₂ R xs ys)
    (h' : List.Forall₂ S ys zs) (both : ∀ a b c, R a b → S b c → T a c) :
    List.Forall₂ T xs zs := by
  induction h generalizing zs with
  | nil =>
    cases h'
    exact .nil
  | cons first _ ih =>
    cases h' with
    | cons first' rest' => exact .cons (both _ _ _ first first') (ih rest')

/-- A traversal that may find nothing gives what is found for each element, in order. -/
theorem forall₂_of_mapM_some {α β : Type} {g : α → Option β} {xs : List α} {ys : List β}
    (h : xs.mapM g = some ys) : List.Forall₂ (fun a b => g a = some b) xs ys := by
  induction xs generalizing ys with
  | nil =>
    cases h
    exact .nil
  | cons a xs ih =>
    rw [List.mapM_cons] at h
    obtain ⟨b, first, h⟩ := Option.bind_eq_some_iff.mp h
    obtain ⟨bs, rest, h⟩ := Option.bind_eq_some_iff.mp h
    cases h
    exact .cons first (ih rest)

/-- Numbering the elements of a list makes no difference to what corresponds to them. -/
theorem forall₂_zipIdx {α β : Type} {R : α → β → Prop} {xs : List α} {ys : List β} :
    List.Forall₂ (fun p b => R p.1 b) xs.zipIdx ys ↔ List.Forall₂ R xs ys := by
  rw [← List.forall₂_map_left_iff, List.zipIdx_map_fst]

/-! ## Checked forms -/

namespace RuleSet

namespace Checked

variable {α β : Type} {b : β}

theorem map_eq_some {f : α → β} {x : Checked α} :
    (f <$> x).value? = some b ↔ ∃ a, x.value? = some a ∧ f a = b :=
  Option.map_eq_some_iff

theorem seq_eq_some {f : Checked (α → β)} {x : Checked α} :
    (f <*> x).value? = some b ↔ ∃ g a, f.value? = some g ∧ x.value? = some a ∧ g a = b := by
  simp only [Seq.seq, applied, Option.bind_eq_some_iff, Option.map_eq_some_iff]
  grind

theorem of_flagging {x : Checked β} {places : List String}
    (h : (x.flagging places).value? = some b) : x.value? = some b := by
  unfold flagging at h
  split at h
  · exact h
  · cases h

theorem ofOption_value? (place : String) (x : Option α) : (ofOption place x).value? = x := by
  cases x <;> rfl

/-- The elements of a list are checked one by one, at places of their own. -/
theorem forall₂_of_all {check : α × Nat → Checked β} {xs : List α} {ys : List β}
    (h : (all (xs.zipIdx.map check)).value? = some ys) :
    List.Forall₂ (fun p b => (check p).value? = some b) xs.zipIdx ys :=
  List.forall₂_map_left_iff.mp (forall₂_of_mapM_some h)

end Checked

/-! ## The parts of a condition -/

/-- The documents of a field that is a list. -/
def listed (d : Document) (name : String) : List Document :=
  match d.get? name with
  | some (.list items) => items
  | _ => []

/-- The documents of a field that is a list, a single one or nothing. -/
def alternatives (d : Document) (name : String) : List Document :=
  match d.get? name with
  | none | some .null => []
  | some (.list items) => items
  | some part => [part]

/-- The parts of the condition of a rule: those of the older form, then the expressions. -/
def conditionParts (record : Document) : List Document :=
  alternatives record "condition" ++ listed record "conditions"

/-- A document stands for a condition. -/
def Stands (d : Document) (c : Condition) : Prop :=
  ∃ spec, ConditionSpec.ofDocument? d = some spec ∧ spec.build = .ok c

/-- A rule is checked by the parts of the condition that its record writes: every part
    stands for a condition, and the rule's condition says what they say together. -/
def ChecksParts (record : Document) (rule : Rule) : Prop :=
  ∃ parts, List.Forall₂ Stands (conditionParts record) parts ∧
    rule.condition.verdict = Condition.together parts

variable {record : List (String × Document)}

theorem forall₂_of_listField {α : Type} {place name : String} {read? : Document → Option α}
    {as : List α} (h : (listField place record name read?).value? = some as) :
    List.Forall₂ (fun d a => read? d = some a) (listed (.dict record) name) as := by
  unfold listField at h
  unfold listed get?
  dsimp only at h ⊢
  split at h
  case h_1 none =>
    cases h
    rw [none]
    exact .nil
  case h_2 items found =>
    rw [found, ← forall₂_zipIdx]
    simpa only [Checked.ofOption_value?] using Checked.forall₂_of_all h
  case h_3 => cases h

theorem ofDocuments?_eq (ds : List Document) :
    ConditionSpec.ofDocuments? ds = ds.mapM ConditionSpec.ofDocument? := by
  induction ds with
  | nil =>
    rw [ConditionSpec.ofDocuments?]
    rfl
  | cons d ds ih => rw [ConditionSpec.ofDocuments?, List.mapM_cons, ih]

theorem buildAll_eq (specs : List ConditionSpec) :
    ConditionSpec.buildAll specs = specs.mapM (·.build) := by
  induction specs with
  | nil => rfl
  | cons spec specs ih => rw [ConditionSpec.buildAll, List.mapM_cons, ih]

/-- A condition of the older form has the strict forms of its parts. -/
theorem forall₂_of_conditions? {specs : Option (List ConditionSpec)}
    (h : field record "condition" none conditions? = some specs) :
    List.Forall₂ (fun d spec => ConditionSpec.ofDocument? d = some spec)
      (alternatives (.dict record) "condition") (specs.getD []) := by
  unfold field at h
  unfold alternatives get?
  dsimp only
  cases found : field? record "condition" with
  | none =>
    rw [found] at h
    cases h
    exact .nil
  | some d =>
    rw [found] at h
    cases d with
    | null =>
      cases h
      exact .nil
    | list items =>
      obtain ⟨parts, inner, rfl⟩ := Option.map_eq_some_iff.mp h
      exact forall₂_of_mapM_some (ofDocuments?_eq items ▸ inner)
    | _ =>
      obtain ⟨part, inner, rfl⟩ := Option.map_eq_some_iff.mp h
      exact .cons inner .nil

/-- What the two fields of a checked rule with conditions were read from. -/
theorem of_ruleOf {place : String} {r : RuleSpec} (h : (ruleOf place record).value? = some r) :
    List.Forall₂ (fun d source => d.text? = some source) (listed (.dict record) "conditions")
        r.conditions ∧
      field record "condition" none conditions? = some r.condition := by
  replace h := Checked.of_flagging h
  -- from the last field on, up to the condition and the expressions before it
  iterate 6 obtain ⟨_, _, h, -, _⟩ := Checked.seq_eq_some.mp h
  obtain ⟨_, specs, h, older, _⟩ := Checked.seq_eq_some.mp h
  obtain ⟨_, sources, h, texts, _⟩ := Checked.seq_eq_some.mp h
  obtain ⟨_, _, h, -, _⟩ := Checked.seq_eq_some.mp h
  obtain ⟨_, -, _⟩ := Checked.map_eq_some.mp h
  subst_vars
  rw [simpleField, Checked.ofOption_value?] at older
  exact ⟨forall₂_of_listField texts, older⟩

/-- The condition of a rule is put together from those that its parts stand for. -/
theorem of_buildCondition {r : RuleSpec} {c : Condition} (h : r.buildCondition = .ok c)
    {older texts : List Document}
    (first : List.Forall₂ (fun d spec => ConditionSpec.ofDocument? d = some spec) older
      (r.condition.getD []))
    (rest : List.Forall₂ (fun d source => d.text? = some source) texts r.conditions) :
    ∃ parts, List.Forall₂ Stands (older ++ texts) parts ∧
      c.verdict = Condition.together parts := by
  unfold RuleSpec.buildCondition at h
  obtain ⟨sources, read, h⟩ := exists_of_bind_ok h
  have stand : List.Forall₂ Stands texts sources := by
    refine forall₂_comp rest (mapM_eq_ok.mp read) fun d source c text read => ?_
    rw [(text?_eq_some d source).mp text]
    exact ⟨.text source, by rw [ConditionSpec.ofDocument?], read⟩
  cases found : r.condition with
  | none =>
    rw [found] at h first
    cases h
    cases first
    exact ⟨sources, stand, Condition.verdict_conjunction _⟩
  | some specs =>
    rw [found] at h first
    obtain ⟨built, build, h⟩ := exists_of_bind_ok h
    cases h
    rw [buildAll_eq] at build
    have stand' : List.Forall₂ Stands older built :=
      forall₂_comp first (mapM_eq_ok.mp build) fun d spec c form built => ⟨spec, form, built⟩
    refine ⟨built ++ sources, List.rel_append stand' stand, ?_⟩
    rw [Condition.verdict_conjunction, Condition.together_cons, Condition.verdict_conjunction,
      Condition.together_append]

/-! ## Rules that are loaded -/

/-- The checked rules of a rule set are built one by one. -/
theorem forall₂_of_build {spec : Spec} {rs : RuleSet} (h : spec.build = .ok rs) :
    List.Forall₂ (fun r rule => r.buildCondition = .ok rule.condition) spec.rules rs.rules := by
  rw [← forall₂_zipIdx]
  refine (Spec.build_eq_ok.mp h).2.imp fun _ _ built => ?_
  obtain ⟨condition, _, asked, -, rfl, -⟩ := build_eq_ok.mp built
  exact asked

/-- The rules of a list are checked one by one, each at a place of its own. -/
theorem forall₂_of_rulesOf {items : List Document} {rules : List RuleSpec}
    (h : (rulesOf (.list items)).value? = some rules) :
    List.Forall₂ (fun item r => ∃ place record, item = .dict record ∧
      (ruleOf place record).value? = some r) items rules := by
  rw [← forall₂_zipIdx]
  refine (Checked.forall₂_of_all h).imp fun p r checked => ?_
  dsimp only at checked
  split at checked
  case h_1 record written => exact ⟨_, record, written, checked⟩
  case h_2 => cases checked

/-- So are the rules of a document. -/
theorem forall₂_of_ofDocument {d : Document} {spec : Spec} (h : Spec.ofDocument d = .ok spec) :
    List.Forall₂ (fun item r => ∃ place record, item = .dict record ∧
      (ruleOf place record).value? = some r) (listed d "rules") spec.rules := by
  unfold Spec.ofDocument at h
  split at h
  case h_2 => cases h
  case h_1 fields =>
    dsimp only at h
    split at h
    case h_2 => cases h
    case h_1 checked =>
      cases h
      obtain ⟨_, rules, h, found, _⟩ := Checked.seq_eq_some.mp (Checked.of_flagging checked)
      obtain ⟨_, -, _⟩ := Checked.map_eq_some.mp h
      subst_vars
      unfold listed get?
      dsimp only
      cases written : field? fields "rules" with
      | none =>
        rw [written] at found
        cases found
        exact .nil
      | some d =>
        rw [written] at found
        cases d with
        | list items => exact forall₂_of_rulesOf found
        | _ => cases found

/-- The rules of a document that is loaded are checked by the parts of their conditions,
    and a loose form by its leaves: one after the other, whatever groups they stand in. -/
theorem conditions_combine :
    (∀ d rs, ofDocument d = .ok rs → List.Forall₂ ChecksParts (listed d "rules") rs.rules) ∧
      ∀ l : Condition.Loose, Condition.verdict <$> l.condition
        = Condition.together <$> l.leaves.mapM (·.condition) := by
  refine ⟨fun d rs loaded => ?_, Condition.Loose.verdict_leaves⟩
  obtain ⟨spec, form, build⟩ := exists_of_bind_ok loaded
  refine forall₂_comp (forall₂_of_ofDocument form) (forall₂_of_build build) ?_
  rintro _ r rule ⟨place, record, rfl, checked⟩ built
  obtain ⟨texts, older⟩ := of_ruleOf checked
  exact of_buildCondition built (forall₂_of_conditions? older) texts

namespace Lighthouse

/-- The lamp is lit at dusk, if it is not yet and there is enough oil. -/
def lamp : List (String × Document) :=
  [ ("event", .str "dusk"),
    ("condition", .list [.str "not lit", .dict [("kind", .str "exists"), ("key", .str "oil")]]),
    ("conditions", .list [.str "oil > 2"]) ]

/-- The horn is blown in any fog. -/
def horn : List (String × Document) := [("trigger", .str "fog"), ("condition", .null)]

def duties : Document := .dict [("rules", .list [.dict lamp, .dict horn])]

def lampSpec : RuleSpec :=
  ⟨none, "dusk", ["oil > 2"], some [.text "not lit", .present "oil"], [], [], [], false, 0, true⟩

def hornSpec : RuleSpec := ⟨none, "fog", [], none, [], [], [], false, 0, true⟩

theorem duties_combine : ∃ rs, ofDocument duties = .ok rs ∧
    List.Forall₂ ChecksParts [.dict lamp, .dict horn] rs.rules ∧
    conditionParts (.dict lamp)
      = [.str "not lit", .dict [("kind", .str "exists"), ("key", .str "oil")], .str "oil > 2"] ∧
    conditionParts (.dict horn) = [] := by
  have older : field lamp "condition" none conditions?
      = some (some [.text "not lit", .present "oil"]) := by
    simp [field, lamp, conditions?, ConditionSpec.ofDocuments?, ConditionSpec.ofDocument?, field?,
      text?, ConditionSpec.keyed?, hasOnly, textField?]
  have first (place : String) : (ruleOf place lamp).value? = some lampSpec := by
    unfold ruleOf simpleField
    rw [older]
    rfl
  have rules : (rulesOf (.list [.dict lamp, .dict horn])).value? = some [lampSpec, hornSpec] := by
    simp only [rulesOf, Checked.all, List.zipIdx_cons, List.zipIdx_nil, List.map_cons,
      List.map_nil, List.mapM_cons, first]
    rfl
  have form : Spec.ofDocument duties = .ok ⟨[], [lampSpec, hornSpec]⟩ := by
    have fits : (specOf [("rules", .list [.dict lamp, .dict horn])]).value?
        = some ⟨[], [lampSpec, hornSpec]⟩ := congrArg (Option.map (Spec.mk [])) rules
    rw [duties, Spec.ofDocument, fits]
  obtain ⟨rs, loaded, -⟩ : ∃ rs, ofDocument duties = .ok rs ∧ rs.rules.length = 2 := by
    rw [ofDocument, form]
    refine exists_of_map_toOption ?_
    decide +kernel
  exact ⟨rs, loaded, conditions_combine.1 duties rs loaded, rfl, rfl⟩

end Lighthouse

end RuleSet

end Cascade
