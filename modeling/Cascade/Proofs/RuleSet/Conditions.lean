-- SUMMARY: Conditions read twice: a condition that has the strict form of a rule set is the same condition when it is read as a record.
import Cascade.Proofs.Rule.Record
import Cascade.RuleSet.Condition

/-! # Conditions read twice

The conditions of a rule set are checked for a strict form first and then built; the
record of a condition is read at once, with fewer checks. Where the strict form is
kept, and no part of the condition is a bare text, which a record cannot be, both
come to the same condition or fail alike. Only a record without a kind, where a
constant belongs, is complained of in two ways. -/

namespace Cascade

open Document

/-! ## Outcomes of readers -/

/-- The same fault; or, where a record without a kind stands for a constant, the two
    mismatches that it may be. -/
inductive Fault.Cognate : Fault → Fault → Prop
  | same (f : Fault) : Cognate f f
  | unlabelled (d : Document) : Cognate (.mismatch .noKind) (.mismatch (.unsupported d))

/-- Two readers come to the same: to one result, or to cognate faults. -/
inductive Concur {α : Type} : Except Fault α → Except Fault α → Prop
  | result (a : α) : Concur (.ok a) (.ok a)
  | fault {f g : Fault} (cognate : f.Cognate g) : Concur (.error f) (.error g)

namespace Concur

variable {α β : Type} {x y : Except Fault α}

theorem refl (x : Except Fault α) : Concur x x := by
  cases x with
  | ok a => exact .result a
  | error f => exact .fault (.same f)

theorem bind {g h : α → Except Fault β} (first : Concur x y) (rest : ∀ a, Concur (g a) (h a)) :
    Concur (x >>= g) (y >>= h) := by
  cases first with
  | result a => exact rest a
  | fault cognate => exact .fault cognate

end Concur

/-! ## The strict form -/

namespace ConditionSpec

/-- The parts of a group: a list of conditions, or nothing for none. -/
inductive Grouped (fields : List (String × Document)) : List ConditionSpec → Prop
  | absent (none : field? fields "conditions" = none) : Grouped fields []
  | listed {items : List Document} {parts : List ConditionSpec}
      (found : field? fields "conditions" = some (.list items))
      (inner : ofDocuments? items = some parts) : Grouped fields parts

/-- What the fields of a record are whose strict form is a condition. -/
inductive OfFields (fields : List (String × Document)) : ConditionSpec → Prop
  | always (kind : field? fields "kind" = some (.str "always")) : OfFields fields .always
  | expr {source : String} (kind : field? fields "kind" = some (.str "expr"))
      (found : field? fields "source" = some (.str source)) : OfFields fields (.expr source)
  | compares {op : Comparison} {key : String} {value : Document}
      (kind : field? fields "kind" = some (.str (Condition.comparisonName op)))
      (name : field? fields "key" = some (.str key))
      (constant : field? fields "value" = some value) : OfFields fields (.compares op key value)
  | present {key : String} (kind : field? fields "kind" = some (.str "exists"))
      (name : field? fields "key" = some (.str key)) : OfFields fields (.present key)
  | absent {key : String} (kind : field? fields "kind" = some (.str "not_exists"))
      (name : field? fields "key" = some (.str key)) : OfFields fields (.absent key)
  | flag {expected : Bool} {key : String}
      (kind : field? fields "kind" = some (.str (if expected then "is_true" else "is_false")))
      (name : field? fields "key" = some (.str key)) : OfFields fields (.flag expected key)
  | all {parts : List ConditionSpec} (kind : field? fields "kind" = some (.str "all"))
      (group : Grouped fields parts) : OfFields fields (.all parts)
  | any {parts : List ConditionSpec} (kind : field? fields "kind" = some (.str "any"))
      (group : Grouped fields parts) : OfFields fields (.any parts)
  | not {d : Document} {part : ConditionSpec} (kind : field? fields "kind" = some (.str "not"))
      (found : field? fields "condition" = some d) (inner : ofDocument? d = some part) :
      OfFields fields (.not part)

variable {fields : List (String × Document)} {spec : ConditionSpec}

theorem of_textField? {name s : String} (h : textField? fields name = some s) :
    field? fields name = some (.str s) := by
  obtain ⟨d, found, text⟩ := Option.bind_eq_some_iff.mp h
  rwa [(text?_eq_some d s).mp text] at found

theorem of_keyed? {f : String → ConditionSpec} (h : keyed? fields f = some spec) :
    ∃ key, field? fields "key" = some (.str key) ∧ spec = f key := by
  unfold keyed? at h
  split at h
  · obtain ⟨key, found, rfl⟩ := Option.map_eq_some_iff.mp h
    exact ⟨key, of_textField? found, rfl⟩
  · cases h

theorem of_comparison? {op : Comparison} (h : comparison? op fields = some spec) :
    ∃ key value, field? fields "key" = some (.str key) ∧ field? fields "value" = some value ∧
      spec = .compares op key value := by
  unfold comparison? at h
  split at h
  · obtain ⟨key, name, h⟩ := Option.bind_eq_some_iff.mp h
    obtain ⟨value, constant, h⟩ := Option.bind_eq_some_iff.mp h
    cases h
    exact ⟨key, value, of_textField? name, constant, rfl⟩
  · cases h

theorem comparisonName_of_comparisonOf? {name : String} {op : Comparison}
    (h : Condition.comparisonOf? name = some op) : Condition.comparisonName op = name := by
  simpa using List.find?_some h

/-- A list of conditions or nothing, where a group has its parts. -/
theorem of_group {combine : List ConditionSpec → ConditionSpec}
    (h : (match _h : field? fields "conditions" with
      | none => some (combine [])
      | some (.list items) => (ofDocuments? items).map combine
      | some _ => none) = some spec) :
    ∃ parts, Grouped fields parts ∧ spec = combine parts := by
  split at h
  case h_1 none =>
    cases h
    exact ⟨[], .absent none, rfl⟩
  case h_2 items found =>
    obtain ⟨parts, inner, rfl⟩ := Option.map_eq_some_iff.mp h
    exact ⟨parts, .listed found inner, rfl⟩
  case h_3 => cases h

/-- Each kind of strict form leaves the fields that its record has to have. -/
theorem of_ofDocument? (h : ofDocument? (.dict fields) = some spec) : OfFields fields spec := by
  rw [ofDocument?] at h
  split at h
  case h_1 kind =>
    split at h
    · cases h
      exact .always (of_textField? kind)
    · cases h
  case h_2 kind =>
    split at h
    · obtain ⟨source, found, rfl⟩ := Option.map_eq_some_iff.mp h
      exact .expr (of_textField? kind) (of_textField? found)
    · cases h
  case h_3 kind =>
    obtain ⟨key, name, rfl⟩ := of_keyed? h
    exact .present (of_textField? kind) name
  case h_4 kind =>
    obtain ⟨key, name, rfl⟩ := of_keyed? h
    exact .absent (of_textField? kind) name
  case h_5 kind =>
    obtain ⟨key, name, rfl⟩ := of_keyed? h
    exact .flag (of_textField? kind) name
  case h_6 kind =>
    obtain ⟨key, name, rfl⟩ := of_keyed? h
    exact .flag (of_textField? kind) name
  case h_7 kind =>
    split at h
    · obtain ⟨parts, group, rfl⟩ := of_group h
      exact .all (of_textField? kind) group
    · cases h
  case h_8 kind =>
    split at h
    · obtain ⟨parts, group, rfl⟩ := of_group h
      exact .any (of_textField? kind) group
    · cases h
  case h_9 kind =>
    split at h
    · split at h
      · rename_i d found
        obtain ⟨part, inner, rfl⟩ := Option.map_eq_some_iff.mp h
        exact .not (of_textField? kind) found inner
      · cases h
    · cases h
  case h_10 name _ _ _ _ _ _ _ _ _ kind =>
    obtain ⟨op, named, h⟩ := Option.bind_eq_some_iff.mp h
    obtain ⟨key, value, keyed, constant, rfl⟩ := of_comparison? h
    rw [← comparisonName_of_comparisonOf? named] at kind
    exact .compares (of_textField? kind) keyed constant
  case h_11 => cases h

end ConditionSpec

/-! ## The record of a condition -/

/-- Where a fact is written as a record, it needs a kind; only the complaint about a missing
    one depends on whether a bare value would have been possible. -/
theorem Fact.concur_ofTagged (fields : List (String × Document)) :
    Concur (ofTagged (.dict fields)) (ofDocument (.dict fields)) := by
  unfold ofDocument
  split
  case isTrue => exact .refl _
  case isFalse untagged =>
    have none : field? fields "kind" = none := Option.not_isSome_iff_eq_none.mp untagged
    simp only [ofTagged, none, ofBare]
    exact .fault (.unlabelled _)

namespace Condition

variable {fields : List (String × Document)}

theorem ofRecord_comparison {op : Comparison}
    (kind : field? fields "kind" = some (.str (comparisonName op))) :
    ofRecord (.dict fields) = comparison op fields := by
  rw [ofRecord, kind]
  cases op <;> simp [comparisonName, comparisonOf?, Comparison.all]

theorem ofRecord_flag {expected : Bool}
    (kind : field? fields "kind" = some (.str (if expected then "is_true" else "is_false"))) :
    ofRecord (.dict fields) = (do return flag expected (← keyOf fields)) := by
  rw [ofRecord, kind]
  cases expected <;> rfl

theorem ofRecord_not {d : Document} (kind : field? fields "kind" = some (.str "not"))
    (found : field? fields "condition" = some d) :
    ofRecord (.dict fields) = (do return not (← ofRecord d)) := by
  rw [ofRecord, kind]
  simp [need_of_field? found, bind, Except.bind]

/-- A group without a list of parts has none. -/
theorem ofRecord_empty {name : String} {combine : List Condition → Condition}
    (h : (name, combine) = ("all", all) ∨ (name, combine) = ("any", any))
    (kind : field? fields "kind" = some (.str name))
    (none : field? fields "conditions" = none) :
    ofRecord (.dict fields) = .ok (combine []) := by
  rw [ofRecord, kind]
  rcases h with h | h
  all_goals
    cases h
    simp only [Option.getD_some]
    split
    case h_1 => rfl
    case h_2 found => cases none.symm.trans found
    case h_3 found => cases none.symm.trans found

/-- A comparison is read alike, up to the complaint about its constant. -/
theorem concur_comparison {op : Comparison} {key : String} {value : Document}
    (name : field? fields "key" = some (.str key))
    (constant : field? fields "value" = some value) :
    Concur (comparison op fields) (ConditionSpec.compares op key value).build := by
  unfold comparison ConditionSpec.build
  rw [need_of_field? constant, keyOf_name name]
  cases value with
  | dict inner => exact (Fact.concur_ofTagged inner).bind fun _ => .refl _
  | _ => exact .refl _

end Condition

namespace ConditionSpec

/-! ## Agreement -/

/-- A condition of a rule set in which no condition, at any depth, is a bare text. -/
inductive IsStructured : ConditionSpec → Prop
  | always : IsStructured always
  | expr {source : String} : IsStructured (expr source)
  | compares {op : Comparison} {key : String} {value : Document} :
      IsStructured (compares op key value)
  | present {key : String} : IsStructured (present key)
  | absent {key : String} : IsStructured (absent key)
  | flag {expected : Bool} {key : String} : IsStructured (flag expected key)
  | all {parts : List ConditionSpec} : (∀ c ∈ parts, IsStructured c) → IsStructured (all parts)
  | any {parts : List ConditionSpec} : (∀ c ∈ parts, IsStructured c) → IsStructured (any parts)
  | not {part : ConditionSpec} : IsStructured part → IsStructured (not part)

/-- Only a record has a strict form that is structured. -/
theorem IsStructured.exists_fields {spec : ConditionSpec} (h : spec.IsStructured) {d : Document}
    (strict : ofDocument? d = some spec) : ∃ fields, d = .dict fields ∧ OfFields fields spec := by
  cases d with
  | dict fields => exact ⟨fields, rfl, of_ofDocument? strict⟩
  | str source =>
    rw [ofDocument?] at strict
    cases strict
    cases h
  | _ => simp [ofDocument?] at strict

/-- Lists of records are read alike if their items are. -/
theorem concur_parts {parts : List ConditionSpec}
    (h : ∀ c ∈ parts, ∀ {d}, ofDocument? d = some c → Concur (Condition.ofRecord d) c.build)
    {items : List Document} (inner : ofDocuments? items = some parts) :
    Concur (Condition.ofRecords items) (buildAll parts) := by
  induction items generalizing parts with
  | nil =>
    rw [ofDocuments?] at inner
    cases inner
    unfold Condition.ofRecords buildAll
    exact .refl _
  | cons d items ih =>
    rw [ofDocuments?] at inner
    obtain ⟨c, first, inner⟩ := Option.bind_eq_some_iff.mp inner
    obtain ⟨cs, rest, inner⟩ := Option.bind_eq_some_iff.mp inner
    cases inner
    obtain ⟨agrees, others⟩ := List.forall_mem_cons.mp h
    unfold Condition.ofRecords buildAll
    exact (agrees first).bind fun _ => (ih others rest).bind fun _ => .refl _

/-- Groups are read alike if their parts are. -/
theorem concur_group {name : String} {combine : List Condition → Condition}
    (h : (name, combine) = ("all", .all) ∨ (name, combine) = ("any", .any))
    {fields : List (String × Document)} (kind : field? fields "kind" = some (.str name))
    {parts : List ConditionSpec} (group : Grouped fields parts)
    (ih : ∀ c ∈ parts, ∀ {d}, ofDocument? d = some c → Concur (Condition.ofRecord d) c.build) :
    Concur (Condition.ofRecord (.dict fields)) (do return combine (← buildAll parts)) := by
  cases group with
  | absent none =>
    rw [Condition.ofRecord_empty h kind none]
    unfold buildAll
    exact .refl _
  | listed found inner =>
    rw [Condition.ofRecord_parts h kind found]
    exact (concur_parts ih inner).bind fun _ => .refl _

/-- The record of a condition in the strict form is read as the condition that the form
    stands for, or fails as building it does, if no condition in it is a bare text. -/
theorem readers_agree {spec : ConditionSpec} (h : spec.IsStructured) {d : Document}
    (strict : ofDocument? d = some spec) : Concur (Condition.ofRecord d) spec.build := by
  induction h generalizing d with
  | always =>
    obtain ⟨fields, rfl, written⟩ := IsStructured.always.exists_fields strict
    cases written with
    | always kind =>
      rw [Condition.ofRecord, kind]
      exact .refl _
  | expr =>
    obtain ⟨fields, rfl, written⟩ := IsStructured.expr.exists_fields strict
    cases written with
    | expr kind found =>
      rw [Condition.ofRecord, kind]
      simp only [Option.getD_some, found, Condition.ofLoose]
      exact .refl _
  | compares =>
    obtain ⟨fields, rfl, written⟩ := IsStructured.compares.exists_fields strict
    cases written with
    | compares kind name constant =>
      rw [Condition.ofRecord_comparison kind]
      exact Condition.concur_comparison name constant
  | present =>
    obtain ⟨fields, rfl, written⟩ := IsStructured.present.exists_fields strict
    cases written with
    | present kind name =>
      rw [Condition.ofRecord, kind]
      simp only [Option.getD_some, Condition.keyOf_name name]
      exact .refl _
  | absent =>
    obtain ⟨fields, rfl, written⟩ := IsStructured.absent.exists_fields strict
    cases written with
    | absent kind name =>
      rw [Condition.ofRecord, kind]
      simp only [Option.getD_some, Condition.keyOf_name name]
      exact .refl _
  | flag =>
    obtain ⟨fields, rfl, written⟩ := IsStructured.flag.exists_fields strict
    cases written with
    | flag kind name =>
      rw [Condition.ofRecord_flag kind, Condition.keyOf_name name]
      exact .refl _
  | all structured ih =>
    obtain ⟨fields, rfl, written⟩ := (IsStructured.all structured).exists_fields strict
    cases written with
    | all kind group =>
      exact concur_group (.inl rfl) kind group ih
  | any structured ih =>
    obtain ⟨fields, rfl, written⟩ := (IsStructured.any structured).exists_fields strict
    cases written with
    | any kind group =>
      exact concur_group (.inr rfl) kind group ih
  | not structured ih =>
    obtain ⟨fields, rfl, written⟩ := structured.not.exists_fields strict
    cases written with
    | not kind found inner =>
      rw [Condition.ofRecord_not kind found]
      exact (ih inner).bind fun _ => .refl _

namespace Winery

/-- The date of a bottle lies before 2020; the constant lacks its kind. -/
def dated : Document :=
  .dict [("kind", .str "less_than"), ("key", .str "date"), ("value", .dict [("value", .int 2020)])]

/-- The strict form of the same. -/
def datedSpec : ConditionSpec := compares .lt "date" (.dict [("value", .int 2020)])

def undated : Document := .dict [("kind", .str "not"), ("condition", dated)]

/-- Either will do. -/
def vintage : Document := .dict [("kind", .str "any"), ("conditions", .list [undated, dated])]

theorem vintage_agrees :
    (any [not datedSpec, datedSpec]).IsStructured ∧
      ofDocument? vintage = some (any [not datedSpec, datedSpec]) ∧
      Concur (Condition.ofRecord vintage) (any [not datedSpec, datedSpec]).build := by
  have structured : (any [not datedSpec, datedSpec]).IsStructured := by
    refine .any fun c hc => ?_
    rcases List.mem_pair.mp hc with rfl | rfl
    · exact .not .compares
    · exact .compares
  have second : ofDocument? dated = some datedSpec := by
    simp [dated, ofDocument?, field?, text?, hasOnly, comparison?, textField?,
      Condition.comparisonOf?, Comparison.all, Condition.comparisonName, datedSpec]
  have first : ofDocument? undated = some (not datedSpec) := by
    rw [undated, ofDocument?]
    exact congrArg (Option.map not) second
  have parts : ofDocuments? [undated, dated] = some [not datedSpec, datedSpec] := by
    simp [ofDocuments?, first, second]
  have strict : ofDocument? vintage = some (any [not datedSpec, datedSpec]) := by
    rw [vintage, ofDocument?]
    exact congrArg (Option.map any) parts
  exact ⟨structured, strict, readers_agree structured strict⟩

end Winery

end ConditionSpec

end Cascade
