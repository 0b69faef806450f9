-- SUMMARY: How the loading of a rule set ends: all parts are read, or the first part that cannot be read says how it fails.
import Cascade.Proofs.Rule.Record
import Cascade.Proofs.Rule.Sound

/-! # Why rule sets are refused

A document of the right form still has parts that readers of their own take on:
constants, sources of expressions, amounts and names. They are read one after the
other, and the first one that cannot be read decides how the loading ends. In all
cases but one the rule set is refused by a fault that names the place. The one case
is a constant that is written as a float by an integer beyond all floats: nobody
names the place then, and the fault of the conversion gets out. -/

namespace Cascade

open Document

/-! ## Faults of readers -/

/-- Whether a fault refuses a rule set, a fact of it or a rule of it. -/
def Fault.isRefusal : Fault → Bool
  | refused _ | badFact .. | badRule .. => true
  | _ => false

theorem Fault.ne_tooLarge {f : Fault} (h : f.isRefusal) : f ≠ .tooLarge := by
  rintro rfl
  cases h

/-- A constant that is written as a float, by an integer beyond all floats. -/
inductive Document.IsOversized : Document → Prop
  | tagged {fields : List (String × Document)} {n : Int}
      (kind : field? fields "kind" = some (.str "float"))
      (value : field? fields "value" = some (.int n))
      (large : floatOfInt? n = none) : IsOversized (.dict fields)

namespace Fact

theorem ofKind_fails {k : Kind} {d : Document} {f : Fault} (h : ofKind k d = .error f) :
    f.isOwn ∨ k = .float ∧ ∃ n, d = .int n ∧ floatOfInt? n = none := by
  unfold ofKind at h
  split at h
  case h_3 n =>
    split at h
    case h_1 => cases h
    case h_2 large => exact .inr ⟨rfl, n, rfl, large⟩
  case h_6 | h_7 =>
    split at h
    · cases h
    · cases h
      exact .inl rfl
  case h_8 =>
    cases h
    exact .inl rfl
  all_goals cases h

theorem ofBare_fails {d : Document} {f : Fault} (h : ofBare d = .error f) : f.isOwn := by
  unfold ofBare at h
  split at h
  case h_5 =>
    split at h
    · cases h
    · cases h
    · cases h
      rfl
  case h_6 | h_7 =>
    cases h
    rfl
  all_goals cases h

theorem kind_of_text {d : Document} {k : Kind} (h : d.text?.bind Kind.ofName? = some k) :
    d = .str k.name := by
  obtain ⟨s, text, named⟩ := Option.bind_eq_some_iff.mp h
  have name : k.name = s := by simpa using List.find?_some named
  rw [name]
  exact (text?_eq_some d s).mp text

theorem ofTagged_fails {fields : List (String × Document)} {f : Fault}
    (h : ofTagged (.dict fields) = .error f) : f.isOwn ∨ (dict fields).IsOversized := by
  simp only [ofTagged] at h
  split at h
  case h_1 =>
    cases h
    exact .inl rfl
  case h_2 kind tagged =>
    split at h
    case h_1 k named =>
      rcases ofKind_fails h with own | ⟨rfl, n, value, large⟩
      · exact .inl own
      · rw [kind_of_text named] at tagged
        refine .inr (.tagged tagged ?_ large)
        cases found : field? fields "value" with
        | none => simp [found] at value
        | some d => simpa [found] using value
    case h_2 =>
      cases h
      exact .inl rfl

/-- A constant fails by a fault of the library's own, or because it is oversized. -/
theorem ofDocument_fails {d : Document} {f : Fault} (h : ofDocument d = .error f) :
    f.isOwn ∨ d.IsOversized := by
  unfold ofDocument at h
  split at h
  case isFalse => exact .inl (ofBare_fails h)
  case isTrue tagged =>
    cases d with
    | dict fields => exact ofTagged_fails h
    | _ => cases tagged

theorem ofDocument_of_oversized {d : Document} (h : d.IsOversized) :
    ofDocument d = .error .tooLarge := by
  obtain ⟨kind, value, large⟩ := h
  have named : Kind.ofName? "float" = some .float := Kind.ofName?_name .float
  simp [ofDocument, isTagged, get?, ofTagged, kind, value, text?, named, ofKind, large]

end Fact

theorem Expr.parse_fails {source : String} {f : Fault} (h : parse source = .error f) : f.isOwn := by
  rcases or_of_bind_error h with scanned | ⟨ts, -, read⟩
  · obtain ⟨_, rfl⟩ := exists_of_mapError scanned
    rfl
  · obtain ⟨_, rfl⟩ := exists_of_mapError read
    rfl

namespace RuleSet

/-! ## Parts -/

/-- A part of a rule set that has a reader of its own. -/
inductive Part where
  | constant (d : Document)
  | amount (d : Document)
  | source (text : String)
  | name (text : String)

namespace Part

def isReadable : Part → Bool
  | constant d => (Fact.ofDocument d).isOk
  | amount d => (amountOf d).isOk
  | source text => (Expr.parse text).isOk
  | name text => text ≠ ""

/-- Only a constant can be too large. -/
def IsOversized : Part → Prop
  | constant d => d.IsOversized
  | _ => False

end Part

/-- The first part that cannot be read. -/
def unreadable? (parts : List Part) : Option Part := parts.find? (!·.isReadable)

theorem unreadable?_append (parts others : List Part) :
    unreadable? (parts ++ others) = (unreadable? parts).or (unreadable? others) :=
  List.find?_append

/-- What comes of the first part that cannot be read, if there is one: the fault of a
    conversion, if the part is oversized, and else a fault of some class. -/
inductive Ends {α : Type} (own : Fault → Bool) : Option Part → Except Fault α → Prop
  | result (a : α) : Ends own none (.ok a)
  | oversized {p : Part} (large : p.IsOversized) : Ends own (some p) (.error .tooLarge)
  | refused {p : Part} {f : Fault} (fits : ¬ p.IsOversized) (class? : own f) :
      Ends own (some p) (.error f)

namespace Ends

variable {α β : Type} {own : Fault → Bool} {parts others : List Part} {x : Except Fault α}

/-- Parts that are read first come first. -/
theorem bind {g : α → Except Fault β} (first : Ends own (unreadable? parts) x)
    (rest : ∀ a, x = .ok a → Ends own (unreadable? others) (g a)) :
    Ends own (unreadable? (parts ++ others)) (x >>= g) := by
  rw [unreadable?_append]
  generalize unreadable? parts = part at first
  cases first with
  | result a =>
    rw [Option.none_or]
    exact rest a rfl
  | oversized large => exact .oversized large
  | refused fits class? => exact .refused fits class?

/-- What is made of a result needs no parts of its own. -/
theorem map (h : Ends own (unreadable? parts) x) (g : α → β) :
    Ends own (unreadable? parts) (x >>= fun a => .ok (g a)) := by
  have ends : Ends own (unreadable? (parts ++ [])) (x >>= fun a => .ok (g a)) :=
    h.bind fun a _ => .result (g a)
  rwa [List.append_nil] at ends

/-- A traversal reads the parts of one element after those of another. -/
theorem mapM {g : α → Except Fault β} {partsOf : α → List Part} {xs : List α}
    (h : ∀ a ∈ xs, Ends own (unreadable? (partsOf a)) (g a)) :
    Ends own (unreadable? (xs.flatMap partsOf)) (xs.mapM g) := by
  induction xs with
  | nil => exact .result []
  | cons a xs ih =>
    obtain ⟨first, rest⟩ := List.forall_mem_cons.mp h
    rw [List.flatMap_cons, List.mapM_cons]
    exact first.bind fun b _ => (ih rest).map (b :: ·)

/-- A part with a reader of its own. -/
theorem single {p : Part} (read : p.isReadable = x.isOk)
    (large : p.IsOversized → x = .error .tooLarge)
    (fails : ∀ f, x = .error f → own f ∨ p.IsOversized) :
    Ends own (unreadable? [p]) x := by
  cases x with
  | ok a =>
    have none : unreadable? [p] = none := by
      simp [unreadable?, read, Except.isOk, Except.toBool]
    rw [none]
    exact .result a
  | error f =>
    have first : unreadable? [p] = some p := by
      simp [unreadable?, read, Except.isOk, Except.toBool]
    rw [first]
    by_cases oversized : p.IsOversized
    · rw [large oversized]
      exact .oversized oversized
    · exact .refused oversized ((fails f rfl).resolve_right oversized)

/-- Another name for the faults of the library's own. -/
theorem naming {wrap : Fault → Fault} {first : Option Part} (h : Ends Fault.isOwn first x)
    (wraps : ∀ f, own (wrap f)) : Ends own first (RuleSet.naming wrap x) := by
  cases h with
  | result a => exact .result a
  | oversized large => exact .oversized large
  | @refused p f fits class? =>
    have named : RuleSet.naming wrap (.error f : Except Fault α) = .error (wrap f) := by
      simp [RuleSet.naming, Except.mapError, class?]
    rw [named]
    exact .refused fits (wraps f)

/-- The first part that cannot be read decides which of the three ends it comes to. -/
theorem exact {first : Option Part} (h : Ends Fault.isRefusal first x) :
    ((∃ a, x = .ok a) ↔ first = none) ∧
      (x = .error .tooLarge ↔ ∃ p, first = some p ∧ p.IsOversized) ∧
      ((∃ a, x = .ok a) ∨ x = .error .tooLarge ∨ ∃ f, f.isRefusal ∧ x = .error f) := by
  cases h with
  | result a => simp
  | oversized large => simp [large]
  | refused fits class? => simp [fits, class?, Fault.ne_tooLarge class?]

end Ends

theorem ends_constant (d : Document) :
    Ends Fault.isOwn (unreadable? [.constant d]) (Fact.ofDocument d) :=
  .single rfl Fact.ofDocument_of_oversized fun _ => Fact.ofDocument_fails

theorem ends_source (text : String) :
    Ends Fault.isOwn (unreadable? [.source text]) (Expr.parse text) :=
  .single rfl False.elim fun _ h => .inl (Expr.parse_fails h)

theorem amountOf_fails {d : Document} {f : Fault} (h : amountOf d = .error f) : f.isOwn := by
  unfold amountOf at h
  split at h
  · rcases or_of_bind_error h with parsed | ⟨_, _, ⟨⟩⟩
    exact Expr.parse_fails parsed
  · rcases or_of_bind_error h with read | ⟨_, _, ⟨⟩⟩
    exact Fact.ofBare_fails read

theorem ends_amount (d : Document) :
    Ends Fault.isOwn (unreadable? [.amount d]) (amountOf d) :=
  .single rfl False.elim fun _ h => .inl (amountOf_fails h)

theorem ends_name (text : String) {fault : Fault} (own : fault.isOwn) :
    Ends Fault.isOwn (unreadable? [.name text]) (Rule.nonEmpty (.str text) fault) := by
  unfold Rule.nonEmpty
  by_cases empty : text = ""
  · refine .single (by simp [Part.isReadable, empty, Except.isOk, Except.toBool]) False.elim ?_
    intro f h
    simp only [empty, if_true, Except.error.injEq] at h
    exact .inl (h ▸ own)
  · refine .single (by simp [Part.isReadable, empty, Except.isOk, Except.toBool]) False.elim ?_
    intro f h
    simp [empty] at h

end RuleSet

/-! ## The parts of conditions -/

namespace ConditionSpec

open RuleSet

mutual
/-- The parts of a condition, in the order in which they are read. -/
def parts : ConditionSpec → List Part
  | text source | expr source => [.source source]
  | compares _ _ value => [.constant value]
  | all cs | any cs => partsAll cs
  | not c => c.parts
  | always | present _ | absent _ | flag .. => []

def partsAll : List ConditionSpec → List Part
  | [] => []
  | c :: cs => c.parts ++ partsAll cs
end

theorem ends_ofText (source : String) :
    Ends Fault.isOwn (unreadable? [.source source]) (Condition.ofText source) :=
  (ends_source source).map _

mutual
theorem ends_build (c : ConditionSpec) : Ends Fault.isOwn (unreadable? c.parts) c.build := by
  cases c with
  | text source => exact ends_ofText source
  | always => exact .result _
  | expr source => exact ends_ofText source
  | compares op key value => exact (ends_constant value).map _
  | present key => exact .result _
  | absent key => exact .result _
  | flag expected key => exact .result _
  | all cs => exact (ends_buildAll cs).map _
  | any cs => exact (ends_buildAll cs).map _
  | not c => exact (ends_build c).map _

theorem ends_buildAll (cs : List ConditionSpec) :
    Ends Fault.isOwn (unreadable? (partsAll cs)) (buildAll cs) := by
  cases cs with
  | nil => exact .result _
  | cons c cs =>
    rw [partsAll, buildAll]
    exact (ends_build c).bind fun _ _ => (ends_buildAll cs).map _
end

end ConditionSpec

/-! ## The parts of rules -/

namespace RuleSet

def Source.parts : Source → List Part
  | value d => [.constant d]
  | expr text => [.source text]

def EffectSpec.parts : EffectSpec → List Part
  | set source | setIfChanged source _ => source.parts
  | increment d | decrement d | combine _ d => [.amount d]
  | remove | toggle => []

/-- The parts of a rule, in the order in which they are read. -/
def RuleSpec.parts (r : RuleSpec) : List Part :=
  (r.conditions.map .source ++ ConditionSpec.partsAll (r.condition.getD [])) ++
    (r.modifications.flatMap (·.effect.parts) ++
      ([.name r.event] ++ (r.actions.map .name ++ r.outputs.map .name)))

/-- The parts of a rule set, in the order in which they are read. -/
def Spec.parts (s : Spec) : List Part :=
  s.facts.map (.constant ·.2) ++ s.rules.flatMap (·.parts)

theorem ends_source_build (source : Source) :
    Ends Fault.isOwn (unreadable? source.parts) source.build := by
  cases source with
  | value d => exact (ends_constant d).map _
  | expr text => exact (ends_source text).map _

theorem ends_effect (effect : EffectSpec) :
    Ends Fault.isOwn (unreadable? effect.parts) effect.build := by
  cases effect with
  | set source => exact (ends_source_build source).map _
  | setIfChanged source outputs => exact (ends_source_build source).map _
  | increment d => exact (ends_amount d).map _
  | decrement d => exact (ends_amount d).map _
  | combine op d => exact (ends_amount d).map _
  | remove => exact .result _
  | toggle => exact .result _

theorem ends_modification (m : ModificationSpec) :
    Ends Fault.isOwn (unreadable? m.effect.parts) m.build :=
  (ends_effect m.effect).map _

theorem ends_condition (r : RuleSpec) :
    Ends Fault.isOwn
      (unreadable? (r.conditions.map .source ++ ConditionSpec.partsAll (r.condition.getD [])))
      r.buildCondition := by
  have sources : Ends Fault.isOwn (unreadable? (r.conditions.map .source))
      (r.conditions.mapM Condition.ofText) := by
    rw [List.map_eq_flatMap]
    exact .mapM fun text _ => ConditionSpec.ends_ofText text
  refine sources.bind fun parts _ => ?_
  cases r.condition with
  | none => exact .result _
  | some specs => exact (ConditionSpec.ends_buildAll specs).map _

theorem ends_names (id list : String) (texts : List String) :
    Ends Fault.isOwn (unreadable? (texts.map .name)) (Rule.names id list (.texts texts)) := by
  have each : Rule.names id list (.texts texts) =
      texts.mapM fun text => Rule.nonEmpty (.str text) (.refused (.emptyName id list)) :=
    List.mapM_map
  rw [each, List.map_eq_flatMap]
  exact .mapM fun text _ => ends_name text rfl

/-- Of the parts that a rule is put together from, only the names can still be wrong. -/
theorem ends_draft {id event : String} {condition : Condition} {modifications : List Modification}
    {actions outputs : List String} {consumption enablement priority : Document}
    (named : id ≠ "") (layered : ∀ m ∈ modifications, m.IsNamed) :
    Ends Fault.isOwn
      (unreadable? ([.name event] ++ (actions.map .name ++ outputs.map .name)))
      (Rule.Draft.rule {
        id := .str id, event := .str event, consumption, enablement, priority
        condition := .ready condition
        modifications := .ok (modifications.map .ready)
        actions := .texts actions
        outputs := .texts outputs }) := by
  have ready : (modifications.map Rule.ModificationPart.ready).mapM (·.modification id)
      = .ok modifications :=
    mapM_map_of_ok fun m mem => Rule.modification_ready (layered m mem).layer id
  unfold Rule.Draft.rule
  rw [Rule.nonEmpty_str named]
  refine (ends_name event rfl).bind fun event _ => ?_
  dsimp only [Condition.Loose.condition, bind, Except.bind]
  rw [ready]
  refine (ends_names id "actions" actions).bind fun actions _ => ?_
  exact (ends_names id "outputs" outputs).map _

theorem defaultId_ne (event : String) (index : Nat) : defaultId event index ≠ "" := by
  simp [defaultId]

theorem ends_rule (r : RuleSpec) (index : Nat) :
    Ends Fault.isOwn (unreadable? r.parts) (r.build index) := by
  have named : (r.id.filter (· ≠ "")).getD (defaultId r.event index) ≠ "" := by
    cases given : r.id.filter (· ≠ "") with
    | none => exact defaultId_ne r.event index
    | some id => simpa using (Option.filter_eq_some_iff.mp given).2
  refine (ends_condition r).bind fun condition _ => ?_
  refine (Ends.mapM fun m _ => ends_modification m).bind fun modifications built => ?_
  have layered : ∀ m ∈ modifications, m.IsNamed :=
    Yields.mapM (fun m _ => named_modification m) modifications built
  exact ends_draft named layered

theorem ends_build (s : Spec) : Ends Fault.isRefusal (unreadable? s.parts) s.build := by
  have facts : Ends Fault.isRefusal (unreadable? (s.facts.map (.constant ·.2)))
      (s.facts.mapM fun fact => do
        return (fact.1, ← naming (.badFact fact.1) (Fact.ofDocument fact.2))) := by
    rw [List.map_eq_flatMap]
    exact .mapM fun fact _ => ((ends_constant fact.2).naming fun _ => rfl).map _
  have rules : Ends Fault.isRefusal (unreadable? (s.rules.zipIdx.flatMap (·.1.parts)))
      (s.rules.zipIdx.mapM fun rule => naming (.badRule (rule.1.label rule.2))
        (rule.1.build rule.2)) :=
    .mapM fun rule _ => (ends_rule rule.1 rule.2).naming fun _ => rfl
  have order : s.rules.zipIdx.flatMap (·.1.parts) = s.rules.flatMap (·.parts) := by
    rw [← List.flatMap_map Prod.fst, List.zipIdx_map_fst]
  rw [order] at rules
  exact facts.bind fun _ _ => rules.map _

theorem isRefusal_of_form {d : Document} {f : Fault} (h : Spec.ofDocument d = .error f) :
    f.isRefusal := by
  unfold Spec.ofDocument at h
  split at h
  · dsimp only at h
    split at h
    · cases h
    · cases h
      rfl
  · cases h
    rfl

/-- A rule set is loaded if its document has the right form and all of its parts can be
    read. The loading fails by the fault of a conversion if the first part that cannot be
    read is oversized. In all other cases the rule set is refused. -/
theorem outcome_exact (d : Document) :
    ((∃ rs, ofDocument d = .ok rs) ↔
        ∃ spec, Spec.ofDocument d = .ok spec ∧ unreadable? spec.parts = none) ∧
      (ofDocument d = .error .tooLarge ↔ ∃ spec p, Spec.ofDocument d = .ok spec ∧
        unreadable? spec.parts = some p ∧ p.IsOversized) ∧
      ((∃ rs, ofDocument d = .ok rs) ∨ ofDocument d = .error .tooLarge ∨
        ∃ f, f.isRefusal ∧ ofDocument d = .error f) := by
  cases form : Spec.ofDocument d with
  | error f =>
    have refused : ofDocument d = .error f := by
      simp [ofDocument, form, bind, Except.bind]
    have class? : f.isRefusal := isRefusal_of_form form
    simp [refused, class?, Fault.ne_tooLarge class?]
  | ok spec =>
    have built : ofDocument d = spec.build := by
      simp [ofDocument, form, bind, Except.bind]
    simpa [built] using (ends_build spec).exact

namespace Wharf

/-- A bill of goods by their weight. -/
def bill (weight : Document) : Document := .dict [("facts", .dict [("weight", weight)])]

/-- A weight in floats that no float can hold. -/
def heavy : Document :=
  .dict [("kind", .str "float"), ("value", .int (.ofNat (Nat.pow 10 200 * Nat.pow 10 200)))]

theorem bill_of_oversized {d : Document} (h : d.IsOversized) :
    ofDocument (bill d) = .error .tooLarge := by
  have form : Spec.ofDocument (bill d) = .ok ⟨[("weight", d)], []⟩ := rfl
  simp [ofDocument, form, Spec.build, Fact.ofDocument_of_oversized h, naming, Except.mapError,
    Fault.isOwn, bind, Except.bind]

/-- The bill of a heavy weight is neither taken nor refused. -/
theorem bill_breaks :
    ofDocument (bill heavy) = .error .tooLarge ∧
      ¬ ((∃ rs, ofDocument (bill heavy) = .ok rs) ∨
        ∃ f, f.isRefusal ∧ ofDocument (bill heavy) = .error f) := by
  have large : floatOfInt? (.ofNat (Nat.pow 10 200 * Nat.pow 10 200)) = none := by decide +kernel
  have outcome : ofDocument (bill heavy) = .error .tooLarge :=
    bill_of_oversized (.tagged rfl rfl large)
  refine ⟨outcome, ?_⟩
  rw [outcome]
  rintro (⟨rs, ⟨⟩⟩ | ⟨f, class?, ⟨⟩⟩)
  cases class?

end Wharf

end RuleSet

end Cascade
