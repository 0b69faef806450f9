-- SUMMARY: Facts that are read: which fact a list stands for, and that the record of a fact gives the fact back.
import Mathlib.Data.List.Basic
import Cascade.Fact.Reading

/-! # Facts that are read

A bare list stands for a fact of one of the two list kinds, and only if all its
items are integers or all are texts. The empty list stands for a list of texts.

A record names the kind of its fact, so that nothing has to be inferred: it
gives back the fact that it writes, an empty list with its kind too. Only an
indeterminate fact is lost, since no record tells where it was born. -/

namespace Cascade

namespace Document

variable {α : Type} {items : List Document}

/-- Items are read one by one by the inverse of what wrote them. -/
theorem mapM_eq_some {read? : Document → Option α} {write : α → Document}
    (inverse : ∀ d a, read? d = some a ↔ d = write a) {as : List α} :
    items.mapM read? = some as ↔ items = as.map write := by
  induction items generalizing as with
  | nil => cases as <;> simp
  | cons d ds ih =>
    cases as with
    | nil => simp [List.mapM_cons, Option.bind_eq_some_iff]
    | cons a as => simp [List.mapM_cons, Option.bind_eq_some_iff, ih, inverse]

theorem int?_eq_some (d : Document) (n : Int) : d.int? = some n ↔ d = .int n := by
  cases d <;> simp [int?]

theorem text?_eq_some (d : Document) (s : String) : d.text? = some s ↔ d = .str s := by
  cases d <;> simp [text?]

theorem ints?_eq_some {ns : List Int} : ints? items = some ns ↔ items = ns.map .int :=
  mapM_eq_some int?_eq_some

theorem texts?_eq_some {ss : List String} : texts? items = some ss ↔ items = ss.map .str :=
  mapM_eq_some text?_eq_some

end Document

namespace Fact

open Document

/-- A list that stands for a fact holds integers only or texts only. -/
theorem of_ofBare_list {items : List Document} {f : Fact} (h : ofBare (.list items) = .ok f) :
    (∃ ns : List Int, items = ns.map .int ∧ f = intList ns) ∨
      ∃ ss : List String, items = ss.map .str ∧ f = stringList ss := by
  unfold ofBare at h
  dsimp only at h
  split at h
  case h_1 ns hns =>
    cases h
    exact .inl ⟨ns, ints?_eq_some.mp hns, rfl⟩
  case h_2 ss hss _ =>
    cases h
    exact .inr ⟨ss, texts?_eq_some.mp hss, rfl⟩
  case h_3 => cases h

theorem ofBare_ints {ns : List Int} (nonempty : ns ≠ []) :
    ofBare (.list (ns.map .int)) = .ok (intList ns) := by
  cases ns with
  | nil => exact absurd rfl nonempty
  | cons n ns =>
    have read : ints? ((n :: ns).map Document.int) = some (n :: ns) := ints?_eq_some.mpr rfl
    unfold ofBare
    dsimp only
    rw [read]
    rfl

theorem ofBare_texts (ss : List String) :
    ofBare (.list (ss.map .str)) = .ok (stringList ss) := by
  have read : texts? (ss.map Document.str) = some ss := texts?_eq_some.mpr rfl
  cases ss with
  | nil => rfl
  | cons s ss =>
    have noInts : ints? ((s :: ss).map Document.str) = none := by simp [ints?, int?, List.mapM_cons]
    unfold ofBare
    dsimp only
    rw [read, noInts]
    rfl

/-! ## Records -/

/-- A fact that a record can write. -/
def IsWritable : Fact → Prop
  | indeterminate _ => False
  | _ => True

theorem ofKind_payload {f : Fact} (h : f.IsWritable) : ofKind f.kind f.payload = .ok f := by
  cases f with
  | int | float | bool | string => rfl
  | indeterminate => exact h.elim
  | intList ns =>
    have read : ints? (ns.map .int) = some ns := ints?_eq_some.mpr rfl
    simp only [kind, payload, ofKind, read]
  | stringList ss =>
    have read : texts? (ss.map .str) = some ss := texts?_eq_some.mpr rfl
    simp only [kind, payload, Document.texts, ofKind, read]

end Fact

theorem Kind.ofName?_name (k : Kind) : ofName? k.name = some k := by cases k <;> rfl

/-- A record gives back the fact that it writes. -/
theorem Fact.ofTagged_toDocument {f : Fact} (h : f.IsWritable) :
    ofTagged f.toDocument = .ok f := by
  have kind : (Document.str f.kind.name).text?.bind Kind.ofName? = some f.kind :=
    f.kind.ofName?_name
  have fields : Document.field? [("kind", .str f.kind.name), ("value", f.payload)] "kind"
      = some (.str f.kind.name) := rfl
  unfold ofTagged toDocument
  simp only [fields, kind]
  exact ofKind_payload h

end Cascade
