-- SUMMARY: References: an expression lists the keys of the references in it, each once, and its value depends on what these keys read as.
import Cascade.Proofs.Rule.Reads

/-! # References

Going through its parts, an expression lists the key of every reference that it
meets and leaves out those that are on the list. A key is on the list if one that
counts as the same is. Among names no two count as the same; of other data two
may, such as the integer one and the float one, and then one of them is listed for
both. -/

namespace Cascade

/-- Names count as the same only if they are. -/
@[simp]
theorem Key.same_name (s t : String) : (name s).same (name t) = decide (s = t) := by
  simp [same, toDatum, Datum.text, Datum.same, Document.same]

namespace Expr

/-- The parts of an expression: the expression itself, then the parts of its
    operands from left to right. -/
def parts : Expr → List Expr
  | literal f => [literal f]
  | fact k => [fact k]
  | unary op e => unary op e :: e.parts
  | binary op l r => binary op l r :: (l.parts ++ r.parts)

/-- An expression refers to the keys of the references among its parts. -/
theorem mem_keys {e : Expr} {k : Key} : k ∈ e.keys ↔ fact k ∈ e.parts := by
  induction e with
  | literal f => simp [keys, parts]
  | fact l => simp [keys, parts]
  | unary op e ih => simp [keys, parts, ih]
  | binary op l r ihl ihr => simp [keys, parts, ihl, ihr]

/-! ## The list -/

variable {seen ks : List Key} {k : Key}

/-- Whether a key need not be added to a list. -/
def Covers (seen : List Key) (k : Key) : Prop := k ∈ seen ∨ ∃ l ∈ seen, l.same k

theorem Covers.mono {seen' : List Key} (sub : seen ⊆ seen') (h : Covers seen k) :
    Covers seen' k := by
  rcases h with mem | ⟨l, mem, same⟩
  · exact .inl (sub mem)
  · exact .inr ⟨l, sub mem, same⟩

theorem subset_insertKey (seen : List Key) (k : Key) : seen ⊆ insertKey seen k := by
  unfold insertKey
  split
  · exact List.Subset.refl seen
  · exact List.subset_append_left seen [k]

theorem covers_insertKey (seen : List Key) (k : Key) : Covers (insertKey seen k) k := by
  unfold insertKey
  split
  case isTrue found => exact .inr (List.any_eq_true.mp found)
  case isFalse => exact .inl (List.mem_append_right seen (List.mem_singleton_self k))

theorem mem_insertKey {l : Key} (h : l ∈ insertKey seen k) : l ∈ seen ∨ l = k := by
  unfold insertKey at h
  split at h
  · exact .inl h
  · simpa using h

theorem distinct_insertKey (h : seen.Pairwise fun k l => ¬k.same l) (k : Key) :
    (insertKey seen k).Pairwise fun k l => ¬k.same l := by
  unfold insertKey
  split
  case isTrue => exact h
  case isFalse none =>
    refine List.pairwise_append.mpr ⟨h, List.pairwise_singleton _ k, fun l mem m new => ?_⟩
    cases List.mem_singleton.mp new
    exact fun same => none (List.any_eq_true.mpr ⟨l, mem, same⟩)

theorem subset_insertKeys (seen ks : List Key) : seen ⊆ ks.foldl insertKey seen := by
  induction ks generalizing seen with
  | nil => exact List.Subset.refl seen
  | cons k ks ih => exact List.Subset.trans (subset_insertKey seen k) (ih (insertKey seen k))

theorem covers_insertKeys (seen : List Key) (h : k ∈ ks) : Covers (ks.foldl insertKey seen) k := by
  induction ks generalizing seen with
  | nil => cases h
  | cons l ks ih =>
    rcases List.mem_cons.mp h with rfl | later
    · exact (covers_insertKey seen k).mono (subset_insertKeys _ ks)
    · exact ih (insertKey seen l) later

theorem mem_insertKeys {seen : List Key} (h : k ∈ ks.foldl insertKey seen) : k ∈ seen ∨ k ∈ ks := by
  induction ks generalizing seen with
  | nil => exact .inl h
  | cons l ks ih =>
    rcases ih h with before | later
    · rcases mem_insertKey before with old | rfl
      · exact .inl old
      · exact .inr List.mem_cons_self
    · exact .inr (List.mem_cons_of_mem l later)

theorem distinct_insertKeys {seen : List Key} (h : seen.Pairwise fun k l => ¬k.same l)
    (ks : List Key) : (ks.foldl insertKey seen).Pairwise fun k l => ¬k.same l := by
  induction ks generalizing seen with
  | nil => exact h
  | cons k ks ih => exact ih (distinct_insertKey h k)

/-! ## The references of an expression -/

variable {e : Expr}

/-- Whether an expression has a key among its references: the key is listed, or it
    is that of a part of the expression and one that counts as the same is listed
    for it. -/
def Lists (e : Expr) (k : Key) : Prop := k ∈ e.refs ∨ fact k ∈ e.parts ∧ ∃ l ∈ e.refs, l.same k

theorem mem_keys_of_mem_refs (h : k ∈ e.refs) : k ∈ e.keys := by
  rcases mem_insertKeys h with none | mem
  · cases none
  · exact mem

/-- The references are those of the parts. -/
theorem lists_iff : e.Lists k ↔ fact k ∈ e.parts := by
  constructor
  · rintro (mem | ⟨part, -⟩)
    · exact mem_keys.mp (mem_keys_of_mem_refs mem)
    · exact part
  · intro part
    rcases covers_insertKeys [] (mem_keys.mpr part) with mem | counted
    · exact .inl mem
    · exact .inr ⟨part, counted⟩

/-- Names are listed themselves. -/
theorem lists_iff_mem (h : e.IsNamed) : e.Lists k ↔ k ∈ e.refs := by
  refine ⟨?_, .inl⟩
  rintro (mem | ⟨part, l, mem, same⟩)
  · exact mem
  · have name := h k (mem_keys.mpr part)
    have name' := h l (mem_keys_of_mem_refs mem)
    cases k with
    | other d => cases name
    | name s =>
      cases l with
      | other d => cases name'
      | name t =>
        rw [Key.same_name, decide_eq_true_eq] at same
        exact same ▸ mem

theorem nodup_refs (h : e.IsNamed) : e.refs.Nodup := by
  refine (distinct_insertKeys .nil e.keys).imp_of_mem fun {k l} mem _ other => ?_
  have name := h k (mem_keys_of_mem_refs mem)
  cases k with
  | other d => cases name
  | name s =>
    rintro rfl
    simp at other

/-- The value of an expression, or the fault in its place, depends on what its
    references read as. The references are the keys of the references among its
    parts. None of them is listed twice, and where they are names each is listed
    itself. -/
theorem refs_exact (e : Expr) :
    (∀ read read' : Reading, (∀ k, e.Lists k → read k = read' k) → e.eval read = e.eval read') ∧
      (∀ k, e.Lists k ↔ fact k ∈ e.parts) ∧
      (e.refs.Pairwise fun k l => ¬k.same l) ∧
      (e.IsNamed → e.refs.Nodup ∧ ∀ k, e.Lists k ↔ k ∈ e.refs) := by
  refine ⟨fun read read' agree => ?_, fun k => lists_iff, distinct_insertKeys .nil e.keys,
    fun named => ⟨nodup_refs named, fun k => lists_iff_mem named⟩⟩
  exact eval_congr fun k mem => agree k (lists_iff.mpr (mem_keys.mp mem))

namespace Market

/-- A bargain is affordable and leaves something over, or the seller is generous. -/
def bargain : Expr :=
  .binary (.connective .or)
    (.binary (.connective .and)
      (.binary (.comparison .gt) (.fact (.name "gold")) (.fact (.name "price")))
      (.binary (.comparison .gt)
        (.binary (.arithmetic .sub) (.fact (.name "gold")) (.fact (.name "price")))
        (.literal (.int 2))))
    (.fact (.name "generous"))

/-- What a day is like, whatever the weather: the seller's mood is not known. -/
def day (weather : String) : Reading
  | .name "gold" => .ok (some (.int 7))
  | .name "price" => .ok (some (.int 6))
  | .name "weather" => .ok (some (.string weather))
  | _ => .ok none

/-- The bargain has three references and does not depend on the weather, here with
    a fault for the seller's mood. -/
theorem bargain_refs :
    bargain.IsNamed ∧ bargain.refs = [.name "gold", .name "price", .name "generous"] ∧
      bargain.eval (day "rain") = .error (.unknownFact (.name "generous")) ∧
      (∀ k, bargain.Lists k → day "rain" k = day "sun" k) ∧
      bargain.eval (day "rain") = bargain.eval (day "sun") ∧
      bargain.refs.Nodup := by
  have named : bargain.IsNamed := by
    simp [IsNamed, bargain, keys, Key.isName]
  have refs : bargain.refs = [.name "gold", .name "price", .name "generous"] := by
    simp [Expr.refs, bargain, keys, insertKey]
  obtain ⟨depends, -, -, listed⟩ := refs_exact bargain
  obtain ⟨nodup, lists⟩ := listed named
  have agree (k : Key) (h : bargain.Lists k) : day "rain" k = day "sun" k := by
    rw [lists, refs] at h
    simp only [List.mem_cons, List.not_mem_nil, or_false] at h
    rcases h with rfl | rfl | rfl
    all_goals rfl
  exact ⟨named, refs, rfl, agree, depends _ _ agree, nodup⟩

end Market

end Expr

end Cascade
