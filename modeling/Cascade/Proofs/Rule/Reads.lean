-- SUMMARY: What a rule refers to: the keys that its parts read and write, and the proof that expressions and conditions see no other keys.
import Cascade.Event.Basic
import Cascade.Proofs.Rule.Sound
import Cascade.Rule.Basic

/-! # What a rule refers to

The text of a rule says which keys it may read and which it may write. The value
of an expression depends on what its own keys read as, and so does the truth of
a condition: two readings that say the same of these keys are not told apart. -/

namespace Cascade

variable {read read' : Reading}

/-! ## Readings that say the same -/

/-- The value of an expression depends on the keys that it refers to. -/
theorem Expr.eval_congr {e : Expr} (h : ∀ key ∈ e.keys, read key = read' key) :
    e.eval read = e.eval read' := by
  induction e with
  | literal v => rfl
  | fact k => simp only [eval, fetch, h k (List.mem_singleton_self k)]
  | unary op e ih => simp only [eval, ih h]
  | binary op l r ihl ihr =>
    obtain ⟨hl, hr⟩ := List.forall_mem_append.mp h
    cases op with
    | arithmetic op => simp only [eval, ihl hl, ihr hr]
    | comparison op => simp only [eval, ihl hl, ihr hr]
    | connective op => cases op <;> simp only [eval, ihl hl, ihr hr]

namespace Condition

mutual
/-- The truth of a condition depends on the keys that it refers to. -/
theorem check_congr (c : Condition) (h : ∀ key ∈ c.keys, read key = read' key) :
    c.check read = c.check read' := by
  cases c with
  | always => rfl
  | expr e source => simp only [check, Expr.holds, Expr.eval_congr h]
  | compares op key value => simp only [check, h key (List.mem_singleton_self key)]
  | present key => simp only [check, h key (List.mem_singleton_self key)]
  | absent key => simp only [check, h key (List.mem_singleton_self key)]
  | flag expected key => simp only [check, truthOf, h key (List.mem_singleton_self key)]
  | all parts => exact checkAll_congr parts h
  | any parts => exact checkAny_congr parts h
  | not part => simp only [check, check_congr part h]

theorem checkAll_congr (cs : List Condition) (h : ∀ key ∈ keysAll cs, read key = read' key) :
    checkAll read cs = checkAll read' cs := by
  cases cs with
  | nil => rfl
  | cons c cs =>
    obtain ⟨hc, hcs⟩ := List.forall_mem_append.mp h
    simp only [checkAll, check_congr c hc, checkAll_congr cs hcs]

theorem checkAny_congr (cs : List Condition) (h : ∀ key ∈ keysAll cs, read key = read' key) :
    checkAny read cs = checkAny read' cs := by
  cases cs with
  | nil => rfl
  | cons c cs =>
    obtain ⟨hc, hcs⟩ := List.forall_mem_append.mp h
    simp only [checkAny, check_congr c hc, checkAny_congr cs hcs]
end

end Condition

theorem ValueSpec.value_congr {spec : ValueSpec} (h : ∀ key ∈ spec.keys, read key = read' key) :
    spec.value read = spec.value read' := by
  cases spec with
  | constant f => rfl
  | computed e => exact Expr.eval_congr h

/-- What a key reads as on an event depends on what it reads as in the store. -/
theorem Event.lookup_congr (event : Event) {db db' : Layered} {key : Key}
    (h : db.read key = db'.read key) : event.lookup db key = event.lookup db' key := by
  unfold lookup
  split
  · exact h
  · unfold consult
    split
    · rw [h]
    · rfl

/-! ## The keys of a rule -/

/-- The keys that a modification refers to: the one that it writes, which it may
    also read, and those of its value. -/
def Modification.keys (m : Modification) : List Key := m.key :: m.effect.keys

/-- The keys that a rule refers to: those of its condition and those of its
    modifications. -/
def Rule.keys (r : Rule) : List Key := r.condition.keys ++ r.modifications.flatMap (·.keys)

def Rule.writes (r : Rule) : List Key := r.modifications.map (·.key)

/-- A rule refers to every key that it writes. -/
theorem Rule.writes_subset_keys (r : Rule) : r.writes ⊆ r.keys := by
  intro key hk
  obtain ⟨m, hm, rfl⟩ := List.mem_map.mp hk
  apply List.mem_append_right
  exact List.mem_flatMap.mpr ⟨m, hm, List.mem_cons_self⟩

end Cascade
