-- SUMMARY: The names that a batch repeats, numbered in the order of its rules: which names come of it, and when they are distinct.
import Mathlib.Data.List.Basic
import Cascade.Registry.Basic

/-! # Numbered names

A batch may have a name several times. Its rules are then told apart by a number
behind the name, from zero on. Two names with numbers are never the same unless
both the names and the numbers are, so numbered names can only fall together with
a name that the batch has once as it is. -/

namespace Cascade

namespace Registry

/-- The name that is given to the rule at a place of a batch: its own, with the
    number of rules of that name in front of it if the batch repeats the name. -/
def numberedId (batch : List Rule) (place : Nat) (id : String) : String :=
  if 1 < occurrences batch id then suffixed id (occurrences (batch.take place) id) else id

/-- A batch with its repeated names numbered. -/
def numbered (batch : List Rule) : List Rule :=
  batch.mapIdx fun place rule => { rule with id := numberedId batch place rule.id }

/-! ## Suffixes -/

theorem toList_suffixed (id : String) (n : Nat) :
    (suffixed id n).toList = id.toList ++ '-' :: Nat.toDigits 10 n := by
  simp [suffixed, toString, Nat.repr_eq_ofList_toDigits]

/-- Lists whose last parts lack an element are cut at the last place where it stands. -/
theorem cut_at_last {α : Type} {sep : α} {xs ys ds es : List α} (hd : sep ∉ ds) (he : sep ∉ es)
    (h : xs ++ sep :: ds = ys ++ sep :: es) : xs = ys ∧ ds = es := by
  rcases List.append_eq_append_iff.mp h with ⟨as, rfl, rest⟩ | ⟨as, rfl, rest⟩
  · cases as with
    | nil => exact ⟨(List.append_nil xs).symm, (List.cons.inj rest).2⟩
    | cons a as =>
      have inside : ds = as ++ sep :: es := (List.cons.inj rest).2
      exact absurd (inside ▸ List.mem_append_right as (List.mem_cons_self ..)) hd
  · cases as with
    | nil => exact ⟨List.append_nil ys, (List.cons.inj rest).2.symm⟩
    | cons a as =>
      have inside : es = as ++ sep :: ds := (List.cons.inj rest).2
      exact absurd (inside ▸ List.mem_append_right as (List.mem_cons_self ..)) he

/-- What is no digit is in no number. -/
theorem not_mem_toDigits {c : Char} (h : c.isDigit = false) (n : Nat) : c ∉ Nat.toDigits 10 n := by
  intro mem
  have digit := Nat.isDigit_of_mem_toDigits (by decide) (by decide) mem
  rw [h] at digit
  cases digit

/-- A number has no dash in it, so the last dash tells where the number begins. -/
theorem suffixed_inj {id id' : String} {n n' : Nat} (h : suffixed id n = suffixed id' n') :
    id = id' ∧ n = n' := by
  have chars := congrArg String.toList h
  rw [toList_suffixed, toList_suffixed] at chars
  have dash : Char.isDigit '-' = false := rfl
  obtain ⟨same, digits⟩ := cut_at_last (not_mem_toDigits dash n) (not_mem_toDigits dash n') chars
  refine ⟨String.toList_inj.mp same, ?_⟩
  rw [← Nat.ofDigitChars_ten_toDigits (n := n), digits, Nat.ofDigitChars_ten_toDigits]

/-! ## Occurrences -/

variable {batch : List Rule} {id : String}

theorem occurrences_eq_count (batch : List Rule) (id : String) :
    occurrences batch id = (batch.map (·.id)).count id := by
  rw [occurrences, List.count, List.countP_map]
  rfl

/-- A name has occurred less often in front of one of its rules than after it. -/
theorem occurrences_take_lt {i j : Nat} (hi : i < batch.length) (later : i < j) :
    occurrences (batch.take i) batch[i].id < occurrences (batch.take j) batch[i].id := by
  have here : occurrences (batch.take (i + 1)) batch[i].id
      = occurrences (batch.take i) batch[i].id + 1 := by
    rw [occurrences, ← List.take_append_getElem hi, List.countP_append]
    simp [occurrences]
  have upto : occurrences (batch.take (i + 1)) batch[i].id
      ≤ occurrences (batch.take j) batch[i].id :=
    (List.take_prefix_take_left (Nat.succ_le_of_lt later)).sublist.countP_le
  omega

/-- In front of each rule its name has occurred less often than in the batch. -/
theorem occurrences_take_lt_self {i : Nat} (hi : i < batch.length) :
    occurrences (batch.take i) batch[i].id < occurrences batch batch[i].id := by
  have lt := occurrences_take_lt hi hi
  rwa [List.take_length] at lt

/-- Whatever number below that of its occurrences, a name has a rule with so many in
    front of it. -/
theorem exists_occurrence {n : Nat} (h : n < occurrences batch id) :
    ∃ (i : Nat) (hi : i < batch.length),
      batch[i].id = id ∧ occurrences (batch.take i) id = n := by
  induction batch generalizing n with
  | nil => cases h
  | cons rule rest ih =>
    by_cases here : rule.id = id
    · cases n with
      | zero => exact ⟨0, Nat.zero_lt_succ _, here, rfl⟩
      | succ n =>
        have fewer : n < occurrences rest id := by
          simpa [occurrences, here] using h
        obtain ⟨i, hi, named, count⟩ := ih fewer
        refine ⟨i + 1, Nat.succ_lt_succ hi, named, ?_⟩
        rw [List.take_succ_cons, occurrences, List.countP_cons_of_pos (by simpa using here)]
        exact congrArg (· + 1) count
    · have same : n < occurrences rest id := by
        simpa [occurrences, here] using h
      obtain ⟨i, hi, named, count⟩ := ih same
      refine ⟨i + 1, Nat.succ_lt_succ hi, named, ?_⟩
      rw [List.take_succ_cons, occurrences, List.countP_cons_of_neg (by simpa using here)]
      exact count

/-! ## Names of a numbered batch -/

/-- A name that the batch has once stays as it is. -/
theorem exists_unnumbered {name : String} (once : occurrences batch name = 1) :
    ∃ (i : Nat) (hi : i < batch.length),
      batch[i].id = name ∧ numberedId batch i batch[i].id = name := by
  obtain ⟨i, hi, named, -⟩ := exists_occurrence (n := 0) (once ▸ Nat.one_pos)
  exact ⟨i, hi, named, by rw [named, numberedId, if_neg (by omega)]⟩

/-- A repeated name is given every number below that of its rules. -/
theorem exists_numbered {n : Nat} (repeated : 1 < occurrences batch id)
    (few : n < occurrences batch id) :
    ∃ (i : Nat) (hi : i < batch.length),
      batch[i].id = id ∧ numberedId batch i batch[i].id = suffixed id n := by
  obtain ⟨i, hi, named, count⟩ := exists_occurrence few
  exact ⟨i, hi, named, by rw [named, numberedId, if_pos repeated, count]⟩

theorem names_numbered (batch : List Rule) :
    (numbered batch).map (·.id) = batch.mapIdx fun i rule => numberedId batch i rule.id := by
  refine List.ext_getElem (by simp [numbered]) fun i _ _ => ?_
  simp only [numbered, List.getElem_map, List.getElem_mapIdx]

/-- A numbered batch has the names that the batch has once, and each repeated name
    with every number below that of its rules. -/
theorem mem_names_numbered {name : String} :
    name ∈ (numbered batch).map (·.id) ↔ occurrences batch name = 1 ∨
      ∃ id n, 1 < occurrences batch id ∧ n < occurrences batch id ∧ name = suffixed id n := by
  rw [names_numbered, List.mem_mapIdx]
  constructor
  · rintro ⟨i, hi, rfl⟩
    have inFront := occurrences_take_lt_self hi
    unfold numberedId
    split
    · rename_i repeated
      exact .inr ⟨_, _, repeated, inFront, rfl⟩
    · exact .inl (by omega)
  · rintro (once | ⟨id, n, repeated, few, rfl⟩)
    · obtain ⟨i, hi, -, stays⟩ := exists_unnumbered once
      exact ⟨i, hi, stays⟩
    · obtain ⟨i, hi, -, given⟩ := exists_numbered repeated few
      exact ⟨i, hi, given⟩

/-- The names of a numbered batch are distinct unless one that was given a number is
    a name that the batch has once. -/
theorem nodup_numbered_iff : ((numbered batch).map (·.id)).Nodup ↔
    ∀ id n, 1 < occurrences batch id → n < occurrences batch id →
      occurrences batch (suffixed id n) ≠ 1 := by
  rw [names_numbered]
  constructor
  · intro distinct id n repeated few once
    obtain ⟨i, hi, named, given⟩ := exists_numbered repeated few
    obtain ⟨k, hk, own, stays⟩ := exists_unnumbered once
    let names := batch.mapIdx fun i rule => numberedId batch i rule.id
    have length : names.length = batch.length := List.length_mapIdx
    have same : names[i] = names[k] := by
      simp only [names, List.getElem_mapIdx, given, stays]
    have place : i = k := (List.getElem_inj distinct).mp same
    subst place
    rw [← own, named] at once
    omega
  · intro apart
    refine List.pairwise_iff_getElem.mpr fun i k hi hk lt same => ?_
    rw [List.length_mapIdx] at hi hk
    rw [List.getElem_mapIdx, List.getElem_mapIdx] at same
    have first := occurrences_take_lt_self hi
    have second := occurrences_take_lt_self hk
    have between := occurrences_take_lt hi lt
    unfold numberedId at same
    split at same
    · rename_i repeated
      split at same
      · obtain ⟨names, numbers⟩ := suffixed_inj same
        rw [names] at between numbers
        omega
      · refine apart _ _ repeated first ?_
        rw [same]
        omega
    · split at same
      · rename_i repeated
        refine apart _ _ repeated second ?_
        rw [← same]
        omega
      · rw [same] at first between
        omega

end Registry

end Cascade
