-- SUMMARY: Registering a batch: which batches a scope takes, that one is registered as its rules would be one after the other or leaves no trace, and what becomes of a batch with a name that the scope has.
import Cascade.Proofs.Attempt
import Cascade.Proofs.Registry.Changes
import Cascade.Proofs.Registry.Numbered

/-! # Batches

A scope takes rules whose names are distinct and new to it. A batch is registered
if the scope takes it as it is or, where repeated names are numbered, as it is after
that; else nothing changes. Rules that are registered one after the other are
accepted in just the same cases, but the ones before a rule that is refused stay.

Names are compared with those of the scope after they have been numbered. So a name
that the scope has is refused in a batch that has it once, and may get by in a batch
that has it several times. -/

namespace Cascade

namespace Registry

/-! ## Registering in place -/

/-- Registers a batch, with a policy given by its name. -/
def enlist (batch : List Rule) (scope : String) (policy : Document) :
    Attempt Registry (List Rule) := do
  let policy ← Attempt.ofExcept (DuplicatePolicy.named policy)
  let (rules, r) ← Attempt.ofExcept ((← get).registerBatch batch scope policy)
  set r
  return rules

def enter (rule : Rule) (scope : String) : Attempt Registry Unit := do
  set (← Attempt.ofExcept ((← get).register rule scope))

/-- Registers rules one after the other, up to one that is refused. -/
def enlistEach (batch : List Rule) (scope : String) : Attempt Registry Unit :=
  batch.forM (enter · scope)

/-- A scope takes rules under names that are distinct and new to it. -/
structure Admits (r : Registry) (scope : String) (rules : List Rule) : Prop where
  distinct : (rules.map (·.id)).Nodup
  new : ∀ rule ∈ rules, rule.id ∉ (r.rulesOf scope).map (·.id)

/-- The rules that a policy makes of a batch. -/
def renamed (policy : DuplicatePolicy) (batch : List Rule) : List Rule :=
  match policy with
  | .error => batch
  | .suffix => numbered batch

variable {r : Registry} {batch : List Rule} {scope : String}

theorem rulesOf_append (r : Registry) (scope : String) (rules : List Rule) (other : String) :
    (r.append scope rules).rulesOf other
      = if other = scope then r.rulesOf scope ++ rules else r.rulesOf other :=
  rulesOf_put ..

theorem isSome_get?_iff {id : String} :
    (r.get? id scope).isSome ↔ id ∈ (r.rulesOf scope).map (·.id) := by
  simp [get?, List.find?_isSome]

/-! ## Names that are repeated -/

theorem resolve_suffix (scope : String) (batch : List Rule) :
    resolve .suffix scope batch = .ok (numbered batch) := by
  rw [numbered, List.mapIdx_eq_zipIdx_map]
  refine mapM_of_ok fun p _ => ?_
  obtain ⟨rule, i⟩ := p
  dsimp only
  by_cases repeated : 1 < occurrences batch rule.id
  · rw [if_neg (Nat.not_le.mpr repeated), numberedId, if_pos repeated]
  · rw [if_pos (Nat.not_lt.mp repeated), numberedId, if_neg repeated]

/-- Where names may not be repeated, a batch of distinct names is left as it is. -/
theorem resolve_error_of_nodup (distinct : (batch.map (·.id)).Nodup) :
    resolve .error scope batch = .ok batch := by
  have once (id : String) : occurrences batch id ≤ 1 := by
    rw [occurrences_eq_count]
    exact List.nodup_iff_count_le_one.mp distinct id
  have kept : resolve .error scope batch = .ok (batch.zipIdx.map Prod.fst) :=
    mapM_of_ok fun p _ => if_pos (once p.1.id)
  rw [kept, List.zipIdx_map_fst]

/-- Where names may not be repeated, a batch that does so is refused. -/
theorem resolve_error_of_not_nodup (repeats : ¬(batch.map (·.id)).Nodup) :
    ∃ id, resolve .error scope batch = .error (.duplicateRule id scope) := by
  cases resolved : resolve .error scope batch with
  | error f =>
    obtain ⟨⟨rule, i⟩, -, fails⟩ := exists_of_mapM_error resolved
    dsimp only at fails
    split at fails
    · cases fails
    · cases fails
      exact ⟨rule.id, rfl⟩
  | ok rules =>
    refine absurd (List.nodup_iff_count_le_one.mpr fun id => ?_) repeats
    rw [← occurrences_eq_count]
    by_contra several
    have some : 0 < occurrences batch id := by omega
    obtain ⟨i, hi, named, -⟩ := exists_occurrence some
    have mem : (batch[i], i) ∈ batch.zipIdx := by simp [List.mk_mem_zipIdx_iff_getElem?]
    obtain ⟨rule, ok⟩ := forall_of_mapM_ok resolved _ mem
    dsimp only at ok
    rw [named, if_neg several] at ok
    cases ok

/-! ## Which batches are accepted -/

/-- The check of a batch: each name joins those that are taken for the rules after
    it. -/
def check (scope : String) (rules : List Rule) (taken : List String) :
    Except Fault (List String) :=
  rules.foldlM (fun taken rule =>
    if rule.id ∈ taken then .error (.duplicateRule rule.id scope)
    else .ok (rule.id :: taken)) taken

theorem registerBatch_eq (r : Registry) (batch : List Rule) (scope : String)
    (policy : DuplicatePolicy) :
    r.registerBatch batch scope policy = do
      let resolved ← resolve policy scope batch
      let _ ← check scope resolved ((r.rulesOf scope).map (·.id))
      return (resolved, r.append scope resolved) := rfl

/-- Names that are distinct and not taken pass. -/
theorem check_of_fresh {rules : List Rule} {taken : List String}
    (distinct : (rules.map (·.id)).Nodup) (new : ∀ rule ∈ rules, rule.id ∉ taken) :
    ∃ taken', check scope rules taken = .ok taken' := by
  induction rules generalizing taken with
  | nil => exact ⟨taken, rfl⟩
  | cons rule rest ih =>
    obtain ⟨first, distinct⟩ := List.nodup_cons.mp distinct
    obtain ⟨free, new⟩ := List.forall_mem_cons.mp new
    rw [check, List.foldlM_cons, if_neg free]
    refine ih distinct fun other mem again => ?_
    rcases List.mem_cons.mp again with same | again
    · exact first (List.mem_map.mpr ⟨other, mem, same⟩)
    · exact new other mem again

/-- Names that do not pass are refused for one of them. -/
theorem fault_of_check {rules : List Rule} {taken : List String} {f : Fault}
    (h : check scope rules taken = .error f) : ∃ id, f = .duplicateRule id scope := by
  induction rules generalizing taken with
  | nil => cases h
  | cons rule rest ih =>
    rw [check, List.foldlM_cons] at h
    by_cases again : rule.id ∈ taken
    · rw [if_pos again] at h
      cases h
      exact ⟨rule.id, rfl⟩
    · rw [if_neg again] at h
      exact ih h

/-- A batch that the scope takes under its new names is put at the end of the
    scope. -/
theorem registerBatch_of_admits {policy : DuplicatePolicy}
    (h : r.Admits scope (renamed policy batch)) :
    r.registerBatch batch scope policy
      = .ok (renamed policy batch, r.append scope (renamed policy batch)) := by
  have resolved : resolve policy scope batch = .ok (renamed policy batch) := by
    cases policy with
    | error => exact resolve_error_of_nodup h.distinct
    | suffix => exact resolve_suffix scope batch
  obtain ⟨taken, checked⟩ : ∃ taken, check scope (renamed policy batch)
      ((r.rulesOf scope).map (·.id)) = .ok taken := check_of_fresh h.distinct h.new
  rw [registerBatch_eq, resolved]
  change (check scope _ _ >>= _) = _
  rw [checked]
  rfl

/-- Any other batch is refused for a name. -/
theorem registerBatch_of_not_admits {policy : DuplicatePolicy}
    (h : ¬r.Admits scope (renamed policy batch)) :
    ∃ id, r.registerBatch batch scope policy = .error (.duplicateRule id scope) := by
  have checked (passes : resolve policy scope batch = .ok (renamed policy batch)) :
      ∃ id, r.registerBatch batch scope policy = .error (.duplicateRule id scope) := by
    cases found : check scope (renamed policy batch) ((r.rulesOf scope).map (·.id)) with
    | ok taken =>
      obtain ⟨distinct, new⟩ := fresh_of_check found
      exact absurd ⟨distinct, new⟩ h
    | error f =>
      obtain ⟨id, rfl⟩ := fault_of_check found
      refine ⟨id, ?_⟩
      rw [registerBatch_eq, passes]
      change (check scope _ _ >>= _) = _
      rw [found]
      rfl
  cases policy with
  | suffix => exact checked (resolve_suffix scope batch)
  | error =>
    by_cases distinct : (batch.map (·.id)).Nodup
    · exact checked (resolve_error_of_nodup distinct)
    · obtain ⟨id, refused⟩ : ∃ id, resolve .error scope batch = .error (.duplicateRule id scope) :=
        resolve_error_of_not_nodup distinct
      exact ⟨id, by rw [registerBatch_eq, refused]; rfl⟩

/-! ## Batches in place -/

theorem named_name (policy : DuplicatePolicy) :
    DuplicatePolicy.named (.str policy.name) = .ok policy := by
  cases policy <;> rfl

/-- Registering in place gives the new names and leaves the new registry, or leaves
    the one that there was. -/
theorem on_enlist {given : Document} {policy : DuplicatePolicy}
    (named : DuplicatePolicy.named given = .ok policy) (r : Registry) :
    (enlist batch scope given).on r
      = match r.registerBatch batch scope policy with
        | .ok (rules, r') => (.ok rules, r')
        | .error f => (.error f, r) := by
  rw [enlist, named]
  change Attempt.on (Attempt.ofExcept (r.registerBatch batch scope policy) >>= _) r = _
  rcases r.registerBatch batch scope policy with f | ⟨rules, r'⟩ <;> rfl

/-- A batch that the scope takes under its new names is registered. -/
theorem enlist_of_admits {given : Document} {policy : DuplicatePolicy}
    (named : DuplicatePolicy.named given = .ok policy)
    (h : r.Admits scope (renamed policy batch)) :
    (enlist batch scope given).on r
      = (.ok (renamed policy batch), r.append scope (renamed policy batch)) := by
  rw [on_enlist named, registerBatch_of_admits h]

/-- Any other batch is refused for a name and leaves no trace. -/
theorem enlist_of_not_admits {given : Document} {policy : DuplicatePolicy}
    (named : DuplicatePolicy.named given = .ok policy)
    (h : ¬r.Admits scope (renamed policy batch)) :
    ∃ id, (enlist batch scope given).on r = (.error (.duplicateRule id scope), r) := by
  obtain ⟨id, refused⟩ := registerBatch_of_not_admits h
  exact ⟨id, by rw [on_enlist named, refused]⟩

/-- A batch is accepted if the scope takes it under its new names. -/
theorem isOk_enlist_iff {given : Document} {policy : DuplicatePolicy}
    (named : DuplicatePolicy.named given = .ok policy) :
    ((enlist batch scope given).on r).1.isOk ↔ r.Admits scope (renamed policy batch) := by
  constructor
  · intro accepted
    by_contra h
    obtain ⟨id, refused⟩ := enlist_of_not_admits named h
    rw [refused] at accepted
    cases accepted
  · intro h
    rw [enlist_of_admits named h]
    rfl

/-- A batch is refused for its policy or for a name, and leaves no trace. -/
theorem enlist_refused {given : Document} {f : Fault}
    (h : ((enlist batch scope given).on r).1 = .error f) :
    ((enlist batch scope given).on r).2 = r ∧
      (f = .badArgument (.policy given) ∨ ∃ id, f = .duplicateRule id scope) := by
  cases named : DuplicatePolicy.named given with
  | error g =>
    have refused : (enlist batch scope given).on r = (.error g, r) := by
      rw [enlist, named]
      rfl
    unfold DuplicatePolicy.named at named
    split at named
    · cases named
    · cases named
      rw [refused] at h ⊢
      cases h
      exact ⟨rfl, .inl rfl⟩
  | ok policy =>
    by_cases takes : r.Admits scope (renamed policy batch)
    · rw [enlist_of_admits named takes] at h
      cases h
    · obtain ⟨id, refused⟩ := enlist_of_not_admits named takes
      rw [refused] at h ⊢
      cases h
      exact ⟨rfl, .inr ⟨id, rfl⟩⟩

/-- Numbering repeated names comes to numbering them beforehand: either way the same
    rules are registered, or a name is complained of, if not always the same one, and
    nothing has changed. -/
theorem enlist_suffix (r : Registry) (batch : List Rule) (scope : String) :
    (∃ rules r', (enlist batch scope (.str "suffix")).on r = (.ok rules, r') ∧
      (enlist (numbered batch) scope (.str "error")).on r = (.ok rules, r')) ∨
    ∃ id id', (enlist batch scope (.str "suffix")).on r = (.error (.duplicateRule id scope), r) ∧
      (enlist (numbered batch) scope (.str "error")).on r
        = (.error (.duplicateRule id' scope), r) := by
  have suffix : DuplicatePolicy.named (.str "suffix") = .ok .suffix := rfl
  have error : DuplicatePolicy.named (.str "error") = .ok .error := rfl
  by_cases takes : r.Admits scope (numbered batch)
  · exact .inl ⟨_, _, enlist_of_admits suffix takes, enlist_of_admits error takes⟩
  · obtain ⟨id, refused⟩ := enlist_of_not_admits suffix takes
    obtain ⟨id', beforehand⟩ := enlist_of_not_admits error takes
    exact .inr ⟨id, id', refused, beforehand⟩

/-! ## Rules one after the other -/

theorem admits_nil (r : Registry) (scope : String) : r.Admits scope [] := ⟨.nil, nofun⟩

/-- A scope takes rules if it takes the first one and, with that one at its end, the
    others. -/
theorem admits_cons {rule : Rule} {rest : List Rule} :
    r.Admits scope (rule :: rest)
      ↔ ¬(r.get? rule.id scope).isSome ∧ (r.append scope [rule]).Admits scope rest := by
  have names : ((r.append scope [rule]).rulesOf scope).map (·.id)
      = (r.rulesOf scope).map (·.id) ++ [rule.id] := by
    rw [rulesOf_append, if_pos rfl, List.map_append, List.map_singleton]
  rw [isSome_get?_iff]
  constructor
  · rintro ⟨distinct, new⟩
    obtain ⟨first, distinct⟩ := List.nodup_cons.mp distinct
    obtain ⟨free, new⟩ := List.forall_mem_cons.mp new
    refine ⟨free, distinct, fun other mem again => ?_⟩
    rw [names, List.mem_append, List.mem_singleton] at again
    rcases again with again | same
    · exact new other mem again
    · exact first (List.mem_map.mpr ⟨other, mem, same⟩)
  · rintro ⟨free, distinct, new⟩
    refine ⟨List.nodup_cons.mpr ⟨fun again => ?_, distinct⟩,
      List.forall_mem_cons.mpr ⟨free, fun other mem again => ?_⟩⟩
    · obtain ⟨other, mem, same⟩ := List.mem_map.mp again
      refine new other mem ?_
      rw [names, same]
      exact List.mem_append_right _ (List.mem_singleton.mpr rfl)
    · refine new other mem ?_
      rw [names]
      exact List.mem_append_left _ again

/-- A rule joins the scope if its name is new, and is refused without a trace
    otherwise. -/
theorem on_enter (r : Registry) (rule : Rule) (scope : String) :
    (enter rule scope).on r
      = if (r.get? rule.id scope).isSome then (.error (.duplicateRule rule.id scope), r)
        else (.ok (), r.append scope [rule]) := by
  change Attempt.on (Attempt.ofExcept (r.register rule scope) >>= _) r = _
  unfold register
  split <;> rfl

/-- The first rule goes ahead of the others, and ends it if it is refused. -/
theorem on_enlistEach_cons (r : Registry) (rule : Rule) (rest : List Rule) (scope : String) :
    (enlistEach (rule :: rest) scope).on r
      = if (r.get? rule.id scope).isSome then (.error (.duplicateRule rule.id scope), r)
        else (enlistEach rest scope).on (r.append scope [rule]) := by
  change (enter rule scope >>= fun _ => enlistEach rest scope).on r = _
  have first := on_enter r rule scope
  split at first
  · rename_i taken
    rw [Attempt.bind_of_error first, if_pos taken]
  · rename_i free
    rw [Attempt.bind_of_ok first, if_neg free]

/-- Rules that the scope takes are all accepted, and every scope has the rules that
    it has when they are put at the end of theirs at once. -/
theorem enlistEach_of_admits (h : r.Admits scope batch) :
    ∃ r', (enlistEach batch scope).on r = (.ok (), r') ∧
      ∀ other, r'.rulesOf other = (r.append scope batch).rulesOf other := by
  -- on the rules, the first of which joins the scope
  induction batch generalizing r with
  | nil =>
    refine ⟨r, rfl, fun other => ?_⟩
    rw [rulesOf_append, List.append_nil]
    split
    · rename_i same
      rw [same]
    · rfl
  | cons rule rest ih =>
    obtain ⟨free, others⟩ := admits_cons.mp h
    obtain ⟨r', accepted, same⟩ := ih others
    refine ⟨r', by rw [on_enlistEach_cons, if_neg free, accepted], fun other => ?_⟩
    rw [same, rulesOf_append, rulesOf_append, rulesOf_append, rulesOf_append, if_pos rfl]
    split
    · rw [List.append_assoc, List.singleton_append]
    · rfl

/-- Of other rules one is refused. -/
theorem enlistEach_of_not_admits (h : ¬r.Admits scope batch) :
    ∃ id r', (enlistEach batch scope).on r = (.error (.duplicateRule id scope), r') := by
  induction batch generalizing r with
  | nil => exact absurd (admits_nil r scope) h
  | cons rule rest ih =>
    by_cases taken : (r.get? rule.id scope).isSome
    · exact ⟨rule.id, r, by rw [on_enlistEach_cons, if_pos taken]⟩
    · obtain ⟨id, r', refused⟩ := ih fun others => h (admits_cons.mpr ⟨taken, others⟩)
      exact ⟨id, r', by rw [on_enlistEach_cons, if_neg taken, refused]⟩

theorem isOk_enlistEach_iff :
    ((enlistEach batch scope).on r).1.isOk ↔ r.Admits scope batch := by
  constructor
  · intro accepted
    by_contra h
    obtain ⟨id, r', refused⟩ := enlistEach_of_not_admits h
    rw [refused] at accepted
    cases accepted
  · intro h
    obtain ⟨r', accepted, -⟩ := enlistEach_of_admits h
    rw [accepted]
    rfl

/-! ## Batches as sequences -/

/-- A batch whose names may not be repeated is accepted just when its rules are if
    they are registered one after the other, and then every scope has the same rules
    either way. A batch whose repeated names are numbered fares as the numbered
    batch does where names may not be repeated: they are accepted together, with the
    same result. A batch that is refused, be it for its policy or for one of its
    names, leaves the registry as it was. -/
theorem batch_as_sequence (r : Registry) (batch : List Rule) (scope : String) :
    ((((enlist batch scope (.str "error")).on r).1.isOk
        ↔ ((enlistEach batch scope).on r).1.isOk) ∧
      (((enlist batch scope (.str "error")).on r).1.isOk → ∀ other,
        ((enlist batch scope (.str "error")).on r).2.rulesOf other
          = ((enlistEach batch scope).on r).2.rulesOf other)) ∧
    ((∃ rules r', (enlist batch scope (.str "suffix")).on r = (.ok rules, r') ∧
        (enlist (numbered batch) scope (.str "error")).on r = (.ok rules, r')) ∨
      ∃ id id', (enlist batch scope (.str "suffix")).on r = (.error (.duplicateRule id scope), r) ∧
        (enlist (numbered batch) scope (.str "error")).on r
          = (.error (.duplicateRule id' scope), r)) ∧
    ∀ policy f, ((enlist batch scope policy).on r).1 = .error f →
      ((enlist batch scope policy).on r).2 = r ∧
        (f = .badArgument (.policy policy) ∨ ∃ id, f = .duplicateRule id scope) := by
  have error : DuplicatePolicy.named (.str "error") = .ok .error := rfl
  have whole : ((enlist batch scope (.str "error")).on r).1.isOk ↔ r.Admits scope batch :=
    isOk_enlist_iff error
  refine ⟨⟨whole.trans isOk_enlistEach_iff.symm, fun accepted other => ?_⟩,
    enlist_suffix r batch scope, fun policy f => enlist_refused⟩
  have takes : r.Admits scope batch := whole.mp accepted
  obtain ⟨r', oneByOne, same⟩ := enlistEach_of_admits takes
  rw [enlist_of_admits error takes, oneByOne, same]
  rfl

namespace Choir

/-- A rule that applies when it is time to sing. -/
def singer (id : String) : Rule :=
  ⟨id, "sing", .always, [], [], [], .bool false, .int 0, .bool true⟩

def choir : Registry := empty.append globalScope [singer "alto"]

/-- Singers for other voices. -/
def voices : List Rule := [singer "tenor", singer "bass"]

/-- The other voices join the choir together as they would one by one. With one more
    alto in front of them none of them does. -/
theorem voices_as_sequence :
    ((enlist voices globalScope (.str "error")).on choir).1.isOk ∧
    (∀ other, ((enlist voices globalScope (.str "error")).on choir).2.rulesOf other
      = ((enlistEach voices globalScope).on choir).2.rulesOf other) ∧
    ((enlist (singer "alto" :: voices) globalScope (.str "error")).on choir).2 = choir := by
  have oneByOne : ((enlistEach voices globalScope).on choir).1.isOk := rfl
  obtain ⟨⟨accepts, same⟩, -, -⟩ := batch_as_sequence choir voices globalScope
  obtain ⟨-, -, untouched⟩ := batch_as_sequence choir (singer "alto" :: voices) globalScope
  have together := accepts.mpr oneByOne
  exact ⟨together, same together, (untouched (.str "error") _ rfl).1⟩

end Choir

/-! ## Names that the scope has -/

/-- A batch whose names, after numbering, are all new to a scope, although some may
    not be so before: the scope has no name that the batch has once, and the names
    that are given to repeated ones are neither in the scope nor once in the batch. -/
structure Evades (r : Registry) (scope : String) (batch : List Rule) : Prop where
  repeated : ∀ id, (r.get? id scope).isSome → occurrences batch id ≠ 1
  given : ∀ id n, 1 < occurrences batch id → n < occurrences batch id →
    ¬(r.get? (suffixed id n) scope).isSome ∧ occurrences batch (suffixed id n) ≠ 1

/-- A scope takes a numbered batch if the batch evades its names. -/
theorem admits_numbered_iff : r.Admits scope (numbered batch) ↔ r.Evades scope batch := by
  have new : (∀ rule ∈ numbered batch, rule.id ∉ (r.rulesOf scope).map (·.id))
      ↔ ∀ name ∈ (numbered batch).map (·.id), ¬(r.get? name scope).isSome := by
    rw [List.forall_mem_map]
    exact forall₂_congr fun rule _ => not_congr isSome_get?_iff.symm
  constructor
  · rintro ⟨distinct, free⟩
    have apart := nodup_numbered_iff.mp distinct
    have free := new.mp free
    refine ⟨fun id stored once => ?_, fun id n repeated few => ⟨?_, apart id n repeated few⟩⟩
    · exact free id (mem_names_numbered.mpr (.inl once)) stored
    · exact free _ (mem_names_numbered.mpr (.inr ⟨id, n, repeated, few, rfl⟩))
  · intro evades
    refine ⟨nodup_numbered_iff.mpr fun id n repeated few => (evades.given id n repeated few).2,
      new.mpr fun name mem stored => ?_⟩
    rcases mem_names_numbered.mp mem with once | ⟨id, n, repeated, few, rfl⟩
    · exact evades.repeated name stored once
    · exact (evades.given id n repeated few).1 stored

/-- A batch with a name that the scope has is refused, unless repeated names are
    numbered and it evades the names of the scope that way. Then it is registered
    under its new names, beside the rule whose name it has. -/
theorem conflict_refused_iff (policy : DuplicatePolicy)
    (conflict : ∃ rule ∈ batch, (r.get? rule.id scope).isSome) :
    ((∃ id, (enlist batch scope (.str policy.name)).on r = (.error (.duplicateRule id scope), r))
      ↔ ¬(policy = .suffix ∧ r.Evades scope batch)) ∧
    (policy = .suffix → r.Evades scope batch →
      (enlist batch scope (.str policy.name)).on r
        = (.ok (numbered batch), r.append scope (numbered batch))) := by
  have named := named_name policy
  have takes : r.Admits scope (renamed policy batch)
      ↔ policy = .suffix ∧ r.Evades scope batch := by
    cases policy with
    | error =>
      obtain ⟨rule, mem, stored⟩ := conflict
      exact iff_of_false (fun h => h.new rule mem (isSome_get?_iff.mp stored)) nofun
    | suffix => exact admits_numbered_iff.trans (and_iff_right rfl).symm
  refine ⟨⟨fun ⟨id, refused⟩ evades => ?_, fun caught => ?_⟩, fun numbers evades => ?_⟩
  · rw [enlist_of_admits named (takes.mpr evades)] at refused
    cases refused
  · exact enlist_of_not_admits named fun h => caught (takes.mp h)
  · subst numbers
    exact enlist_of_admits named (takes.mpr ⟨rfl, evades⟩)

namespace Choir

/-- Two more singers for the voice that the choir has. -/
def altos : List Rule := [singer "alto", singer "alto"]

theorem occurrences_altos (id : String) :
    occurrences altos id = if id = "alto" then 2 else 0 := by
  by_cases alto : id = "alto"
  · subst alto
    rfl
  · simp [occurrences, altos, singer, alto, Ne.symm alto]

/-- With their numbers the altos get past the one that is there. -/
theorem altos_evade : choir.Evades globalScope altos := by
  have once (id : String) : occurrences altos id ≠ 1 := by
    rw [occurrences_altos]
    split <;> decide
  refine ⟨fun id _ => once id, fun id n repeated few => ⟨fun stored => ?_, once _⟩⟩
  have alto : id = "alto" := by
    by_contra other
    rw [occurrences_altos, if_neg other] at repeated
    omega
  have few : n < 2 := by
    rwa [occurrences_altos, if_pos alto] at few
  have taken : suffixed id n ∈ ["alto"] := isSome_get?_iff.mp stored
  subst alto
  obtain rfl | rfl : n = 0 ∨ n = 1 := by omega
  · exact absurd taken (by decide)
  · exact absurd taken (by decide)

/-- One more alto is refused, two are not. -/
theorem altos_refused_iff :
    (∃ id, (enlist [singer "alto"] globalScope (.str "suffix")).on choir
      = (.error (.duplicateRule id globalScope), choir)) ∧
    (∃ rule ∈ altos, (choir.get? rule.id globalScope).isSome) ∧
    (enlist altos globalScope (.str "suffix")).on choir
      = (.ok (numbered altos), choir.append globalScope (numbered altos)) := by
  have stored : (choir.get? "alto" globalScope).isSome := rfl
  have conflict : ∃ rule ∈ altos, (choir.get? rule.id globalScope).isSome :=
    ⟨singer "alto", List.mem_cons_self, stored⟩
  have alone : ∃ rule ∈ [singer "alto"], (choir.get? rule.id globalScope).isSome :=
    ⟨singer "alto", List.mem_cons_self, stored⟩
  have caught : ¬(DuplicatePolicy.suffix = .suffix ∧ choir.Evades globalScope [singer "alto"]) :=
    fun evades => evades.2.repeated "alto" stored rfl
  obtain ⟨refused, -⟩ := conflict_refused_iff .suffix alone
  obtain ⟨-, accepted⟩ := conflict_refused_iff .suffix conflict
  exact ⟨refused.mpr caught, conflict, accepted rfl altos_evade⟩

/-- The choir has an alto, and yet a batch of two is not refused: the choir has
    three altos after it. -/
theorem altos_accepted :
    (∃ rule ∈ altos, (choir.get? rule.id globalScope).isSome) ∧
    (¬∃ id, ((enlist altos globalScope (.str "suffix")).on choir).1
      = .error (.duplicateRule id globalScope)) ∧
    (((enlist altos globalScope (.str "suffix")).on choir).2.rulesOf globalScope).map (·.id)
      = ["alto", "alto-0", "alto-1"] := by
  have accepted : (enlist altos globalScope (.str "suffix")).on choir
      = (.ok [singer "alto-0", singer "alto-1"],
          choir.append globalScope [singer "alto-0", singer "alto-1"]) := rfl
  refine ⟨⟨singer "alto", List.mem_cons_self, rfl⟩, ?_, ?_⟩
  · rintro ⟨id, refused⟩
    rw [accepted] at refused
    cases refused
  · rw [accepted]
    rfl

end Choir

end Registry

end Cascade
