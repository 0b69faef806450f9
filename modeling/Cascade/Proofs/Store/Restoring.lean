-- SUMMARY: Restoring a checkpoint: after any commands, the layers of the checkpoint are as they were and those opened since are empty.
import Mathlib.Data.List.Infix
import Cascade.Proofs.Store.Writing
import Cascade.Store.Command

/-! # Restoring a checkpoint

One log takes the writes to all layers, and layers are opened and dropped while
it does. What a store will be when it is undone is another store, its **shadow**:
the one of the checkpoint, on which the same scopes were opened and closed but
nothing was written. A write leaves the shadow alone (`Recording.written`), and
opening or dropping a layer goes through the log to the shadow, because no entry
of the log has anything to put back into a layer that is not there yet
(`Shadowed.ahead`). -/

namespace Cascade

/-- Taking a key away from no facts leaves none. -/
@[simp]
theorem Facts.assign_none_empty (key : Key) : (∅ : Facts).assign key none = ∅ := by
  cases key with
  | name s =>
    ext other : 1
    rw [get?_assign, get?_empty]
    split <;> rfl
  | other d => rfl

namespace Layered

open Attempt

/-! ## Layers opened and dropped -/

/-- The layers without their facts: which there are, and the scopes that opened
    them. -/
def frames (db : Layered) : List (Nat × String) := db.layers.map fun l => (l.serial, l.scope)

@[simp]
theorem serials_modifyAt (slot : Slot) (f : Facts → Facts) (db : Layered) :
    (db.modifyAt slot f).serials = db.serials := by
  cases slot <;> rfl

/-- Changing facts neither opens nor drops a layer. -/
@[simp]
theorem frames_modifyAt (slot : Slot) (f : Facts → Facts) (db : Layered) :
    (db.modifyAt slot f).frames = db.frames := by
  cases slot with
  | global => rfl
  | layer n =>
    have kept : ∀ l : Layer, ((l.modify n f).serial, (l.modify n f).scope) = (l.serial, l.scope) := by
      intro l
      unfold Layer.modify
      split <;> rfl
    simp only [frames, layers, modifyAt, List.map_cons, List.map_map, Function.comp_def, kept]

/-- What changing facts leaves alone, undoing writes does as well. -/
theorem foldl_undo_keeps {α : Type} {part : Layered → α}
    (same : ∀ slot f db, part (modifyAt slot f db) = part db) (entries : List (Entry Slot))
    (db : Layered) : part (entries.foldl undo db) = part db := by
  induction entries generalizing db with
  | nil => rfl
  | cons e es ih => rw [List.foldl_cons, ih, undo, same]

@[simp]
theorem frames_foldl_undo (entries : List (Entry Slot)) (db : Layered) :
    (entries.foldl undo db).frames = db.frames :=
  foldl_undo_keeps frames_modifyAt entries db

/-- A layer that is not there has no facts. -/
theorem factsAt_of_absent {db : Layered} {n : Nat} (h : db.serials ≤ n) :
    db.factsAt (.layer n) = ∅ := by
  have below := (List.pairwise_cons.mp db.descending).1
  have absent : db.layers.find? (·.serial = n) = none := by
    rw [List.find?_eq_none]
    intro l hl
    have lower : l.serial < db.serials := below l.serial (List.mem_map_of_mem hl)
    simp only [decide_eq_true_eq]
    omega
  simp [factsAt, absent]

/-- What is left when the innermost layer is dropped. -/
theorem of_popped? {db rest : Layered} (h : db.popped? = some rest) :
    db.outer = rest.layers ∧ rest.global = db.global ∧ rest.serials = db.serials ∧
      rest.births = db.births ∧ rest.journal = db.journal := by
  obtain ⟨global, inner, outer, serials, births, journal, descending⟩ := db
  cases outer with
  | nil => cases h
  | cons below others =>
    cases h
    exact ⟨rfl, rfl, rfl, rfl, rfl⟩

/-- Changing facts and dropping the innermost layer can be done in any order. -/
theorem popped?_modifyAt {db rest : Layered} (h : db.popped? = some rest) (slot : Slot)
    (f : Facts → Facts) : (db.modifyAt slot f).popped? = some (rest.modifyAt slot f) := by
  obtain ⟨global, inner, outer, serials, births, journal, descending⟩ := db
  cases outer with
  | nil => cases h
  | cons below others =>
    cases h
    cases slot <;> rfl

/-- Births and journal have no part in dropping a layer. -/
theorem popped?_booked (db : Layered) (b : Births) (j : Journal Slot) :
    (db.booked b j).popped? = db.popped?.map (booked b j) := by
  obtain ⟨global, inner, outer, serials, births, journal, descending⟩ := db
  cases outer <;> rfl

theorem popped?_foldl_undo {db rest : Layered} (h : db.popped? = some rest)
    (entries : List (Entry Slot)) :
    (entries.foldl undo db).popped? = some (entries.foldl undo rest) := by
  induction entries generalizing db rest with
  | nil => exact h
  | cons e es ih => exact ih (popped?_modifyAt h e.place _)

/-- Changing facts and opening a layer can be done in any order, if the change
    adds nothing to the new layer. -/
theorem modifyAt_pushed {db : Layered} {slot : Slot} {f : Facts → Facts} (name : String)
    (h : slot = .layer db.serials → f ∅ = ∅) :
    (db.pushed name).modifyAt slot f = (db.modifyAt slot f).pushed name := by
  cases slot with
  | global => rfl
  | layer n =>
    have opened : Layer.modify n f ⟨db.serials, name, ∅⟩ = ⟨db.serials, name, ∅⟩ := by
      apply modify_of_fixed
      intro hn
      have hn : db.serials = n := hn
      exact h (by rw [hn])
    simp only [pushed, modifyAt, opened, List.map_cons]

theorem foldl_undo_pushed {entries : List (Entry Slot)} {db : Layered} (name : String)
    (h : ∀ e ∈ entries, e.place = .layer db.serials → e.previous = none) :
    entries.foldl undo (db.pushed name) = (entries.foldl undo db).pushed name := by
  induction entries generalizing db with
  | nil => rfl
  | cons e es ih =>
    have first : (db.pushed name).undo e = (db.undo e).pushed name := by
      apply modifyAt_pushed
      intro hp
      rw [h e (List.mem_cons_self ..) hp, Facts.assign_none_empty]
    rw [List.foldl_cons, List.foldl_cons, first]
    apply ih
    intro e' he' hp
    rw [undo, serials_modifyAt] at hp
    exact h e' (List.mem_cons_of_mem _ he') hp

/-! ## Empty layers over a store -/

/-- A store with layers opened over some of another one, and nothing in them. -/
structure Over (kept : List Layer) (start db : Layered) : Prop where
  global : db.global = start.global
  journal : db.journal = start.journal
  serials : start.serials ≤ db.serials
  layers : ∃ fresh, db.layers = fresh ++ kept ∧
    ∀ l ∈ fresh, start.serials ≤ l.serial ∧ l.facts = ∅

namespace Over

variable {kept : List Layer} {start db rest : Layered}

theorem refl (db : Layered) : Over db.layers db db :=
  ⟨rfl, rfl, Nat.le_refl _, [], rfl, nofun⟩

theorem pushed (h : Over kept start db) (name : String) : Over kept start (db.pushed name) := by
  obtain ⟨fresh, hl, empty⟩ := h.layers
  refine ⟨h.global, h.journal, Nat.le_succ_of_le h.serials, ⟨db.serials, name, ∅⟩ :: fresh, ?_, ?_⟩
  · rw [List.cons_append, ← hl]
    rfl
  · exact List.forall_mem_cons.mpr ⟨⟨h.serials, rfl⟩, empty⟩

/-- A dropped layer was one of those opened since, or else the innermost of those that
    were kept; these all stay as long as no fewer layers are left. -/
theorem popped (h : Over kept start db) (hp : db.popped? = some rest) :
    ∃ kept', kept' <:+ kept ∧ (kept.length ≤ rest.layers.length → kept' = kept) ∧
      Over kept' start rest := by
  obtain ⟨outer, global, serials, -, journal⟩ := of_popped? hp
  obtain ⟨fresh, hl, empty⟩ := h.layers
  have global := global.trans h.global
  have journal := journal.trans h.journal
  have serials := h.serials.trans_eq serials.symm
  have split : db.inner :: rest.layers = fresh ++ kept := by
    rw [← hl, ← outer]
    rfl
  cases fresh with
  | nil =>
    have split : db.inner :: rest.layers = kept := split
    refine ⟨rest.layers, ⟨[db.inner], split⟩, fun room => ?_, global, journal, serials, [], rfl,
      nofun⟩
    have long := congrArg List.length split
    rw [List.length_cons] at long
    omega
  | cons l others =>
    rw [List.cons_append] at split
    exact ⟨kept, List.suffix_refl _, fun _ => rfl, global, journal, serials, others,
      (List.cons.inj split).2, fun l hm => empty l (List.mem_cons_of_mem _ hm)⟩

end Over

/-! ## Shadows -/

/-- A store since a checkpoint, and the store that undoing its log leads to. No
    entry of the log puts anything into a layer that was never opened. -/
structure Shadowed (shadow db : Layered) : Prop extends Recording shadow db where
  ahead : ∀ e ∈ db.journal.entries shadow.journal.next, ∀ n, db.serials ≤ n →
    e.place = .layer n → e.previous = none

namespace Shadowed

variable {shadow db rest : Layered}

theorem checkpointed (db : Layered) : Shadowed db db.checkpointed where
  toRecording := recording_checkpointed db
  ahead := by
    have empty : db.checkpointed.journal.entries db.journal.next = [] := by
      simp [Journal.entries, Layered.checkpointed, Journal.extend, Journal.activate, Journal.next]
    rw [empty]
    exact fun e mem => absurd mem List.not_mem_nil

/-- A write has something to put back only into a layer that is there. -/
theorem written (h : Shadowed shadow db) {db' : Layered} (step : Written db db') :
    Shadowed shadow db' := by
  refine ⟨h.toRecording.written step, ?_⟩
  obtain ⟨slot, key, content, rfl⟩ := step
  obtain ⟨entries, hl, -⟩ := h.undone
  have before : db.journal.entries shadow.journal.next = entries := entries_last hl
  have after : (db.write slot key content).journal.entries shadow.journal.next
      = db.entryOf slot key :: entries := by
    rw [journal_write]
    exact entries_last (logs_record h.isOpen hl _)
  rw [after]
  intro e he n hn hp
  rcases List.mem_cons.mp he with rfl | he
  · have absent : db.serials ≤ n := by simpa [write] using hn
    have hp : slot = .layer n := hp
    simp only [entryOf, hp, factsAt_of_absent absent]
    cases key with
    | name s => exact Facts.get?_empty s
    | other d => rfl
  · rw [← before] at he
    exact h.ahead e he n (by simpa [write] using hn) hp

theorem writes (h : Shadowed shadow db) {db' : Layered}
    (steps : Relation.ReflTransGen Written db db') : Shadowed shadow db' := by
  induction steps with
  | refl => exact h
  | tail _ step ih => exact ih.written step

/-- A layer that is opened is opened on the shadow as well. -/
theorem pushed (h : Shadowed shadow db) (name : String) :
    Shadowed (shadow.pushed name) (db.pushed name) := by
  obtain ⟨entries, hl, hu⟩ := h.undone
  have found : db.journal.entries shadow.journal.next = entries := entries_last hl
  refine ⟨⟨h.isOpen, entries, hl, ?_⟩, ?_⟩
  · rw [foldl_undo_pushed name fun e he => h.ahead e (by rwa [found]) _ (Nat.le_refl _), hu]
    rfl
  · intro e he n hn
    exact h.ahead e he n (Nat.le_of_succ_le hn)

/-- A layer that is dropped is dropped from the shadow as well. -/
theorem popped (h : Shadowed shadow db) (hp : db.popped? = some rest) :
    ∃ left, shadow.popped? = some left ∧ Shadowed left rest := by
  obtain ⟨entries, hl, hu⟩ := h.undone
  have undone := popped?_foldl_undo hp entries
  rw [hu, popped?_booked] at undone
  obtain ⟨left, hs, hb⟩ := Option.map_eq_some_iff.mp undone
  obtain ⟨-, -, serials, births, journal⟩ := of_popped? hp
  obtain ⟨-, -, -, -, shadows⟩ := of_popped? hs
  refine ⟨left, hs, ⟨?_, entries, ?_, ?_⟩, ?_⟩
  · rw [journal, shadows]
    exact h.isOpen
  · rw [journal, shadows]
    exact hl
  · rw [← hb, births, journal]
  · rw [journal, shadows, serials]
    exact h.ahead

/-- Restoring the checkpoint gives the shadow, and nothing is recorded any more. -/
theorem restored (h : Shadowed shadow db) :
    (restore shadow.journal.next).on db
      = (.ok ⟨⟩, shadow.booked db.births ⟨shadow.journal.logs ++ [[]], none⟩) := by
  unfold restore
  rw [on_modify, h.toRecording.restored]

theorem frames (h : Shadowed shadow db) : shadow.frames = db.frames := by
  obtain ⟨entries, -, hu⟩ := h.undone
  rw [← frames_foldl_undo entries db, hu]
  rfl

end Shadowed

/-! ## Commands -/

/-- What a command does to a store: it writes keys, opens a layer or drops one. -/
inductive Moved (db : Layered) : Layered → Prop
  | writes {db' : Layered} (steps : Relation.ReflTransGen Stored db db') : Moved db db'
  | pushed (name : String) : Moved db (db.pushed name)
  | popped {rest : Layered} (h : db.popped? = some rest) : Moved db rest

/-- Emptying a slot writes its keys one by one. -/
theorem steps_cleared (slot : Slot) (db : Layered) :
    Relation.ReflTransGen Stored db ((place slot).cleared db) :=
  steps_foldl (fun _ name => .single ⟨slot, .name name, none, nofun, rfl⟩) _ db

theorem takes_clear (slot : Slot) : Takes Stored (place slot).clear := steps_cleared slot

theorem takes_clearInner : Takes Stored clearInner := by
  intro db
  exact takes_clear db.innerSlot db

theorem takes_clearAll : Takes Stored clearAll := by
  refine .bind ?_ fun _ _ => takes_clear .global
  intro db
  exact steps_foldl (fun db (l : Layer) => steps_cleared (.layer l.serial) db) _ db

/-- Opening a scope opens a layer, unless the scope is refused. -/
theorem moved_pushScope (scope : Datum) (db : Layered) :
    Moved db ((pushScope scope).on db).2 := by
  unfold pushScope
  cases scope.text? with
  | none => exact .writes .refl
  | some name =>
    by_cases hn : name = ""
    · simp only [hn]
      exact .writes .refl
    · simp only [hn]
      exact .pushed name

/-- Closing a scope drops a layer, unless that is refused. -/
theorem moved_popScope (scope : Datum) (db : Layered) :
    Moved db ((popScope scope).on db).2 := by
  unfold popScope
  rw [bind_of_ok (on_get db)]
  cases hp : db.popped? with
  | none => exact .writes .refl
  | some rest =>
    by_cases other : !scope.isNull && !scope.same (.text db.inner.scope)
    · simp only [other]
      exact .writes .refl
    · simp only [other]
      exact .popped hp

namespace Command

/-- Whatever comes of a command, it has written keys, opened a layer or dropped
    one. -/
theorem moved (c : Command) (db : Layered) : Moved db (c.run.on db).2 := by
  have answers {α : Type} {a : Attempt Layered α} {g : α → Document} (h : Takes Stored a) :
      Moved db (on (do return g (← a)) db).2 := by
    rw [left_then_pure]
    exact .writes (h db)
  have silent {a : Attempt Layered Unit} (h : Takes Stored a) :
      Moved db ((silently a).on db).2 := answers h
  cases c with
  | read k => exact answers (.reading _)
  | holds k => exact answers (.reading _)
  | holdsIn l k =>
    have asks : Takes Stored (run (holdsIn l k)) :=
      .bind (.reading _) fun p _ => .bind (.reading _) fun _ _ => .pure _
    exact .writes (asks db)
  | readAs kind k => exact answers (.reading _)
  | readInt k d => exact answers (.reading _)
  | store k v l => exact silent (Writing.store k v l).stores
  | setIfChanged k v l => exact answers (Writing.setIfChanged k v l).stores
  | increment k a l => exact silent (Writing.increment k a l).stores
  | add k a l => exact silent (Writing.add k a l).stores
  | sub k a l => exact silent (Writing.sub k a l).stores
  | combine op k v l => exact silent (Writing.combine op k v l).stores
  | clamp k low high l => exact silent (Writing.clamp k low high l).stores
  | wrap k low high l => exact silent (Writing.wrap k low high l).stores
  | remove k l => exact answers (Writing.remove k l).stores
  | promote k => exact answers (Writing.promote k).stores
  | copy k => exact answers (Writing.copy k).stores
  | demote k => exact answers (Writing.demote k).stores
  | pushScope s =>
    have same := left_then_pure (Layered.pushScope s) (fun _ => Document.null) db
    unfold run silently
    rw [same]
    exact moved_pushScope s db
  | popScope s =>
    unfold run
    rw [left_then_pure]
    exact moved_popScope s db
  | clearInner => exact silent takes_clearInner
  | clearGlobal => exact silent (takes_clear .global)
  | clearAll => exact silent takes_clearAll
  | snapshot => exact answers (.get fun _ => .refl)
  | view l => exact answers (.reading _)
  | count l => exact answers (.reading _)
  | isEmpty => exact answers (.get fun _ => .refl)

end Command

/-! ## From the checkpoint to its restoration -/

/-- The store after some commands, whether they succeed or fail. -/
def carried (commands : List Command) (db : Layered) : Layered :=
  commands.foldl (fun db c => (c.run.on db).2) db

/-- A store since a checkpoint: its shadow is the store of the checkpoint, or some of its
    layers, under empty ones. -/
def Tracked (kept : List Layer) (start db : Layered) : Prop :=
  ∃ shadow, Over kept start shadow ∧ Shadowed shadow db

namespace Tracked

variable {kept : List Layer} {start db : Layered}

theorem checkpointed (db : Layered) : Tracked db.layers db db.checkpointed :=
  ⟨db, .refl db, .checkpointed db⟩

/-- What a command does is kept track of; all layers stay as long as no fewer of them are
    left. -/
theorem moved (h : Tracked kept start db) {db' : Layered} (step : Moved db db') :
    ∃ kept', kept' <:+ kept ∧ (kept.length ≤ db'.layers.length → kept' = kept) ∧
      Tracked kept' start db' := by
  obtain ⟨shadow, covered, shadowed⟩ := h
  cases step with
  | writes steps =>
    exact ⟨kept, List.suffix_refl _, fun _ => rfl, shadow, covered,
      shadowed.writes (written_of_stored steps)⟩
  | pushed name =>
    exact ⟨kept, List.suffix_refl _, fun _ => rfl, shadow.pushed name, covered.pushed name,
      shadowed.pushed name⟩
  | popped hp =>
    obtain ⟨left, hs, shadowed⟩ := shadowed.popped hp
    obtain ⟨kept', fewer, same, covered⟩ := covered.popped hs
    refine ⟨kept', fewer, fun room => same ?_, left, covered, shadowed⟩
    -- shadow and store have equally many layers
    have equal := congrArg List.length shadowed.frames
    simp only [frames, List.length_map] at equal
    omega

/-- After commands that drop only layers opened since, all layers are kept. -/
theorem carried (h : Tracked kept start db) (commands : List Command)
    (held : ∀ early, early <+: commands → kept.length ≤ (db.carried early).layers.length) :
    Tracked kept start (db.carried commands) := by
  induction commands generalizing db with
  | nil => exact h
  | cons c cs ih =>
    obtain ⟨kept', -, same, first⟩ := h.moved (c.moved db)
    obtain rfl := same (held [c] (List.prefix_append [c] cs))
    refine ih first fun early he => ?_
    exact held (c :: early) (List.cons_prefix_cons.mpr ⟨rfl, he⟩)

end Tracked

/-- A checkpoint can be opened if none is open. After any commands that drop only
    layers opened since, restoring it succeeds: every layer that was there is as
    it was, each one opened since that is still there is empty, and no checkpoint
    is open. -/
theorem restore_exact (start : Layered) (idle : start.journal.active = none)
    (commands : List Command)
    (held : ∀ early, early <+: commands →
      start.layers.length ≤ (start.checkpointed.carried early).layers.length) :
    checkpoint.on start = (.ok start.journal.next, start.checkpointed) ∧
    ∃ back, (restore start.journal.next).on (start.checkpointed.carried commands) = (.ok ⟨⟩, back) ∧
      back.global = start.global ∧
      (∃ fresh, back.layers = fresh ++ start.layers ∧ ∀ l ∈ fresh, l.facts = ∅) ∧
      back.frames = (start.checkpointed.carried commands).frames ∧
      back.journal.active = none := by
  obtain ⟨shadow, covered, shadowed⟩ := (Tracked.checkpointed start).carried commands held
  have restored := shadowed.restored
  rw [covered.journal] at restored
  obtain ⟨fresh, layers, empty⟩ := covered.layers
  exact ⟨checkpoint_of_idle idle, _, restored, covered.global,
    ⟨fresh, layers, fun l mem => (empty l mem).2⟩, shadowed.frames, rfl⟩

/-! ### A shop -/

namespace Shop

/-- A store with some gold and a scope that is open. -/
def start : Layered := (ofFacts (Facts.empty.insert "gold" (.int 5))).pushed "shop"

/-- A scope is opened and closed again, another one is opened, the gold is
    overwritten by a local value that is promoted, and a division by zero fails. -/
def commands : List Command :=
  [ .store (.name "gold") (.fact (.int 7)) (.named .inner),
    .pushScope (.text "till"),
    .sub (.name "gold") (.fact (.int 3)) (.named .inner),
    .combine .div (.name "gold") (.fact (.int 0)) (.named .global),
    .popScope .null,
    .promote (.name "gold"),
    .pushScope (.text "yard"),
    .increment (.name "hens") (.fact (.int 2)) (.named .inner) ]

/-- All of it is taken back, and the scope that is still open has no facts. -/
theorem commands_restored :
    (start.checkpointed.carried commands).global.get? "gold" = some (.int 7) ∧
    ∃ yard back, (restore 0).on (start.checkpointed.carried commands) = (.ok ⟨⟩, back) ∧
      back.global = start.global ∧ back.layers = yard :: start.layers ∧ yard.facts = ∅ ∧
      yard.scope = "yard" ∧ back.journal.active = none := by
  have held : ∀ early, early <+: commands →
      start.layers.length ≤ (start.checkpointed.carried early).layers.length := by
    simp only [← List.mem_inits]
    decide +kernel
  have frames : (start.checkpointed.carried commands).frames
      = [(3, "yard"), (1, "shop"), (0, "base")] := by
    decide +kernel
  obtain ⟨-, back, restored, global, ⟨fresh, layers, empty⟩, kept, inactive⟩ :=
    restore_exact start rfl commands held
  have scopes : fresh.map (fun l => (l.serial, l.scope)) ++ start.frames
      = [(3, "yard")] ++ start.frames := by
    rw [Layered.frames, ← List.map_append, ← layers]
    exact kept.trans frames
  obtain ⟨yard, rfl, opened⟩ := List.map_eq_singleton_iff.mp (List.append_cancel_right scopes)
  refine ⟨rfl, yard, back, restored, global, layers, ?_, congrArg Prod.snd opened, inactive⟩
  exact empty yard (List.mem_singleton_self yard)

end Shop

end Layered

end Cascade
