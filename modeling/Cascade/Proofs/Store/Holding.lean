-- SUMMARY: What a store holds: a property that facts have when they are written is one of all facts that a store and its logs ever hold.
import Cascade.Proofs.Store.Agreement
import Cascade.Store.Session

/-! # What a store holds

Facts get into the maps of a store by being written there, and back into a map
out of a log that found them in it. So if facts are fit for a map and a name
whenever they are written there, they are so in every store that a host can come
to, and in the logs that it kept. What is written has a name and is born, which
is the least that can be said of all facts. -/

namespace Cascade

open Attempt

/-! ## Entries of logs -/

namespace Journal

variable {ι : Type} {j : Journal ι} {e e' : Entry ι} {n m : Nat}

/-- An entry goes into the active log, if at all. -/
theorem entries_record : (j.record e).entries n = j.entries n ∨
    j.active = some n ∧ (j.record e).entries n = e :: j.entries n := by
  unfold record
  split
  · rename_i m isActive
    simp only [entries, List.getElem?_modify]
    cases j.logs[n]? with
    | none => exact .inl rfl
    | some log =>
      by_cases same : m = n
      · exact .inr ⟨same ▸ isActive, by simp [same]⟩
      · exact .inl (by simp [same])
  · exact .inl rfl

/-- A log has no more entries for one that is recorded, but for that one. -/
theorem mem_entries_record (h : e ∈ (j.record e').entries n) : e = e' ∨ e ∈ j.entries n := by
  obtain same | ⟨-, more⟩ := entries_record (j := j) (e := e') (n := n)
  · exact .inr (same ▸ h)
  · exact List.mem_cons.mp (more ▸ h)

theorem entries_record_of_ne (h : j.active ≠ some n) : (j.record e).entries n = j.entries n :=
  entries_record.resolve_right fun active => h active.1

/-- Emptying a log leaves the others as they are. -/
theorem entries_clear : (j.clear m).entries n = if m = n then [] else j.entries n := by
  simp only [entries, clear, List.getElem?_modify]
  split
  · cases j.logs[n]? <;> rfl
  · simp

/-- A log that is opened is empty, and the others stay. -/
theorem entries_extend : j.extend.entries n = j.entries n := by
  simp only [entries, extend, List.getElem?_append]
  split
  · rfl
  · rename_i h
    rw [List.getElem?_eq_none (Nat.le_of_not_lt h)]
    cases n - j.logs.length <;> rfl

@[simp]
theorem next_record : (j.record e).next = j.next := by
  unfold record
  split
  · exact List.length_modify ..
  · rfl

@[simp]
theorem next_clear : (j.clear m).next = j.next := List.length_modify ..

end Journal

namespace Births

/-- What is stored under a name is born. -/
theorem settle_ne_unborn (births : Births) (name : String) (content : Option Fact) :
    births.settle (.name name) content ≠ some (.indeterminate .none) := by
  unfold settle
  split
  · exact fun h => by cases h
  · rename_i other
    exact fun h => other name rfl h

/-- Nothing comes to be stored where nothing was to be. -/
theorem isSome_of_settle {births : Births} {key : Key} {content : Option Fact} {f : Fact}
    (h : births.settle key content = some f) : content.isSome := by
  cases content with
  | none => cases key <;> cases h
  | some g => rfl

end Births

/-! ## Stores -/

namespace Layered

variable {allowed : Slot → String → Fact → Prop} {db db' rest : Layered}

/-- Every fact of a store, and every fact that one of its logs would put back, is
    allowed in its map under its name. -/
structure Holds (allowed : Slot → String → Fact → Prop) (db : Layered) : Prop where
  facts : ∀ {slot name f}, (db.factsAt slot).get? name = some f → allowed slot name f
  logs : ∀ {n e name f}, e ∈ db.journal.entries n → e.key = .name name → e.previous = some f →
    allowed e.place name f

/-- Whatever has a name and is born is allowed everywhere. -/
def Lenient (allowed : Slot → String → Fact → Prop) : Prop :=
  ∀ slot name f, name ≠ "" → f ≠ .indeterminate none → allowed slot name f

/-- What a map has after a key of some map was assigned. -/
theorem of_get?_assigned {slot other : Slot} {key : Key} {content : Option Fact} {name : String}
    {f : Fact} (h : ((db.modifyAt slot (·.assign key content)).factsAt other).get? name = some f) :
    (slot = other ∧ key = .name name ∧ content = some f) ∨
      (db.factsAt other).get? name = some f := by
  change (Layered.factsAt _ other).at? (.name name) = some f at h
  change _ ∨ (db.factsAt other).at? (.name name) = some f
  rw [at?_factsAt, cell?] at h ⊢
  rw [mapAt?_modifyAt] at h
  split at h
  · rename_i same
    cases there : db.mapAt? other with
    | none =>
      rw [there] at h
      cases h
    | some m =>
      rw [there] at h
      cases key with
      | other d => exact .inr h
      | name s =>
        have h : (m.assign (.name s) content).get? name = some f := h
        rw [Facts.get?_assign] at h
        split at h
        · rename_i here
          exact .inl ⟨same, congrArg Key.name here, h⟩
        · exact .inr h
  · exact .inr h

namespace Holds

theorem ofFacts {facts : Facts}
    (h : ∀ {name f}, facts.get? name = some f → allowed .global name f) :
    (ofFacts facts).Holds allowed where
  facts := by
    intro slot name f held
    cases slot with
    | global => exact h held
    | layer n =>
      have empty : (Layered.ofFacts facts).factsAt (.layer n) = ∅ := by
        simp only [factsAt, layers, Layered.ofFacts, List.find?_cons]
        split <;> rfl
      rw [empty, Facts.get?_empty] at held
      cases held
  logs := nofun

/-- Of the journal, only the entries of its logs matter. -/
theorem booked (h : db.Holds allowed) (births : Births) {journal : Journal Slot}
    (logs : ∀ {n e name f}, e ∈ journal.entries n → e.key = .name name → e.previous = some f →
      allowed e.place name f) :
    (db.booked births journal).Holds allowed :=
  ⟨fun held => h.facts (factsAt_booked .. ▸ held), logs⟩

theorem assigned (h : db.Holds allowed) {slot : Slot} {key : Key} {content : Option Fact}
    (fits : ∀ {name f}, key = .name name → content = some f → allowed slot name f) :
    (db.modifyAt slot (·.assign key content)).Holds allowed where
  facts := by
    intro other name f held
    obtain ⟨rfl, named, given⟩ | held := of_get?_assigned held
    · exact fits named given
    · exact h.facts held
  logs := by
    rw [journal_modifyAt]
    exact h.logs

/-! ### Steps -/

theorem stored (lenient : Lenient allowed) (h : db.Holds allowed) (step : Stored db db') :
    db'.Holds allowed := by
  obtain ⟨slot, key, content, named, rfl⟩ := step
  have assigned : (db.modifyAt slot (·.assign key (db.births.settle key content))).Holds
      allowed := by
    refine h.assigned fun {name f} given settled => ?_
    subst given
    refine lenient slot name f (fun empty => ?_) fun unborn => ?_
    · exact named (Births.isSome_of_settle settled) (congrArg Key.name empty)
    · exact db.births.settle_ne_unborn name content (settled.trans (congrArg some unborn))
  rw [write_eq]
  refine assigned.booked _ fun {n e name f} mem named found => ?_
  obtain rfl | mem := Journal.mem_entries_record mem
  · have named : key = .name name := named
    subst named
    exact h.facts found
  · exact h.logs mem named found

theorem foldl_undo {entries : List (Entry Slot)} (h : db.Holds allowed)
    (logs : ∀ e ∈ entries, ∀ {name f}, e.key = .name name → e.previous = some f →
      allowed e.place name f) :
    (entries.foldl undo db).Holds allowed := by
  induction entries generalizing db with
  | nil => exact h
  | cons e es ih =>
    obtain ⟨first, others⟩ := List.forall_mem_cons.mp logs
    exact ih (h.assigned first) others

theorem pushed (h : db.Holds allowed) (name : String) : (db.pushed name).Holds allowed where
  facts := by
    intro slot name f held
    cases slot with
    | global => exact h.facts held
    | layer n =>
      simp only [Layered.factsAt, layers, Layered.pushed, List.find?_cons] at held
      split at held
      · have held : (∅ : Facts).get? name = some f := held
        rw [Facts.get?_empty] at held
        cases held
      · exact h.facts held
  logs := h.logs

theorem popped (h : db.Holds allowed) (hp : db.popped? = some rest) : rest.Holds allowed := by
  obtain ⟨outer, global, -, -, journal⟩ := of_popped? hp
  refine ⟨fun {slot name f} held => ?_, fun mem => h.logs (journal ▸ mem)⟩
  cases slot with
  | global =>
    have held : (db.factsAt .global).get? name = some f := by
      change db.global.get? name = some f
      rw [← global]
      exact held
    exact h.facts held
  | layer n =>
    simp only [Layered.factsAt] at held
    cases found : rest.layers.find? (·.serial = n) with
    | none =>
      rw [found, Option.map_none, Option.getD_none, Facts.get?_empty] at held
      cases held
    | some l =>
      rw [found] at held
      have mem : l ∈ db.layers := by
        refine List.mem_cons_of_mem _ ?_
        rw [outer]
        exact List.mem_of_find?_eq_some found
      have serial : l.serial = n := by simpa using List.find?_some found
      have held : (db.factsAt (.layer n)).get? name = some f := by
        rw [← serial, factsAt_of_mem mem]
        exact held
      exact h.facts held

theorem moved (lenient : Lenient allowed) (h : db.Holds allowed) (step : Moved db db') :
    db'.Holds allowed := by
  cases step with
  | writes steps =>
    induction steps with
    | refl => exact h
    | tail _ step ih => exact ih.stored lenient step
  | pushed name => exact h.pushed name
  | popped hp => exact h.popped hp

theorem checkpointed (h : db.Holds allowed) : db.checkpointed.Holds allowed :=
  h.booked db.births fun {n} _ _ _ mem => h.logs (Journal.entries_extend (n := n) ▸ mem)

theorem closed (h : db.Holds allowed) (n : Nat) : (db.closed n).Holds allowed := by
  unfold Layered.closed
  split
  · exact h.booked db.births h.logs
  · exact h

theorem rolledBack (h : db.Holds allowed) (n : Nat) : (db.rolledBack n).Holds allowed := by
  have undone : ((db.journal.entries n).foldl undo db).Holds allowed :=
    h.foldl_undo fun e mem _ _ named found => h.logs mem named found
  refine undone.booked _ fun {m} _ _ _ mem => ?_
  rw [Journal.entries_clear] at mem
  split at mem
  · cases mem
  · exact undone.logs mem

end Holds

/-! ## Sessions -/

namespace Session

/-- What a step of a session does to its store: it does what a command does, opens a
    checkpoint if none is open, or ends or restores one that the host has named. -/
inductive Acted (s : Session) : Step → Layered → Prop
  | moved {step : Step} {db : Layered} (moved : Moved s.store db) : Acted s step db
  | opened (name : String) (idle : s.store.journal.active = none) :
      Acted s (.checkpoint name) s.store.checkpointed
  | closed {name : String} {n : Nat} (named : s.logs.get name = .ok n) :
      Acted s (.commit name) (s.store.closed n)
  | restored {name : String} {n : Nat} (named : s.logs.get name = .ok n) :
      Acted s (.restore name) ((s.store.closed n).rolledBack n)

theorem Acted.none (s : Session) (step : Step) : Acted s step s.store := .moved (.writes .refl)

theorem acted (step : Step) (s : Session) : Acted s step (step.run.on s).2.store := by
  -- a log that has not been named is asked for in vain
  have asks (name : String) {next : Nat → Attempt Session Document}
      (acts : ∀ n, s.logs.get name = .ok n → Acted s step ((next n).on s).2.store) :
      Acted s step ((Attempt.reading (·.logs.get name) >>= next).on s).2.store := by
    have asked : (Attempt.reading (·.logs.get name)).on s = (s.logs.get name, s) := rfl
    cases named : s.logs.get name with
    | error f =>
      rw [named] at asked
      rw [bind_of_error asked]
      exact .none s step
    | ok n =>
      rw [named] at asked
      rw [bind_of_ok asked]
      exact acts n named
  cases step with
  | call c =>
    simp only [Step.run]
    cases Operation.resolve Command.table c with
    | error f => exact .none s _
    | ok command => exact .moved (command.moved s.store)
  | checkpoint name =>
    simp only [Step.run]
    cases idle : s.store.journal.active with
    | none =>
      have opens : (onStore Layered.checkpoint).on s
          = (.ok s.store.journal.next, { s with store := s.store.checkpointed }) := by
        rw [onStore, on_zoom, checkpoint_of_idle idle]
      rw [bind_of_ok opens]
      exact .opened name idle
    | some n =>
      have refused : (onStore Layered.checkpoint).on s = (.error .checkpointOpen, s) := by
        rw [onStore, on_zoom, checkpoint_of_open (by rw [idle]; rfl)]
      rw [bind_of_error refused]
      exact .none s _
  | commit name => exact asks name fun n named => .closed named
  | restore name => exact asks name fun n named => .restored named
  | logSize name => exact asks name fun n _ => .none s _
  | layer name =>
    simp only [Step.run]
    rw [left_then_pure]
    exact .none s _
  | items => exact .none s _
  | contains key => exact .none s _
  | scopes => exact .none s _
  | currentScope => exact .none s _

/-- What commands maintain of a store, and opening, closing and replaying logs, every
    step of a session does. -/
theorem maintains_step {P : Layered → Prop} (moved : ∀ {db db'}, Moved db db' → P db → P db')
    (checkpointed : ∀ {db}, P db → P db.checkpointed)
    (closed : ∀ {db} n, P db → P (db.closed n))
    (rolledBack : ∀ {db} n, P db → P (db.rolledBack n)) (step : Step) :
    Maintains (fun s => P s.store) step.run := by
  refine .of_holds fun s h => ?_
  have acted := acted step s
  generalize (step.run.on s).2.store = db at acted
  cases acted with
  | moved step => exact moved step h
  | opened name idle => exact checkpointed h
  | closed named => exact closed _ h
  | restored named => exact rolledBack _ (closed _ h)

/-- A store goes on holding what is allowed, whatever a host does. -/
theorem holds_step (lenient : Lenient allowed) (step : Step) :
    Maintains (fun s => s.store.Holds allowed) step.run :=
  maintains_step (fun moved h => h.moved lenient moved) (·.checkpointed)
    (fun n h => h.closed n) (fun n h => h.rolledBack n) step

end Session

end Layered

end Cascade
