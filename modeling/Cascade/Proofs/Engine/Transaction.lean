-- SUMMARY: Transactions: what an attempt under a checkpoint leaves of a store, and what a rule leaves whose modifications fail.
import Cascade.Engine.Tick
import Cascade.Proofs.Modification.Writes

/-! # Transactions

An attempt under a checkpoint comes to the same as the attempt on a copy of the
store that is adopted or thrown away (`settled`): the log of the checkpoint is
gone afterwards, and undoing it was exact. Only the faults of evaluation throw
the copy away, though. After any other fault the store is left as the attempt
left it, and so a rule is applied in part. -/

namespace Cascade

open Attempt Layered

/-- What the maps of a store hold: the global one, and each layer. -/
def Layered.contents (db : Layered) : Facts × List Layer := (db.global, db.layers)

namespace Engine

variable {η ω α : Type}

/-! ## Modifications in order -/

/-- Whatever comes of some modifications, they have only written. -/
theorem writing_applyAll {look : Lookup} (blind : look.Blind) (layer : LayerName)
    (ms : List Modification) : Writing (applyAll look layer ms) := by
  induction ms with
  | nil => exact .pure []
  | cons m ms ih =>
    refine (Modification.writing_apply blind m (.named layer)).seq fun changed => ?_
    exact ih.seq fun later => .pure (m.outputs changed ++ later)

/-- The modification that fails ends the others and has itself changed nothing,
    so what is left are the writes of those before it. -/
theorem applyAll_of_fault {look : Lookup} {layer : LayerName} {done : List Modification}
    {m : Modification} (rest : List Modification) {db mid mid' : Layered}
    {outputs : List Document} {f : Fault}
    (before : (applyAll look layer done).on db = (.ok outputs, mid))
    (fails : (m.apply look (.named layer)).on mid = (.error f, mid')) :
    (applyAll look layer (done ++ m :: rest)).on db = (.error f, mid) := by
  have unchanged : mid' = mid := (Modification.cautious_apply m (.named layer)).unchanged fails
  rw [unchanged] at fails
  -- on the modifications that succeeded; the one that fails sees the store they left
  induction done generalizing db outputs with
  | nil =>
    obtain ⟨-, rfl⟩ := of_pure_ok before
    exact bind_of_error fails _
  | cons d ds ih =>
    obtain ⟨changed, db₁, hd, later⟩ := of_bind_ok before
    obtain ⟨outputs', db₂, hds, done⟩ := of_bind_ok later
    obtain ⟨-, rfl⟩ := of_pure_ok done
    have ended := ih hds
    rw [List.cons_append, applyAll, bind_of_ok hd, bind_of_error ended]

/-! ## Checkpoints -/

/-- What a store comes to after an attempt on a copy of it: the copy is thrown
    away if the attempt fails in evaluation, and adopted otherwise. -/
def settled (db : Layered) : Except Fault α × Layered → Except Fault (Except Fault α) × Layered
  | (.ok x, copy) => (.ok (.ok x), copy)
  | (.error f, copy) => if f.isEvaluation then (.ok (.error f), db) else (.error f, copy)

/-- While a checkpoint is open there is no other one. -/
theorem transaction_of_open {a : Attempt Layered α} {db : Layered}
    (h : db.journal.active.isSome) : (transaction a).on db = (.error .checkpointOpen, db) :=
  bind_of_error (checkpoint_of_open h) _

/-- A transaction that writes is the attempt itself on a copy of the store. -/
theorem transaction_on {a : Attempt Layered α} (writing : Writing a) {db : Layered}
    (idle : db.journal.active = none) : (transaction a).on db = settled db (a.on db) := by
  rcases ha : a.on db with ⟨outcome, copy⟩
  -- the attempt runs on the store with an open log, which it does not see
  have alike : Alike db db.checkpointed := ⟨_, rfl⟩
  obtain ⟨same, journal, hj⟩ := writing.blind db db.checkpointed alike
  rcases hc : a.on db.checkpointed with ⟨outcome', copy'⟩
  rw [ha, hc] at same hj
  have same : outcome = outcome' := same
  have hj : copy' = copy.booked copy.births journal := hj
  have recording : Recording db copy' := by
    have steps := writing.takes db.checkpointed
    rw [hc] at steps
    exact (recording_checkpointed db).writes steps
  have kept : copy.journal = db.journal := by
    have steps := writing.takes db
    rw [ha] at steps
    exact journal_of_writes steps idle
  have adopted : copy'.booked copy'.births db.journal = copy := by
    rw [hj, booked_booked, births_booked, ← kept, booked_self]
  rw [transaction, bind_of_ok (checkpoint_of_idle idle)]
  simp only [on_bind, on_get, on_caught, hc, ← same]
  -- the log of the checkpoint ends up forgotten on each of the three ways out
  cases outcome with
  | ok x => exact congrArg (Prod.mk _) ((recording.committed idle).trans adopted)
  | error f =>
    cases hf : f.isEvaluation with
    | false =>
      simp only [settled, hf]
      exact congrArg (Prod.mk _) ((recording.committed idle).trans adopted)
    | true =>
      simp only [settled, hf]
      exact congrArg (Prod.mk _) (recording.abandoned idle)

/-- A transaction that gives a fault as its result has changed nothing. -/
theorem transaction_undone {a : Attempt Layered α} (writing : Writing a) {db db' : Layered}
    {f : Fault} (h : (transaction a).on db = (.ok (.error f), db')) : db' = db := by
  by_cases isOpen : db.journal.active.isSome
  · rw [transaction_of_open isOpen] at h
    cases h
  · rw [transaction_on writing (by simpa using isOpen)] at h
    rcases ha : a.on db with ⟨g | x, copy⟩
    · rw [ha, settled] at h
      split at h
      · cases h
        rfl
      · cases h
    · rw [ha, settled] at h
      cases h

/-- A transaction leaves the store as it was or as the attempt leaves it. -/
theorem transaction_leaves {a : Attempt Layered α} (writing : Writing a) (db : Layered) :
    ((transaction a).on db).2 = db ∨
      db.journal.active = none ∧ ((transaction a).on db).2 = (a.on db).2 := by
  by_cases isOpen : db.journal.active.isSome
  · rw [transaction_of_open isOpen]
    exact .inl rfl
  · have idle : db.journal.active = none := by simpa using isOpen
    rw [transaction_on writing idle]
    rcases a.on db with ⟨f | x, copy⟩
    · by_cases evaluation : f.isEvaluation
      · exact .inl (by simp only [settled, if_pos evaluation])
      · exact .inr ⟨idle, by simp only [settled, if_neg evaluation]⟩
    · exact .inr ⟨idle, rfl⟩

/-- A transaction leaves the journal as it was. -/
theorem journal_transaction {a : Attempt Layered α} (writing : Writing a) (db : Layered) :
    ((transaction a).on db).2.journal = db.journal := by
  obtain same | ⟨idle, left⟩ := transaction_leaves writing db
  · rw [same]
  · rw [left]
    exact journal_of_writes (writing.takes db) idle

/-! ## Rules whose modifications fail -/

/-- The issue that a rule which could not be evaluated raises. -/
def blame (f : Fault) (rule : Rule) (event : Event) : Issue :=
  .ofText (.ofFault f) f.message (some rule.id) (some event.id)

/-- The engine after an issue was sent. -/
def told (i : Issue) (e : Engine η ω) : Engine η ω :=
  { e with sink := (e.sink.report i).1, log := e.log ++ (e.sink.report i).2 }

/-- Raising an issue sends it, and that is all. -/
@[simp]
theorem on_raise (i : Issue) (e : Engine η ω) : (raise i).on e = (.ok (.issue i), e.told i) := rfl

/-- What a rule comes to: it may fail to be evaluated or not hold, and if it
    holds its modifications are one transaction, after which it fires. -/
theorem applyRule_on (host : Host η ω) (event : Event) (rule : Rule) (e : Engine η ω) :
    (applyRule host event rule).on e
      = match rule.condition.check (event.lookup e.store) with
        | .error f =>
          if f.isEvaluation then
            (.ok ⟨.issue (blame f rule event), false⟩, e.told (blame f rule event))
          else (.error f, e)
        | .ok false => (.ok ⟨.empty, false⟩, e)
        | .ok true =>
          match (transaction (applyAll event.lookup e.config.layer rule.modifications)).on
            e.store with
          | (.error f, store) => (.error f, { e with store })
          | (.ok (.error f), store) =>
            (.ok ⟨.issue (blame f rule event), false⟩, told (blame f rule event) { e with store })
          | (.ok (.ok outputs), store) =>
            (do return ⟨← fire host rule event outputs, rule.consumes⟩ : Attempt _ Outcome).on
              { e with store } := by
  rw [applyRule, bind_of_ok (on_get e)]
  cases holds : rule.condition.check (event.lookup e.store) with
  | error f =>
    cases hf : f.isEvaluation with
    | true =>
      simp only [hf, if_true, raiseFault, on_bind, on_raise]
      rfl
    | false => simp only [hf, Bool.false_eq_true, if_false, on_throw]
  | ok truth =>
    cases truth with
    | false => simp only [on_pure]
    | true =>
      simp only [onStore, on_bind, on_zoom]
      rcases (transaction _).on e.store with ⟨f | f | outputs, store⟩
      · rfl
      · simp only [raiseFault, on_bind, on_raise]
        rfl
      · exact on_bind _ _ _

/-- What a rule comes to that holds and one of whose modifications fails. The
    host has no part in it, since the rule does not fire. -/
theorem applyRule_of_fault (host : Host η ω) {event : Event} {rule : Rule} {e : Engine η ω}
    {mid : Layered} {f : Fault}
    (holds : rule.condition.check (event.lookup e.store) = .ok true)
    (fails : (applyAll event.lookup e.config.layer rule.modifications).on e.store
      = (.error f, mid)) :
    (applyRule host event rule).on e
      = if e.store.journal.active.isSome then (.error .checkpointOpen, e)
        else if f.isEvaluation then
          (.ok ⟨.issue (blame f rule event), false⟩, e.told (blame f rule event))
        else (.error f, { e with store := mid }) := by
  rw [applyRule_on, holds]
  by_cases isOpen : e.store.journal.active.isSome
  · simp only [transaction_of_open isOpen, if_pos isOpen]
  · have idle : e.store.journal.active = none := by simpa using isOpen
    simp only [transaction_on (writing_applyAll event.blind_lookup _ _) idle, fails, settled,
      if_neg isOpen]
    by_cases evaluation : f.isEvaluation
    · simp only [if_pos evaluation]
    · simp only [if_neg evaluation]

/-- A rule that holds and one of whose modifications fails is left undone
    exactly if it was refused for an open checkpoint, if the fault is one of
    evaluation, or if the modifications before it wrote nothing new: any other
    fault leaves their writes. Its outputs and actions are not issued either
    way, and no handler has a part in it. -/
theorem applyRule_undone_iff (e : Engine η ω) (event : Event) (rule : Rule)
    {done rest : List Modification} {m : Modification} {mid mid' : Layered}
    {outputs : List Document} {f : Fault}
    (holds : rule.condition.check (event.lookup e.store) = .ok true)
    (parts : rule.modifications = done ++ m :: rest)
    (before : (applyAll event.lookup e.config.layer done).on e.store = (.ok outputs, mid))
    (fails : (m.apply event.lookup (.named e.config.layer)).on mid = (.error f, mid')) :
    ∃ outcome after,
      (∀ host : Host η ω, (applyRule host event rule).on e = (outcome, after)) ∧
      after = { e with store := after.store, sink := after.sink, log := after.log } ∧
      (∀ result, outcome = .ok result →
        result.report = .issue (blame f rule event) ∧ result.consumed = false) ∧
      (after.store.contents = e.store.contents ↔
        e.store.journal.active.isSome ∨ f.isEvaluation ∨ mid.contents = e.store.contents) := by
  have ended := applyAll_of_fault rest before fails
  rw [← parts] at ended
  have applied (host : Host η ω) := applyRule_of_fault host holds ended
  by_cases isOpen : e.store.journal.active.isSome
  · refine ⟨.error .checkpointOpen, e, fun host => ?_, rfl, nofun, ?_⟩
    · rw [applied host, if_pos isOpen]
    · simp [isOpen]
  · by_cases evaluation : f.isEvaluation
    · let i := blame f rule event
      refine ⟨.ok ⟨.issue i, false⟩, e.told i, fun host => ?_, rfl, ?_, ?_⟩
      · rw [applied host, if_neg isOpen, if_pos evaluation]
      · rintro result h
        cases h
        exact ⟨rfl, rfl⟩
      · simp [told, evaluation]
    · refine ⟨.error f, { e with store := mid }, fun host => ?_, rfl, nofun, ?_⟩
      · rw [applied host, if_neg isOpen, if_neg evaluation]
      · simp [isOpen, evaluation]

namespace Overdraft

/-- A debt that is too large for a float. -/
def debt : Int := .ofNat (Nat.pow 10 200 * Nat.pow 10 200)

def store : Layered := .ofFacts (.ofList [("gold", .int 5), ("debt", .int debt)])

def engine : Engine Unit Unit := { ofConfig .default (.collecting []) () with store }

def settle : Event := ⟨"settle", ∅, "settle", none⟩

def spend : Modification := ⟨.name "gold", none, .set (.constant (.int 0))⟩

/-- Halves the debt, by a float. -/
def halve : Modification := ⟨.name "debt", none, .combine .mul (.constant (.float 0.5))⟩

def pay : Rule :=
  ⟨"pay", "settle", .always, [spend, halve], ["cheer"], ["settled"], .bool false, .int 0,
    .bool true⟩

def spent : Layered := store.write (.layer 0) (.name "gold") (some (.int 0))

theorem spend_on : (applyAll settle.lookup .inner [spend]).on store = (.ok [], spent) := rfl

/-- The debt cannot be rounded to a float. -/
theorem halve_debt : Fact.arithmetic .mul (.int debt) (.float 0.5) = .error .tooLarge := by
  have large : floatOfInt? debt = none := by decide +kernel
  have refused : (Fact.int debt).toFloat = .error .tooLarge := by
    simp only [Fact.toFloat, large]
  change Fact.floatArithmetic _ _ _ = _
  rw [Fact.floatArithmetic, refused]
  rfl

theorem halve_on : (halve.apply settle.lookup (.named .inner)).on spent
    = (.error .tooLarge, spent) := by
  have found : (Modification.current (.name "debt")).on spent
      = (.ok (some (.int debt)), spent) := rfl
  simp only [halve, Modification.apply, bind_of_ok found]
  simp only [ValueSpec.resolve, ValueSpec.value, on_bind, on_reading, Compound.arithmetic,
    Modification.overwrite, halve_debt, on_ofExcept]
  rfl

theorem spent_contents : spent.contents ≠ store.contents := by
  intro h
  have gold : spent.inner.facts.get? "gold" = store.inner.facts.get? "gold" :=
    congrArg (fun c => (c.2.head?.map (·.facts.get? "gold")).join) h
  exact absurd gold (by decide +kernel)

theorem pay_on : (applyAll settle.lookup .inner [spend, halve]).on store
    = (.error .tooLarge, spent) := by
  have ended := applyAll_of_fault [] spend_on halve_on
  rw [List.singleton_append] at ended
  exact ended

/-- The gold is gone, although the rule has failed. -/
theorem pay_half_applied :
    pay.condition.check (settle.lookup engine.store) = .ok true ∧
      (∀ host : Host Unit Unit, (applyRule host settle pay).on engine
        = (.error .tooLarge, { engine with store := spent })) ∧
      spent.contents ≠ engine.store.contents := by
  refine ⟨rfl, fun host => ?_, spent_contents⟩
  have closed : ¬engine.store.journal.active.isSome := nofun
  have holds : pay.condition.check (settle.lookup engine.store) = .ok true := rfl
  have applied := applyRule_of_fault (e := engine) host holds pay_on
  rw [if_neg closed, if_neg nofun] at applied
  exact applied

/-- The rule is one that is not undone. -/
theorem pay_undone_iff :
    ∃ outcome after,
      (∀ host : Host Unit Unit, (applyRule host settle pay).on engine = (outcome, after)) ∧
      after = { engine with store := after.store, sink := after.sink, log := after.log } ∧
      (∀ result, outcome = .ok result →
        result.report = .issue (blame .tooLarge pay settle) ∧ result.consumed = false) ∧
      (after.store.contents = engine.store.contents ↔
        engine.store.journal.active.isSome ∨ Fault.tooLarge.isEvaluation
          ∨ spent.contents = engine.store.contents) :=
  applyRule_undone_iff engine settle pay rfl rfl spend_on halve_on

end Overdraft

end Engine

end Cascade
