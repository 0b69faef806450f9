-- SUMMARY: Committed checkpoints: what their logs still do to a store when they are restored later, and to another checkpoint that is open then.
import Cascade.Proofs.Store.Failing
import Cascade.Proofs.Store.Replaying

/-! # Checkpoints that were committed

A commit ends the recording into a log, for good, and leaves the log as it is. So the
log can still be replayed, once, and brings back what the names that it recorded held
when they were written first, whatever was done since. Such a replay is not recorded
either: a checkpoint that is open meanwhile takes back what it recorded itself, so it
still leads back to the facts at its opening as long as replays change nothing but
what it has recorded already. -/

namespace Cascade

open Attempt

/-! ## Logs that are closed -/

namespace Journal

variable {j : Journal Slot} {n : Nat} {recorded : List (Entry Slot)}

/-- The log that takes the writes, if there is one, is one of the logs. -/
def Filed (j : Journal Slot) : Prop := ∀ n, j.active = some n → n < j.next

/-- Nothing will be recorded in a log any more. -/
structure Ended (n : Nat) (j : Journal Slot) : Prop where
  behind : n < j.next
  inactive : j.active ≠ some n

/-- A log holds what it did when nothing more was recorded in it, unless it was emptied. -/
structure Frozen (n : Nat) (recorded : List (Entry Slot)) (j : Journal Slot) : Prop
    extends Ended n j where
  entries : j.entries n = recorded ∨ j.entries n = []

/-- What holds of a journal whatever is recorded in it, and when logs are opened, closed
    and emptied. -/
structure Lasting (P : Journal Slot → Prop) : Prop where
  record : ∀ {j} e, P j → P (j.record e)
  opened : ∀ {j}, P j → P (j.extend.activate (some j.next))
  closed : ∀ {j}, P j → P (j.activate none)
  clear : ∀ {j} n, P j → P (j.clear n)

theorem next_extend : j.extend.next = j.next + 1 := by simp [next, extend]

theorem lasting_filed : Lasting Filed where
  record e h n active := by
    rw [next_record]
    exact h n (active_record e ▸ active)
  opened {j} h n active := by
    cases active
    exact Nat.lt_of_lt_of_eq (Nat.lt_succ_self _) next_extend.symm
  closed h n active := by cases active
  clear m h n active := by
    rw [next_clear]
    exact h n active

theorem lasting_ended : Lasting (Ended n) where
  record e h := ⟨by rw [next_record]; exact h.behind, by rw [active_record]; exact h.inactive⟩
  opened {j} h := by
    refine ⟨Nat.lt_of_lt_of_eq (Nat.lt_succ_of_lt h.behind) next_extend.symm, fun same => ?_⟩
    -- the log that is opened is a new one
    cases same
    exact absurd h.behind (Nat.lt_irrefl _)
  closed h := ⟨h.behind, fun active => by cases active⟩
  clear m h := ⟨by rw [next_clear]; exact h.behind, h.inactive⟩

theorem lasting_frozen : Lasting (Frozen n recorded) where
  record e h := by
    refine ⟨lasting_ended.record e h.toEnded, ?_⟩
    rw [entries_record_of_ne h.inactive]
    exact h.entries
  opened h := ⟨lasting_ended.opened h.toEnded, h.entries.imp entries_extend.trans entries_extend.trans⟩
  closed h := ⟨lasting_ended.closed h.toEnded, h.entries⟩
  clear m h := by
    refine ⟨lasting_ended.clear m h.toEnded, ?_⟩
    rw [entries_clear]
    split
    · exact .inr rfl
    · exact h.entries

end Journal

namespace Layered

variable {P : Journal Slot → Prop} {db db' : Layered} {n : Nat}

theorem Moved.lasting (moved : Moved db db') (lasts : Journal.Lasting P) (h : P db.journal) :
    P db'.journal := by
  cases moved with
  | writes steps =>
    induction steps with
    | refl => exact h
    | tail _ step ih =>
      obtain ⟨slot, key, content, -, rfl⟩ := step
      rw [journal_write]
      exact lasts.record _ ih
  | pushed name => exact h
  | popped hp =>
    obtain ⟨-, -, -, -, journal⟩ := of_popped? hp
    rw [journal]
    exact h

theorem lasting_closed (lasts : Journal.Lasting P) (n : Nat) (h : P db.journal) :
    P (db.closed n).journal := by
  unfold closed
  split
  · exact lasts.closed h
  · exact h

/-- A log that is closed is closed for good. -/
theorem ended_closed (isOpen : db.journal.active = some n) (behind : n < db.journal.next) :
    (db.closed n).journal.Ended n := by
  rw [closed, if_pos isOpen]
  exact ⟨behind, fun active => by cases active⟩

/-- What lasts goes on holding of the journal, whatever a host does. -/
theorem Session.lasting_step (lasts : Journal.Lasting P) (step : Session.Step) :
    Maintains (fun s : Session => P s.store.journal) step.run := by
  have replayed {db : Layered} (n : Nat) (h : P db.journal) : P (db.rolledBack n).journal := by
    rw [rolledBack_eq, journal_booked]
    exact lasts.clear n h
  exact maintains_step (fun moved h => moved.lasting lasts h) lasts.opened
    (lasting_closed lasts) replayed step

/-! ## Another checkpoint -/

/-- The log of a checkpoint is the last one, and it takes the writes. -/
theorem Tracked.isOpen {kept : List Layer} {start : Layered} (h : Tracked kept start db) :
    db.journal.active = some start.journal.next ∧ start.journal.next < db.journal.next := by
  obtain ⟨shadow, covered, shadowed⟩ := h
  obtain ⟨entries, logs, -⟩ := shadowed.undone
  rw [← covered.journal]
  refine ⟨shadowed.isOpen, ?_⟩
  simp [Journal.next, logs]

/-- Changing another one than the last of some logs leaves the last one. -/
theorem modify_concat {α : Type} {xs : List α} {m : Nat} (h : m ≠ xs.length) (f : α → α) (x : α) :
    (xs ++ [x]).modify m f = xs.modify m f ++ [x] := by
  induction xs generalizing m with
  | nil =>
    cases m with
    | zero => exact absurd rfl h
    | succ k => simp
  | cons y ys ih =>
    cases m with
    | zero => rfl
    | succ k => simp [ih fun same => h (congrArg Nat.succ same)]

/-- A log that was emptied is no part of what a store was. -/
theorem Tracked.restored {kept : List Layer} {start : Layered} {m : Nat}
    (h : Tracked kept start db) (other : m ≠ start.journal.next)
    (spares : db.Spares m start.journal.next) :
    Tracked kept (start.booked start.births (start.journal.clear m))
      ((db.closed m).rolledBack m) := by
  obtain ⟨shadow, covered, shadowed⟩ := h
  have next : shadow.journal.next = start.journal.next := congrArg Journal.next covered.journal
  obtain ⟨entries, logs, undone⟩ := shadowed.undone
  have found : db.journal.entries shadow.journal.next = entries := entries_last logs
  have stays : db.closed m = db := closed_of_inactive fun isActive => by
    rw [shadowed.isOpen, next] at isActive
    exact other (Option.some.inj isActive).symm
  have kept : (db.journal.clear m).entries shadow.journal.next = entries := by
    rw [Journal.entries_clear, if_neg (next ▸ other), found]
  rw [stays, rolledBack_eq]
  refine ⟨shadow.booked shadow.births (shadow.journal.clear m), ?_, ⟨?_, entries, ?_, ?_⟩, ?_⟩
  · exact ⟨covered.global, congrArg (Journal.clear m) covered.journal, covered.serials,
      covered.layers⟩
  · rw [journal_booked, journal_booked, Journal.next_clear]
    exact shadowed.isOpen
  · rw [journal_booked, journal_booked]
    simp only [Journal.clear, logs]
    exact modify_concat (fun same => other (same.trans next)) _ _
  · rw [foldl_undo_booked, ← found, next, foldl_undo_spared spares, ← next, found, undone]
    rfl
  · rw [journal_booked, journal_booked, Journal.next_clear, kept]
    intro e mem k above
    rw [← found] at mem
    exact shadowed.ahead e mem k (serials_foldl_undo (db.journal.entries m) db ▸ above)

/-- A store since a checkpoint was opened, or after it ended: while it is open, its log
    leads back to its opening, but for layers that were dropped. -/
inductive Followed (start db : Layered) : Prop
  | tracked {kept : List Layer} {journal : Journal Slot} (fewer : kept <:+ start.layers)
      (next : journal.next = start.journal.next)
      (tracked : Tracked kept (start.booked start.births journal) db) : Followed start db
  | ended (ended : db.journal.Ended start.journal.next) : Followed start db

namespace Session

/-- Whenever steps restore another checkpoint, its log spares the log of a given one. -/
def Careful (d : Nat) (s : Session) (steps : List Step) : Prop :=
  ∀ early name m, early ++ [.restore name] <+: steps → (s.carried early).logs.get name = .ok m →
    m ≠ d → (s.carried early).store.Spares m d

theorem followed_step {start : Layered} {s : Session} {step : Step}
    (h : Followed start s.store)
    (spares : ∀ name m, step = .restore name → s.logs.get name = .ok m → m ≠ start.journal.next →
      s.store.Spares m start.journal.next) :
    Followed start (step.run.on s).2.store := by
  cases h with
  | ended ended => exact .ended ((lasting_step Journal.lasting_ended step).holds ended)
  | @tracked kept journal fewer next tracked =>
    obtain ⟨isOpen, behind⟩ := tracked.isOpen
    rw [journal_booked, next] at isOpen behind
    have acted := acted step s
    generalize (step.run.on s).2.store = db at acted
    cases acted with
    | moved moved =>
      obtain ⟨kept', fewer', -, tracked⟩ := tracked.moved moved
      exact .tracked (fewer'.trans fewer) next tracked
    | opened name idle => cases isOpen.symm.trans idle
    | @closed name m named =>
      by_cases same : m = start.journal.next
      · rw [same]
        exact .ended (ended_closed isOpen behind)
      · rw [closed_of_inactive fun active => same (Option.some.inj (active.symm.trans isOpen))]
        exact .tracked fewer next tracked
    | @restored name m named =>
      by_cases same : m = start.journal.next
      · refine .ended ?_
        rw [same, rolledBack_eq, journal_booked]
        exact Journal.lasting_ended.clear _ (ended_closed isOpen behind)
      · have spares := spares name m rfl named same
        rw [← next] at same spares
        have tracked := tracked.restored same spares
        rw [booked_booked] at tracked
        exact .tracked fewer (Journal.next_clear.trans next) tracked

theorem followed_carried {start : Layered} (steps : List Step) {s : Session}
    (h : Followed start s.store) (careful : s.Careful start.journal.next steps) :
    Followed start (s.carried steps).store := by
  induction steps generalizing s with
  | nil => exact h
  | cons step rest ih =>
    have first : Followed start (step.run.on s).2.store := by
      refine followed_step h fun name m restores named other => ?_
      subst restores
      exact careful [] name m (List.prefix_append [Step.restore name] rest) named other
    refine ih first fun early name m here => ?_
    exact careful (step :: early) name m (List.cons_prefix_cons.mpr ⟨rfl, here⟩)

end Session

/-! ## Restoring what was committed -/

/-- What restoring a checkpoint leads to that ended before: every name is left with what
    the log recorded of it first. -/
structure Replayed (n : Nat) (db back : Layered) : Prop where
  restored : (restore n).on db = (.ok ⟨⟩, back)
  frames : back.frames = db.frames
  cells : ∀ slot name, back.cell? slot (.name name)
    = (db.cell? slot (.name name)).map fun held => (db.journal.before? n slot name).getD held
  /-- Facts change unless they are what the log would put back. -/
  unaltered_iff : (∀ slot, back.mapAt? slot = db.mapAt? slot) ↔ db.Settled n
  /-- What another checkpoint leads back to changes unless its log is spared. -/
  other_iff : ∀ d, db.journal.active = some d → back.journal.active = some d ∧
    ((∀ slot, ((restore d).on back).2.mapAt? slot = ((restore d).on db).2.mapAt? slot) ↔
      db.Spares n d)

/-- What restoring a checkpoint leads to that is still open: the facts at its opening, in
    the global map and in each layer that was there, while those opened since are empty. -/
structure LedBack (start db back : Layered) : Prop where
  restored : (restore start.journal.next).on db = (.ok ⟨⟩, back)
  frames : back.frames = db.frames
  global : back.global = start.global
  layers : ∀ l ∈ back.layers, l ∈ start.layers ∨ start.serials ≤ l.serial ∧ l.facts = ∅

theorem replayed_of_ended (ended : db.journal.Ended n) :
    Replayed n db ((db.closed n).rolledBack n) where
  restored := rfl
  frames := by
    rw [closed_of_inactive ended.inactive, rolledBack_eq]
    exact frames_foldl_undo _ db
  cells _ _ := cell?_restored db n
  unaltered_iff := restored_unaltered_iff
  other_iff d isOpen := by
    have other : n ≠ d := fun same => ended.inactive (same ▸ isOpen)
    refine ⟨?_, restored_restored_iff other⟩
    rw [closed_of_inactive ended.inactive, rolledBack_eq]
    exact isOpen

namespace Session

/-- A checkpoint that is still open leads back to its opening, if the logs of other
    checkpoints that were restored since spared its log. -/
theorem opening_restored {s : Session} (idle : s.store.journal.active = none) {name : String}
    {steps : List Step}
    (isOpen : (s.carried (.checkpoint name :: steps)).store.journal.active
      = some s.store.journal.next)
    (careful : (s.carried [.checkpoint name]).Careful s.store.journal.next steps) :
    ∃ back, LedBack s.store (s.carried (.checkpoint name :: steps)).store back := by
  have opened : (s.carried [.checkpoint name]).store = s.store.checkpointed := by
    change ((Step.checkpoint name).run.on s).2.store = _
    simp only [Step.run, onStore, on_bind, on_zoom, checkpoint_of_idle idle]
    rfl
  have first : Followed s.store (s.carried [.checkpoint name]).store := by
    rw [opened]
    exact .tracked (List.suffix_refl _) rfl (Tracked.checkpointed s.store)
  have followed : Followed s.store (s.carried (.checkpoint name :: steps)).store :=
    followed_carried steps first careful
  generalize (s.carried (.checkpoint name :: steps)).store = now at isOpen followed
  cases followed with
  | ended ended => exact absurd isOpen ended.inactive
  | tracked fewer next tracked =>
    obtain ⟨shadow, covered, shadowed⟩ := tracked
    obtain ⟨fresh, layers, empty⟩ := covered.layers
    have restored := shadowed.restored
    rw [covered.journal, journal_booked, next] at restored
    refine ⟨_, restored, shadowed.frames, covered.global, fun l mem => ?_⟩
    obtain opened | kept := List.mem_append.mp (layers ▸ mem)
    · exact .inr (empty l opened)
    · exact .inl (fewer.subset kept)

/-- After a checkpoint was committed, whatever is done to the store, committing it again
    changes nothing, and restoring it replays its log as it was at the commit, or not at
    all if that was done before. Another checkpoint that is opened since still leads back
    to its opening if only logs were restored that spared its own. -/
theorem committed_replayed (facts : Facts) (before : List Step) {cp : Nat}
    (isOpen : ((ofFacts facts).carried before).store.journal.active = some cp)
    (after : List Step) :
    let start := (ofFacts facts).carried before
    let done : Session := { start with store := start.store.closed cp }
    let now := (done.carried after).store
    (commit cp).on start.store = (.ok ⟨⟩, done.store) ∧
    (commit cp).on now = (.ok ⟨⟩, now) ∧
    (now.journal.entries cp = start.store.journal.entries cp ∨ now.journal.entries cp = []) ∧
    (∃ back, Replayed cp now back) ∧
    ∀ early name late, after = early ++ .checkpoint name :: late →
      let mid := done.carried early
      mid.store.journal.active = none → now.journal.active = some mid.store.journal.next →
      (mid.carried [.checkpoint name]).Careful mid.store.journal.next late →
      ∃ back, LedBack mid.store now back := by
  intro start done now
  have filed : start.store.journal.Filed :=
    holds_carried (lasting_step Journal.lasting_filed) before nofun
  have ended : done.store.journal.Ended cp := ended_closed isOpen (filed cp isOpen)
  have frozen : now.journal.Frozen cp (start.store.journal.entries cp) :=
    holds_carried (lasting_step Journal.lasting_frozen) after
      ⟨ended, .inl (entries_closed start.store)⟩
  refine ⟨rfl, ?_, frozen.entries, ⟨_, replayed_of_ended frozen.toEnded⟩, ?_⟩
  · exact Prod.ext rfl (closed_of_inactive frozen.inactive)
  · intro early name late steps mid idle isOpen careful
    have reached : now = (mid.carried (.checkpoint name :: late)).store := by
      change (done.carried after).store = _
      rw [steps]
      exact congrArg Session.store List.foldl_append
    rw [reached] at isOpen ⊢
    exact opening_restored idle isOpen careful

/-! ### A mill -/

namespace Mill

def stock : Facts := Facts.empty.insert "flour" (.int 5)

/-- The flour of a delivery is counted, under a checkpoint. -/
def before : List Step :=
  [.checkpoint "delivery", .call ⟨"set_global", [.str "flour", .int 7], []⟩]

/-- Some is sold, under another one, and the first one is restored by mistake. -/
def after : List Step :=
  [ .checkpoint "sale", .call ⟨"set_global", [.str "flour", .int 6], []⟩, .restore "delivery" ]

/-- The mill when the delivery was committed. -/
def delivered : Session := (ofFacts stock).carried (before ++ [.commit "delivery"])

/-- The mill when the flour was sold. -/
def sold : Session :=
  delivered.carried [.checkpoint "sale", .call ⟨"set_global", [.str "flour", .int 6], []⟩]

/-- Both logs have recorded the flour, and nothing else. -/
theorem sale_spared : sold.store.Spares 0 1 := by
  intro slot name held before there recorded
  have delivery : sold.store.journal.entries 0 = [⟨.global, .name "flour", some (.int 5)⟩] := rfl
  have sale : sold.store.journal.entries 1 = [⟨.global, .name "flour", some (.int 7)⟩] := rfl
  simp only [Journal.before?, delivery, sale, oldest?, Entry.says?, List.reverse_singleton,
    List.findSome?_singleton, Option.ite_none_right_eq_some, Option.isSome_ite] at recorded ⊢
  exact .inr recorded.1

/-- The sale can be taken back, as it had recorded the flour before. -/
theorem sale_restored : ∃ back,
    LedBack delivered.store (delivered.carried after).store back ∧
    back.global.get? "flour" = some (.int 7) := by
  have careful : (delivered.carried [.checkpoint "sale"]).Careful 1
      [.call ⟨"set_global", [.str "flour", .int 6], []⟩, .restore "delivery"] := by
    intro early name m here named other
    match early with
    | [] => cases (List.cons_prefix_cons.mp here).1
    | step :: [] =>
      obtain ⟨rfl, last⟩ := List.cons_prefix_cons.mp here
      obtain ⟨same, -⟩ := List.cons_prefix_cons.mp last
      obtain rfl := Step.restore.inj same
      have zero : sold.logs.get "delivery" = .ok 0 := rfl
      obtain rfl := Except.ok.inj (zero.symm.trans named)
      exact sale_spared
    | step :: step' :: rest =>
      have short := here.length_le
      simp only [List.length_append, List.length_cons, List.length_nil] at short
      omega
  obtain ⟨-, -, -, -, others⟩ := committed_replayed stock before (show _ = some 0 from rfl) after
  obtain ⟨back, led⟩ := others [] "sale" _ rfl rfl rfl careful
  refine ⟨back, led, ?_⟩
  rw [led.global]
  rfl

/-- Before anything is sold, the delivery that was committed is taken back, and not even
    the sale leads back to it then. -/
theorem delivery_lost :
    delivered.store.global.get? "flour" = some (.int 7) ∧
    (delivered.carried [.restore "delivery"]).store.global.get? "flour" = some (.int 5) ∧
    (delivered.carried
      [.checkpoint "sale", .restore "delivery", .restore "sale"]).store.global.get? "flour"
        = some (.int 5) := by
  decide +kernel

end Mill

end Session

end Layered

end Cascade
