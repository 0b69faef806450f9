-- SUMMARY: Operations of a layered store that fail change nothing, whatever was done to the store before.
import Cascade.Proofs.Store.Holding

/-! # Operations that fail

Most operations of a layered store work out what they write before they write it,
so they fail without a trace. Promoting and demoting a fact do not: they take the
fact out of one map before they put it into the other, and if that failed, the
fact would be lost and its removal in the log. It could fail for one reason only,
that the fact has no name. So what has to be kept in mind of a store is that none
of its facts is nameless, nor one that its logs would bring back
(`WellNamed`). -/

namespace Cascade

open Attempt

/-! ## Facts that have names -/

namespace Facts

variable {m : Facts}

/-- What a map without a nameless fact holds under a key, it holds under a name that
    is not empty. -/
theorem filled_of_held {key : Key} {f : Fact} (nothing : m.get? "" = none)
    (held : m.at? key = some f) : ∃ s, key = .name s ∧ s ≠ "" := by
  cases key with
  | other d => cases held
  | name s =>
    refine ⟨s, rfl, ?_⟩
    rintro rfl
    rw [at?, nothing] at held
    cases held

/-- What is read from given names and values has no fact under the empty name. -/
theorem named_of_ofData {items : List (String × Datum)} (h : ofData items = .ok m) :
    m.get? "" = none := by
  unfold ofData at h
  -- on the items, over the map that those before them made
  have empty : (∅ : Facts).get? "" = none := get?_empty ""
  generalize (∅ : Facts) = start at h empty
  induction items generalizing start with
  | nil =>
    cases h
    exact empty
  | cons item rest ih =>
    rw [List.foldlM_cons] at h
    cases read : assignment (.name item.1) item.2 with
    | error e =>
      simp only [read] at h
      cases h
    | ok given =>
      obtain ⟨-, named, -⟩ := of_assignment read
      simp only [read] at h
      refine ih _ h ?_
      rw [get?_insert, if_neg named]
      exact empty

end Facts

namespace Layered

/-- No map of a store has a fact under the empty name, and no log has one to put
    back. -/
structure WellNamed (db : Layered) : Prop where
  global : db.global.get? "" = none
  layers : ∀ l ∈ db.layers, l.facts.get? "" = none
  logs : ∀ n, ∀ e ∈ db.journal.entries n, e.key = .name "" → e.previous = none

/-- That is a property of the names of facts, and of nothing else. -/
theorem wellNamed_iff {db : Layered} :
    db.WellNamed ↔ db.Holds fun _ name _ => name ≠ "" := by
  have entryName {e : Entry Slot} : (e.key = .name "" → e.previous = none) ↔
      ∀ {name f}, e.key = .name name → e.previous = some f → name ≠ "" := by
    constructor
    · rintro h name f key held rfl
      rw [h key] at held
      cases held
    · intro h key
      by_contra held
      obtain ⟨f, held⟩ := Option.ne_none_iff_exists'.mp held
      exact h key held rfl
  constructor
  · intro h
    refine ⟨fun {slot name f} held empty => ?_, fun mem => entryName.mp (h.logs _ _ mem)⟩
    subst empty
    cases slot with
    | global => exact absurd (h.global.symm.trans held) nofun
    | layer n =>
      simp only [factsAt] at held
      cases found : db.layers.find? (·.serial = n) with
      | none =>
        rw [found, Option.map_none, Option.getD_none, Facts.get?_empty] at held
        cases held
      | some l =>
        rw [found] at held
        exact absurd ((h.layers l (List.mem_of_find?_eq_some found)).symm.trans held) nofun
  · intro h
    have nothing (slot : Slot) : (db.factsAt slot).get? "" = none := by
      by_contra held
      obtain ⟨f, held⟩ := Option.ne_none_iff_exists'.mp held
      exact h.facts held rfl
    refine ⟨nothing .global, fun l mem => ?_, fun n e mem => entryName.mpr (h.logs mem)⟩
    rw [← factsAt_of_mem mem]
    exact nothing _

namespace WellNamed

variable {db : Layered}

theorem ofFacts {facts : Facts} (h : facts.get? "" = none) : (ofFacts facts).WellNamed where
  global := h
  layers := by
    intro l hl
    rw [List.mem_singleton.mp hl]
    exact Facts.get?_empty ""
  logs := nofun

theorem factsAt (h : db.WellNamed) (slot : Slot) : (db.factsAt slot).get? "" = none := by
  by_contra held
  obtain ⟨f, held⟩ := Option.ne_none_iff_exists'.mp held
  exact (wellNamed_iff.mp h).facts held rfl

/-- A key that reads as something is a name that is not empty. -/
theorem filled {key : Key} {f : Fact} (h : db.WellNamed) (seen : db.visible? key = some f) :
    ∃ s, key = .name s ∧ s ≠ "" := by
  obtain covering | ⟨-, held⟩ := Option.or_eq_some_iff.mp seen
  · obtain ⟨l, mem, held⟩ := List.exists_of_findSome?_eq_some covering
    exact Facts.filled_of_held (h.layers l mem) held
  · exact Facts.filled_of_held h.global held

end WellNamed

/-! ## Facts that are moved -/

/-- A fact is taken out of a map, and what goes on with it cannot fail where the
    fact has a name. So what fails is taking it out, and nothing has changed. -/
theorem taken_unchanged {db db' : Layered} (slot : Slot) {key : Key} {f : Fault}
    {next : Option Fact → Attempt Layered Bool} (named : (db.factsAt slot).get? "" = none)
    (nothing : ∀ t, ∃ y t', (next none).on t = (.ok y, t'))
    (returns : ∀ name, key = .name name → name ≠ "" →
      ∀ g t, ∃ y t', (next (some g)).on t = (.ok y, t'))
    (fails : ((place slot).remove key >>= next).on db = (.error f, db')) : db' = db := by
  rcases removed : ((place slot).remove key).on db with ⟨e | stored, db₁⟩
  · rw [bind_of_error removed] at fails
    cases fails
    exact ((place slot).cautious_remove key).unchanged removed
  · rw [bind_of_ok removed] at fails
    cases stored with
    | none =>
      obtain ⟨y, t', ok⟩ := nothing db₁
      rw [ok] at fails
      cases fails
    | some g =>
      obtain ⟨held, look, gone⟩ := of_reading_bind removed
      cases gone
      unfold Place.get at look
      split at look
      · have held : (db.factsAt slot).at? key = some g := Except.ok.inj look
        obtain ⟨name, rfl, filled⟩ := Facts.filled_of_held named held
        obtain ⟨y, t', ok⟩ := returns name rfl filled g _
        rw [ok] at fails
        cases fails
      · cases look

namespace WellNamed

variable {db db' : Layered} {key : Key} {f : Fault}

theorem promote_unchanged (h : db.WellNamed) (fails : (promote key).on db = (.error f, db')) :
    db' = db := by
  refine taken_unchanged db.innerSlot (h.factsAt _) (fun t => ⟨false, t, rfl⟩) ?_ fails
  intro name given filled g t
  have set := (place .global).set_named filled g t
  rw [← given] at set
  exact ⟨true, _, bind_of_ok set _⟩

theorem demote_unchanged (h : db.WellNamed) (fails : (demote key).on db = (.error f, db')) :
    db' = db := by
  refine taken_unchanged .global (h.factsAt _) (fun t => ⟨false, t, rfl⟩) ?_ fails
  intro name given filled g t
  have set := (place t.innerSlot).set_named filled g t
  rw [← given] at set
  exact ⟨true, _, bind_of_ok set _⟩

end WellNamed

/-! ## Commands -/

namespace Command

/-- A command that fails on a store without nameless facts has not changed it. -/
theorem unchanged {c : Command} {db db' : Layered} {f : Fault} (named : db.WellNamed)
    (fails : c.run.on db = (.error f, db')) : db' = db := by
  have answers {α : Type} {a : Attempt Layered α} {g : α → Document} (h : Cautious a)
      (fails : on (do return g (← a)) db = (.error f, db')) : db' = db :=
    (h.then_pure g).unchanged fails
  have silent {a : Attempt Layered Unit} (h : Cautious a)
      (fails : (silently a).on db = (.error f, db')) : db' = db := answers h fails
  have idle {α : Type} {a : Attempt Layered α} {g : α → Document} (h : Idle a)
      (fails : on (do return g (← a)) db = (.error f, db')) : db' = db :=
    answers (.of_idle h) fails
  cases c with
  | read k => exact idle (idle_reading _) fails
  | holds k => exact idle (idle_reading _) fails
  | holdsIn l k =>
    have asks : Cautious (run (holdsIn l k)) :=
      .after (idle_target l) fun p => .after (idle_reading _) fun _ => .of_idle fun _ => rfl
    exact asks.unchanged fails
  | readAs kind k => exact idle (idle_reading _) fails
  | readInt k d => exact idle (idle_reading _) fails
  | store k v l => exact silent (cautious_store k v l) fails
  | setIfChanged k v l => exact answers (cautious_setIfChanged k v l) fails
  | increment k a l => exact silent (cautious_increment k a l) fails
  | add k a l => exact silent (cautious_add k a l) fails
  | sub k a l => exact silent (cautious_sub k a l) fails
  | combine op k v l => exact silent (cautious_combine op k v l) fails
  | clamp k low high l => exact silent (cautious_clamp k low high l) fails
  | wrap k low high l => exact silent (cautious_wrap k low high l) fails
  | remove k l => exact answers (cautious_remove k l) fails
  | promote k =>
    have fails : (Layered.promote k).on db = (.error f, db') :=
      (bind_fails_iff fun x t => ⟨_, t, rfl⟩).mp fails
    exact named.promote_unchanged fails
  | copy k => exact answers (cautious_copy k) fails
  | demote k =>
    have fails : (Layered.demote k).on db = (.error f, db') :=
      (bind_fails_iff fun x t => ⟨_, t, rfl⟩).mp fails
    exact named.demote_unchanged fails
  | pushScope s => exact silent (cautious_pushScope s) fails
  | popScope s => exact answers (cautious_popScope s) fails
  | clearInner => exact silent (.after (idle_target _) fun p => cautious_modify _) fails
  | clearGlobal => exact silent (cautious_modify _) fails
  | clearAll =>
    exact silent ((cautious_modify _).then_returns fun _ t => ⟨⟨⟩, _, rfl⟩) fails
  | snapshot => exact idle (fun _ => rfl) fails
  | view l => exact idle (idle_reading _) fails
  | count l => exact idle (idle_reading _) fails
  | isEmpty => exact idle (fun _ => rfl) fails

end Command

/-! ## Sessions -/

namespace Session

/-- A session after some steps, whether they succeed or fail. -/
def carried (steps : List Step) (s : Session) : Session :=
  steps.foldl (fun s step => (step.run.on s).2) s

theorem cautious_onStore {α : Type} {a : Attempt Layered α} (h : Cautious a) :
    Cautious (onStore a) :=
  h.zoom fun _ => rfl

/-- What every step of a session maintains is maintained by all of them. -/
theorem holds_carried {P : Session → Prop} (maintains : ∀ step : Step, Maintains P step.run)
    (steps : List Step) {s : Session} (h : P s) : P (s.carried steps) := by
  induction steps generalizing s with
  | nil => exact h
  | cons step rest ih => exact ih ((maintains step).holds h)

/-- No step of a session brings up a nameless fact. -/
theorem wellNamed_step (step : Step) : Maintains (fun s => s.store.WellNamed) step.run := by
  simp only [wellNamed_iff]
  exact holds_step (fun _ _ _ named _ => named) step

theorem wellNamed_carried (steps : List Step) {s : Session} (h : s.store.WellNamed) :
    (s.carried steps).store.WellNamed :=
  holds_carried wellNamed_step steps h

/-- A step that is no call works on the logs, or looks at something. -/
theorem cautious_step {step : Step} (other : ∀ c, step ≠ .call c) : Cautious step.run := by
  have looks {f : Session → Document} : Cautious (do return f (← get) : Attempt Session Document) :=
    .of_idle fun _ => rfl
  cases step with
  | call c => exact absurd rfl (other c)
  | checkpoint name =>
    exact (cautious_onStore cautious_checkpoint).then_returns fun n t => ⟨_, _, rfl⟩
  | commit name =>
    refine .after (idle_reading _) fun n => cautious_onStore ?_
    exact (cautious_modify _).then_pure fun _ => _
  | restore name =>
    refine .after (idle_reading _) fun n => cautious_onStore ?_
    exact (cautious_modify _).then_pure fun _ => _
  | logSize name => exact .after (idle_reading _) fun n => looks
  | items => exact looks
  | layer name => exact (cautious_onStore (.of_idle (idle_reading _))).then_pure Facts.toDocument
  | contains key => exact looks
  | scopes => exact looks
  | currentScope => exact looks

/-- A step that fails on a store without nameless facts has changed nothing. -/
theorem step_unchanged {s s' : Session} {step : Step} {f : Fault} (named : s.store.WellNamed)
    (fails : step.run.on s = (.error f, s')) : s' = s := by
  cases step with
  | call c =>
    cases resolved : Operation.resolve Command.table c with
    | error e =>
      simp only [Step.run, resolved] at fails
      cases fails
      rfl
    | ok command =>
      simp only [Step.run, resolved] at fails
      have fails : (onStore command.run).on s = (.error f, s') := fails
      obtain ⟨failed, rfl⟩ := Prod.mk.inj fails
      have stays := command.unchanged named (Prod.ext failed rfl)
      exact congrArg (fun store => { s with store }) stays
  | _ => exact (cautious_step fun c call => by cases call).unchanged fails

/-- Whatever a host did to a store that began with facts it was given, a step that
    fails leaves everything as it was: the facts of every layer, the scopes that
    are open, and the logs with what they recorded. -/
theorem failed_unchanged {items : List (String × Datum)} {facts : Facts}
    (given : Facts.ofData items = .ok facts) (steps : List Step) {step : Step} {f : Fault}
    {s' : Session} (fails : step.run.on ((ofFacts facts).carried steps) = (.error f, s')) :
    s' = (ofFacts facts).carried steps := by
  have start : (ofFacts facts).store.WellNamed := .ofFacts (Facts.named_of_ofData given)
  exact step_unchanged (wellNamed_carried steps start) fails

/-! ### A till -/

namespace Till

/-- In a shop, under an open checkpoint, some gold is moved into the till and back
    again. -/
def steps : List Step :=
  [ .call ⟨"push_scope", [.str "shop"], []⟩,
    .checkpoint "sale",
    .call ⟨"demote_to_local", [.str "gold"], []⟩,
    .call ⟨"add", [.str "gold", .int 2], []⟩,
    .call ⟨"promote_to_global", [.str "gold"], []⟩ ]

/-- Two pieces that are divided by nothing stay where they are, in a shop that is
    still open, and the log goes on with the five entries that it has. -/
theorem division_unchanged :
    ∃ facts f s', Facts.ofData [("gold", .fact (.int 5))] = .ok facts ∧
      (Step.call ⟨"div", [.str "gold", .int 0], []⟩).run.on ((ofFacts facts).carried steps)
        = (.error f, s') ∧
      s' = (ofFacts facts).carried steps ∧
      s'.store.global.get? "gold" = some (.int 7) ∧ s'.store.scopes = ["shop"] ∧
      (s'.store.journal.entries 0).length = 5 := by
  have given : Facts.ofData [("gold", .fact (.int 5))] = .ok (Facts.empty.insert "gold" (.int 5)) :=
    rfl
  obtain ⟨f, s', fails⟩ := of_not_isOk
    (a := (Step.call ⟨"div", [.str "gold", .int 0], []⟩).run)
    (s := (ofFacts (Facts.empty.insert "gold" (.int 5))).carried steps) (by decide +kernel)
  have unchanged := failed_unchanged given steps fails
  refine ⟨_, f, s', given, fails, unchanged, ?_⟩
  rw [unchanged]
  decide +kernel

end Till

end Session

end Layered

end Cascade
