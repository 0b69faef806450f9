-- SUMMARY: Payloads that no rule reads: a tick comes to the same whatever they are, and no payload is passed on or stored.
import Cascade.Proofs.Engine.Trials

/-! # Payloads

Rules see the payload of an event through the keys that they read, by their
conditions and by the values of their modifications. So two ticks on events that
differ in their payloads only come to the same if the payloads are left **unread**
in both of them: if no rule that is tried on an event reads a name of its payload.
Only a key that is no name at all tells an event without a payload from one that
has some. What rules put out has no payload in any case, and what they store goes
under the keys of their modifications: of those that fired, and of those that broke
off with a fault that is not one of evaluation. -/

namespace Cascade

open Attempt

/-! ## What is read -/

/-- The keys that a rule reads through an event: those of its condition, and those
    of the values of its modifications. -/
def Rule.reads (r : Rule) : List Key :=
  r.condition.keys ++ r.modifications.flatMap (·.effect.keys)

namespace Event

def bare (event : Event) : Event := { event with payload := ∅ }

/-- A key does not ask for a name in the payload of an event. -/
def IsSilentOn (event : Event) : Key → Prop
  | .name s => event.fact? s = none
  | .other _ => True

instance (event : Event) : DecidablePred event.IsSilentOn
  | .name s => inferInstanceAs (Decidable (event.fact? s = none))
  | .other _ => inferInstanceAs (Decidable True)

/-- A name on which an event is silent is read from the store. -/
theorem lookup_of_silent {event : Event} {s : String} (silent : event.IsSilentOn (.name s))
    (db : Layered) : event.lookup db (.name s) = db.read (.name s) := by
  have unread : event.fact? s = none := silent
  rw [lookup]
  split
  · rfl
  · simp only [consult, unread]

/-- A key on which two events are silent reads the same on both, unless it is no
    name and one of them has a payload and the other one none. -/
theorem lookup_of_silent_both {event event' : Event} {key : Key} (silent : event.IsSilentOn key)
    (silent' : event'.IsSilentOn key)
    (alike : event.payload.isEmpty = event'.payload.isEmpty ∨ key.isName)
    (db : Layered) : event.lookup db key = event'.lookup db key := by
  cases key with
  | name s => rw [lookup_of_silent silent, lookup_of_silent silent']
  | other d =>
    rw [lookup, lookup, alike.resolve_right nofun]
    split <;> rfl

end Event

/-! ## Lookups that say the same -/

section Lookups

variable {look look' : Lookup}

theorem ValueSpec.resolve_congr {spec : ValueSpec}
    (same : ∀ key ∈ spec.keys, ∀ db, look db key = look' db key) :
    spec.resolve look = spec.resolve look' := by
  have values : (fun db => spec.value (look db)) = fun db => spec.value (look' db) :=
    funext fun db => ValueSpec.value_congr fun key mem => same key mem db
  rw [resolve, resolve, values]

/-- A modification depends on the lookup through the keys of its value. -/
theorem Modification.apply_congr {m : Modification}
    (same : ∀ key ∈ m.effect.keys, ∀ db, look db key = look' db key) (default : LayerRef) :
    m.apply look default = m.apply look' default := by
  obtain ⟨key, layer, effect⟩ := m
  cases effect with
  | set value => simp only [apply, ValueSpec.resolve_congr same]
  | setIfChanged value outputs => simp only [apply, ValueSpec.resolve_congr same]
  | increment amount => simp only [apply, count, ValueSpec.resolve_congr same]
  | decrement amount => simp only [apply, count, ValueSpec.resolve_congr same]
  | combine op operand => simp only [apply, ValueSpec.resolve_congr same]
  | remove => rfl
  | toggle => rfl

theorem Engine.applyAll_congr {ms : List Modification}
    (same : ∀ key ∈ ms.flatMap (·.effect.keys), ∀ db, look db key = look' db key)
    (layer : LayerName) : applyAll look layer ms = applyAll look' layer ms := by
  induction ms with
  | nil => rfl
  | cons m ms ih =>
    obtain ⟨first, others⟩ := List.forall_mem_append.mp same
    rw [applyAll, applyAll, Modification.apply_congr first, ih others]

end Lookups

def Report.bare (r : Report) : Report := { r with processed := r.processed.map Event.bare }

theorem Report.bare_append (r r' : Report) : (r ++ r').bare = r.bare ++ r'.bare := by
  change bare (append r r') = append r.bare r'.bare
  simp only [bare, append, List.map_append]

namespace Engine

variable {η ω : Type} {host : Host η ω} {event : Event} {rule : Rule} {e e' : Engine η ω}

namespace Trial

/-- The rule reads no name of the payload of the event. -/
def Unread (t : Trial η ω) : Prop := ∀ key ∈ t.rule.reads, t.event.IsSilentOn key

instance (t : Trial η ω) : Decidable t.Unread :=
  inferInstanceAs (Decidable (∀ key ∈ t.rule.reads, t.event.IsSilentOn key))

/-- The rule applies, but one of its modifications raises a fault from which an
    engine does not recover. -/
def Breaks (t : Trial η ω) : Prop :=
  t.Holds ∧ ∃ f : Fault, f.isEvaluation = false ∧ t.transacted.1 = .error f

end Trial

/-! ## Rules -/

theorem dispatchAll_bare (event : Event) (facts : Facts) (actions : List String) :
    dispatchAll host rule event facts actions = dispatchAll host rule event.bare facts actions := by
  induction actions with
  | nil => rfl
  | cons action rest ih =>
    rw [dispatchAll, dispatchAll, ih]
    rfl

theorem putOut_bare (event : Event) (ids : List Document) :
    (putOut rule event ids : Attempt (Engine η ω) Report) = putOut rule event.bare ids := by
  induction ids with
  | nil => rfl
  | cons id rest ih =>
    rw [putOut, putOut, ih]
    rfl

/-- Firing a rule makes no use of the payload. -/
theorem fire_bare (event : Event) (outputs : List Document) :
    fire host rule event outputs = fire host rule event.bare outputs := by
  unfold fire
  simp only [dispatchAll_bare event, putOut_bare event]
  rfl

section Alike

/- Two events that differ in their payloads only. -/
variable {event' : Event} (same : event.bare = event'.bare)
include same

/-- A rule that reads the same on both events does the same with them. -/
theorem applyRule_congr
    (reads : ∀ key ∈ rule.reads, ∀ db, event.lookup db key = event'.lookup db key)
    (e : Engine η ω) : (applyRule host event rule).on e = (applyRule host event' rule).on e := by
  obtain ⟨checked, modified⟩ := List.forall_mem_append.mp reads
  have holds : rule.condition.check (event.lookup e.store)
      = rule.condition.check (event'.lookup e.store) :=
    rule.condition.check_congr fun key mem => checked key mem e.store
  have applied : applyAll event.lookup e.config.layer rule.modifications
      = applyAll event'.lookup e.config.layer rule.modifications :=
    applyAll_congr modified e.config.layer
  have blamed (f : Fault) : blame f rule event = blame f rule event' := by
    change blame f rule event.bare = blame f rule event'.bare
    rw [same]
  have fires (outputs : List Document) :
      fire host rule event outputs = fire host rule event' outputs := by
    rw [fire_bare event, same, ← fire_bare event']
  rw [applyRule_on, applyRule_on, holds, applied]
  simp only [blamed, fires]

theorem applyRules_unread {rules : List Rule}
    (unread : ∀ t ∈ trialsOn host event rules e, t.Unread)
    (unread' : ∀ t ∈ trialsOn host event' rules e, t.Unread)
    (alike : event.payload.isEmpty = event'.payload.isEmpty ∨
      ∀ t ∈ trialsOn host event rules e, ∀ key ∈ t.rule.reads, key.isName) :
    (applyRules host event rules).on e = (applyRules host event' rules).on e := by
  -- on the rules: each of them is tried on the engine that the ones before it left
  induction rules generalizing e with
  | nil => rfl
  | cons rule rest ih =>
    obtain ⟨now, later⟩ := List.forall_mem_cons.mp unread
    obtain ⟨now', later'⟩ := List.forall_mem_cons.mp unread'
    have first : ∀ key ∈ rule.reads, ∀ db, event.lookup db key = event'.lookup db key := by
      intro key mem
      refine Event.lookup_of_silent_both (now key mem) (now' key mem) ?_
      exact alike.imp_right fun names => names _ List.mem_cons_self key mem
    have step : (applyRule host event rule).on e = (applyRule host event' rule).on e :=
      applyRule_congr same first e
    rw [applyRules, applyRules]
    rcases applied : (applyRule host event rule).on e with ⟨f | outcome, e'⟩ <;>
      rw [applied] at step
    · rw [bind_of_error applied, bind_of_error step.symm]
    · rw [bind_of_ok applied, bind_of_ok step.symm]
      cases consumed : outcome.consumed with
      | true => simp only [if_true]
      | false =>
        rw [onward_of_ok applied] at later
        rw [onward_of_ok step.symm] at later'
        simp only [consumed, Bool.false_eq_true, if_false] at later later' ⊢
        have others : event.payload.isEmpty = event'.payload.isEmpty ∨
            ∀ t ∈ trialsOn host event rest e', ∀ key ∈ t.rule.reads, key.isName := by
          refine alike.imp_right fun names t mem => names t (List.mem_cons_of_mem _ ?_)
          rw [onward_of_ok applied, consumed]
          exact mem
        rw [on_bind, on_bind, ih later later' others]

end Alike

/-! ## Events -/

/-- From one engine, two attempts report the same but for the payloads of what was
    processed, or fail with one fault, and leave one engine. -/
def SameBare (a b : Attempt (Engine η ω) Report) (e : Engine η ω) : Prop :=
  (a.on e).1.map Report.bare = (b.on e).1.map Report.bare ∧ (a.on e).2 = (b.on e).2

namespace SameBare

variable {a b : Attempt (Engine η ω) Report}

theorem refl (a : Attempt (Engine η ω) Report) (e : Engine η ω) : SameBare a a e := ⟨rfl, rfl⟩

/-- What goes on after attempts that are the same in this sense, if it makes the
    same of reports that are. -/
theorem bind {f g : Report → Attempt (Engine η ω) Report} (h : SameBare a b e)
    (later : ∀ r r' e', a.on e = (.ok r, e') → b.on e = (.ok r', e') → r.bare = r'.bare →
      SameBare (f r) (g r') e') :
    SameBare (a >>= f) (b >>= g) e := by
  obtain ⟨outcomes, left⟩ := h
  rcases ha : a.on e with ⟨f' | r, e'⟩ <;> rcases hb : b.on e with ⟨g' | r', k'⟩ <;>
    rw [ha, hb] at outcomes left <;> obtain rfl : e' = k' := left
  · obtain rfl : f' = g' := Except.error.inj outcomes
    rw [SameBare, bind_of_error ha, bind_of_error hb]
    exact ⟨rfl, rfl⟩
  · cases outcomes
  · cases outcomes
  · rw [SameBare, bind_of_ok ha, bind_of_ok hb]
    exact later r r' e' ha hb (Except.ok.inj outcomes)

/-- What goes on after an attempt that both have in common. -/
theorem after {α : Type} {a : Attempt (Engine η ω) α} {f g : α → Attempt (Engine η ω) Report}
    (later : ∀ x e', a.on e = (.ok x, e') → SameBare (f x) (g x) e') :
    SameBare (a >>= f) (a >>= g) e := by
  rcases ha : a.on e with ⟨f' | x, e'⟩
  · rw [SameBare, bind_of_error ha, bind_of_error ha]
    exact ⟨rfl, rfl⟩
  · rw [SameBare, bind_of_ok ha, bind_of_ok ha]
    exact later x e' ha

/-- What happened first, with what happens then. -/
theorem onto {r r' : Report} (first : r.bare = r'.bare) (h : SameBare a b e) :
    SameBare (do return r ++ (← a)) (do return r' ++ (← b)) e := by
  refine h.bind fun s s' e' _ _ same => ⟨?_, rfl⟩
  change Except.ok (r ++ s).bare = Except.ok (r' ++ s').bare
  rw [Report.bare_append, Report.bare_append, first, same]

end SameBare

/-- Processing either of two events that differ in payloads which are left unread
    is the same. -/
theorem process_unread {event' : Event} (same : event.bare = event'.bare)
    (unread : ∀ t ∈ trialsAt host event e, t.Unread)
    (unread' : ∀ t ∈ trialsAt host event' e, t.Unread)
    (alike : event.payload.isEmpty = event'.payload.isEmpty ∨
      ∀ t ∈ trialsAt host event e, ∀ key ∈ t.rule.reads, key.isName) :
    SameBare (process host event) (process host event') e := by
  have id : event.id = event'.id := by
    change event.bare.id = event'.bare.id
    rw [same]
  have first : (Report.event event).bare = (Report.event event').bare := by
    change { Report.empty with processed := [event.bare] } = Report.bare (.event event')
    rw [same]
    rfl
  unfold trialsAt at unread unread' alike
  rw [← id] at unread'
  rw [process, process, ← id]
  refine SameBare.after fun rules e' found => ?_
  rw [onward_of_ok found] at unread unread' alike
  have applied : SameBare (applyRules host event rules) (applyRules host event' rules) e' := by
    rw [SameBare, applyRules_unread same unread unread' alike]
    exact ⟨rfl, rfl⟩
  exact applied.onto first

/-- Two batches of events in which each event differs from its partner in the payload
    only, both are left unread, and a rule that reads a key which is no name is tried
    on them only if both have a payload or both have none. -/
structure Interchange (host : Host η ω) (batch batch' : List Event) (e : Engine η ω) : Prop where
  same : batch.map Event.bare = batch'.map Event.bare
  unread : ∀ t ∈ trialsOf host batch e, t.Unread
  unread' : ∀ t ∈ trialsOf host batch' e, t.Unread
  alike : ∀ p ∈ batch.zip batch', p.1.payload.isEmpty = p.2.payload.isEmpty ∨
    ∀ t ∈ trialsOf host batch e, t.event = p.1 → ∀ key ∈ t.rule.reads, key.isName

theorem processAll_unread {batch batch' : List Event} (h : Interchange host batch batch' e) :
    SameBare (processAll host batch) (processAll host batch') e := by
  induction batch generalizing batch' e with
  | nil =>
    obtain rfl : batch' = [] := List.map_eq_nil_iff.mp h.same.symm
    exact .refl _ e
  | cons event rest ih =>
    obtain ⟨event', rest', rfl⟩ : ∃ event' rest', batch' = event' :: rest' := by
      refine List.exists_cons_of_ne_nil fun none => ?_
      have same := h.same
      rw [none] at same
      cases same
    obtain ⟨same, others⟩ := List.cons.inj h.same
    obtain ⟨now, later⟩ := List.forall_mem_append.mp h.unread
    obtain ⟨now', later'⟩ := List.forall_mem_append.mp h.unread'
    obtain ⟨alike, alike'⟩ := List.forall_mem_cons.mp h.alike
    have first : SameBare (process host event) (process host event') e := by
      refine process_unread same now now' (alike.imp_right fun names t mem => ?_)
      obtain ⟨on, -⟩ := mem_trialsAt t mem
      exact names t (List.mem_append_left _ mem) on
    refine first.bind fun r r' e' processed processed' bare => ?_
    rw [onward_of_ok processed] at later
    rw [onward_of_ok processed'] at later'
    refine (ih ⟨others, later, later', fun p mem => ?_⟩).onto bare
    refine (alike' p mem).imp_right fun names t mem => names t (List.mem_append_right _ ?_)
    rw [onward_of_ok processed]
    exact mem

/-! ## Passes and ticks -/

/-- The first pass is the only one that processes what was pending before, so the
    further ones are the same. -/
theorem passes_unread {batch batch' : List Event} (h : Interchange host batch batch' e)
    (allowed : Nat) : SameBare (passes host allowed batch) (passes host allowed batch') e := by
  rw [passes.eq_def, passes.eq_def host allowed batch']
  refine (processAll_unread h).bind fun r r' e' _ _ same => ?_
  have first : (Report.pass ++ r).bare = (Report.pass ++ r').bare := by
    rw [Report.bare_append, Report.bare_append, same]
  refine SameBare.after fun k e' _ => ?_
  split
  · exact ⟨congrArg Except.ok first, rfl⟩
  · cases allowed with
    | zero => exact (SameBare.refl overflow e').onto first
    | succ n =>
      exact SameBare.after fun next e' _ => (SameBare.refl (passes host n next) e').onto first

def withPending (pending : List Event) (e : Engine η ω) : Engine η ω :=
  { e with queue := ⟨pending⟩ }

/-- The trials of the first pass are trials of the tick. -/
theorem trialsOf_of_trials {P : Trial η ω → Prop} (idle : e.draining = false)
    (h : ∀ t ∈ trials host e, P t) :
    ∀ t ∈ trialsOf host e.queue.pending { e with draining := true, queue := .empty }, P t := by
  intro t mem
  refine h t ?_
  rw [trials, if_neg (by simp [idle]), trialsIn.eq_def]
  exact List.mem_append_left _ mem

theorem tick_unread {pending : List Event}
    (same : pending.map Event.bare = e.queue.pending.map Event.bare)
    (unread : ∀ t ∈ trials host e, t.Unread)
    (unread' : ∀ t ∈ trials host (e.withPending pending), t.Unread)
    (alike : ∀ p ∈ e.queue.pending.zip pending, p.1.payload.isEmpty = p.2.payload.isEmpty ∨
      ∀ t ∈ trials host e, t.event = p.1 → ∀ key ∈ t.rule.reads, key.isName) :
    ((tick host).on e).1.map Report.bare
        = ((tick host).on (e.withPending pending)).1.map Report.bare ∧
      (e.draining = false →
        ((tick host).on e).2 = ((tick host).on (e.withPending pending)).2) := by
  let k := e.withPending pending
  have both : e.queue.pending = [] ↔ k.queue.pending = [] := by
    rw [← List.map_eq_nil_iff, ← same, List.map_eq_nil_iff]
    exact Iff.rfl
  by_cases none : e.queue.pending = []
  · -- without anything that is pending the engines are the same
    have eq : e.withPending pending = e :=
      (drained_of_empty (both.mp none)).symm.trans (drained_of_empty none)
    rw [eq]
    exact ⟨rfl, fun _ => rfl⟩
  cases draining : e.draining with
  | true =>
    have busy : k.draining = true := draining
    rw [tick_on, tick_on, if_pos draining, if_pos busy]
    exact ⟨rfl, nofun⟩
  | false =>
    have idle : ¬e.draining = true := by simp [draining]
    have idle' : ¬k.draining = true := idle
    have some : k.queue.pending ≠ [] := mt both.mpr none
    have first : Interchange host e.queue.pending pending
        { e with draining := true, queue := .empty } :=
      ⟨same.symm, trialsOf_of_trials draining unread,
        trialsOf_of_trials (e := k) draining unread',
        fun p mem => (alike p mem).imp_right (trialsOf_of_trials draining)⟩
    obtain ⟨outcomes, left⟩ := passes_unread first e.config.maxDepth
    rw [tick_on, tick_on, if_neg idle, if_neg idle', drainAll_on, drainAll_on, if_neg none,
      if_neg some]
    exact ⟨outcomes, fun _ => congrArg (fun e' : Engine η ω => { e' with draining := false }) left⟩

/-! ## What is stored -/

/-- A fault that a transaction raises is not one of evaluation: those it recovers
    from. -/
theorem isEvaluation_of_transaction {α : Type} {a : Attempt Layered α}
    (writing : Layered.Writing a) {db : Layered} {f : Fault}
    (h : ((transaction a).on db).1 = .error f) : f.isEvaluation = false := by
  by_cases isOpen : db.journal.active.isSome
  · rw [transaction_of_open isOpen] at h
    cases h
    rfl
  · rw [transaction_on writing (by simpa using isOpen)] at h
    rcases ha : a.on db with ⟨g | x, copy⟩
    · rw [ha, settled] at h
      split at h
      · cases h
      · rename_i other
        cases h
        simpa using other
    · rw [ha, settled] at h
      cases h

/-- A host that leaves the store alone does so when a rule fires. -/
theorem keeps_fire (outward : host.IsOutward) (event : Event) (rule : Rule)
    (outputs : List Document) :
    Keeps store (fire host rule event outputs) := by
  have beats : Takes (Beat host fun _ => False) (fire host rule event outputs) :=
    beats_fire host event rule outputs
  refine beats.keeps fun e e' beat => ?_
  cases beat with
  | told => rfl
  | ruled _ never => exact never.elim
  | called handler call =>
    obtain ⟨state, left⟩ := outward handler call e
    rw [left]

/-- The modifications of a rule change nothing under keys that they do not name. -/
theorem agree_transacted (t : Trial η ω) :
    Layered.Agree {key | key ∈ t.rule.writes}ᶜ t.before.store t.transacted.2 := by
  have everything : ∀ key ∈ t.rule.keys, key ∈ Set.univ := fun key _ => Set.mem_univ key
  have inside : ∀ key ∈ t.rule.writes, key ∈ {key | key ∈ t.rule.writes} := fun _ mem => mem
  exact (footprint_rule t.event everything inside t.before.config.layer).writes t.before.store

/-- The keys that no rule writes which fires or breaks off in some trials. -/
def untouched (ts : List (Trial η ω)) : Set Key :=
  {key | ∀ t ∈ ts, t.Fires ∨ t.Breaks → key ∉ t.rule.writes}

/-- More trials leave fewer keys untouched. -/
theorem untouched_mono {ts ts' : List (Trial η ω)} (more : ts ⊆ ts') :
    untouched ts' ⊆ untouched ts :=
  fun _ free t mem => free t (more mem)

theorem agree_applyRule (outward : host.IsOutward) (t : Trial η ω) :
    Layered.Agree (untouched [t]) t.before.store (t.result host).2.store := by
  have apart (acts : t.Fires ∨ t.Breaks) : untouched [t] ⊆ {key | key ∈ t.rule.writes}ᶜ :=
    fun key free => free t (List.mem_singleton_self t) acts
  cases t.course host with
  | passed _ result =>
    rw [result]
    exact .refl _ _
  | blamed f _ result =>
    rw [result]
    exact .refl _ _
  | unchecked f _ result =>
    rw [result]
    exact .refl _ _
  | broken f _ holds failed result =>
    have writing := writing_applyAll t.event.blind_lookup t.before.config.layer
      t.rule.modifications
    rw [result]
    exact (agree_transacted t).mono (apart (.inr ⟨holds, f,
      isEvaluation_of_transaction writing failed, failed⟩))
  | fired outputs some _ _ result =>
    have fires : t.Fires := by
      rw [Trial.Fires, some]
      rfl
    have kept := keeps_fire outward t.event t.rule outputs t.modified
    rw [result, left_then_pure, kept]
    exact (agree_transacted t).mono (apart (.inl fires))

theorem agree_applyRules (outward : host.IsOutward) (event : Event) (rules : List Rule) :
    Layered.Agree (untouched (trialsOn host event rules e)) e.store
      ((applyRules host event rules).on e).2.store := by
  induction rules generalizing e with
  | nil => exact .refl _ _
  | cons rule rest ih =>
    have first := agree_applyRule outward ⟨event, rule, e⟩
    have head {ts : List (Trial η ω)} : untouched (⟨event, rule, e⟩ :: ts) ⊆ untouched [_] :=
      untouched_mono (List.cons_subset_cons _ (List.nil_subset ts))
    rw [trialsOn, applyRules]
    rcases applied : (applyRule host event rule).on e with ⟨f | outcome, e'⟩ <;>
      rw [Trial.result, applied] at first
    · rw [bind_of_error applied]
      exact first.mono head
    · rw [bind_of_ok applied, onward_of_ok applied]
      cases outcome.consumed with
      | true => exact first.mono head
      | false =>
        simp only [Bool.false_eq_true, if_false]
        rw [left_then_pure]
        exact (first.mono head).trans (ih.mono (untouched_mono (List.subset_cons_self ..)))

/-- Processing an event changes nothing under keys that no rule names which fires
    or breaks off. -/
theorem agree_process (outward : host.IsOutward) (event : Event) (e : Engine η ω) :
    Layered.Agree (untouched (trialsAt host event e)) e.store
      ((process host event).on e).2.store := by
  rw [process, trialsAt]
  rcases found : (Attempt.reading (·.registry.rulesForEvent event.id)).on e with ⟨f | rules, e'⟩
  · rw [bind_of_error found]
    obtain ⟨-, rfl⟩ := Prod.mk.inj found
    exact .refl _ _
  · rw [bind_of_ok found, onward_of_ok found, left_then_pure]
    obtain ⟨-, rfl⟩ := Prod.mk.inj found
    exact agree_applyRules outward event rules

/-! ## Payloads stay where they are -/

/-- If the events that are pending differ in their payloads only, and no rule that
    is tried on one of them reads a name of its payload, then the tick leaves one
    engine, with the same facts, pending events and calls, and reports the same but
    for those payloads, or fails with the same fault. Only where a rule reads a key
    that is no name must both events have a payload or none. In no tick does an event
    that a rule puts out have a payload. And whatever comes of processing an event,
    what it adds to the queue are the outputs of the trials on it, and it changes no
    fact of any layer but under the keys that some rule writes which fires, or which
    breaks off with a fault from which an engine does not recover. -/
theorem payloads_stay (host : Host η ω) (e : Engine η ω) :
    (∀ pending : List Event, pending.map Event.bare = e.queue.pending.map Event.bare →
      (∀ t ∈ trials host e, t.Unread) →
      (∀ t ∈ trials host (e.withPending pending), t.Unread) →
      (∀ p ∈ e.queue.pending.zip pending, p.1.payload.isEmpty = p.2.payload.isEmpty ∨
        ∀ t ∈ trials host e, t.event = p.1 → ∀ key ∈ t.rule.reads, key.isName) →
      ((tick host).on e).1.map Report.bare
          = ((tick host).on (e.withPending pending)).1.map Report.bare ∧
        (e.draining = false →
          ((tick host).on e).2 = ((tick host).on (e.withPending pending)).2)) ∧
    (∀ r e', (tick host).on e = (.ok r, e') → ∀ out ∈ r.enqueued, out.payload = ∅) ∧
    (host.IsOutward → ∀ event,
      ((process host event).on e).2.queue.pending
          = e.queue.pending ++ (trialsAt host event e).flatMap (·.puts host) ∧
        (∀ out ∈ (trialsAt host event e).flatMap (·.puts host), out.payload = ∅) ∧
        ∀ key, (∀ t ∈ trialsAt host event e, t.Fires ∨ t.Breaks → key ∉ t.rule.writes) →
          ∀ slot, e.store.cell? slot key = ((process host event).on e).2.store.cell? slot key) := by
  have without (ts : List (Trial η ω)) : ∀ out ∈ ts.flatMap (·.puts host), out.payload = ∅ := by
    intro out mem
    obtain ⟨t, -, put⟩ := List.mem_flatMap.mp mem
    obtain ⟨-, -, -, -, payload⟩ := Trial.of_mem_puts out put
    exact payload
  refine ⟨fun pending same unread unread' alike => tick_unread same unread unread' alike, ?_, ?_⟩
  · intro r e' returned
    rw [enqueued_tick returned]
    exact without (trials host e)
  · intro outward event
    refine ⟨enqueues_process outward event e, without _, fun key free slot => ?_⟩
    exact (agree_process outward event e).cells key free slot

namespace Letters

/-- Counts the letters of which no sender is known. -/
def file : Rule :=
  ⟨"file", "letter", .absent (.name "event.sender"),
    [⟨.name "letters", none, .increment (.constant (.int 1))⟩],
    ["stack"], ["filed"], .bool false, .int 0, .bool true⟩

def stamped : Event := ⟨"letter", .ofList [("stamp", .int 5)], "letter", none⟩

def weighed : Event := ⟨"letter", .ofList [("weight", .int 2), ("pages", .int 9)], "letter", none⟩

/-- An engine with the rule, on which the letter with the stamp is pending. -/
def engine : Engine Unit Unit :=
  { ofConfig .default (.collecting []) () with
    store := .ofFacts (.ofList [("letters", .int 3)])
    registry := Registry.empty.append Registry.globalScope [file]
    queue := ⟨[stamped]⟩ }

/-- The letter is counted whatever is known of it besides its sender, and what the
    rule puts out has no payload. -/
theorem letter_stays :
    ((tick (.ofReaction .silent)).on engine).1.map Report.bare
        = ((tick (.ofReaction .silent)).on (engine.withPending [weighed])).1.map Report.bare ∧
      ((tick (.ofReaction .silent)).on engine).2
        = ((tick (.ofReaction .silent)).on (engine.withPending [weighed])).2 ∧
      ((tick (.ofReaction .silent)).on engine).2.store.visible? (.name "letters")
        = some (.int 4) ∧
      (∃ r e', (tick (.ofReaction .silent)).on engine = (.ok r, e') ∧ r.enqueued.length = 1 ∧
        ∀ out ∈ r.enqueued, out.payload = ∅) ∧
      (trialsAt (.ofReaction .silent) stamped engine).length = 1 ∧
      ∀ key, (∀ t ∈ trialsAt (.ofReaction .silent) stamped engine,
          t.Fires ∨ t.Breaks → key ∉ t.rule.writes) →
        ∀ slot, engine.store.cell? slot key
          = ((process (.ofReaction .silent) stamped).on engine).2.store.cell? slot key := by
  obtain ⟨ticks, enqueued, processed⟩ := payloads_stay (.ofReaction .silent) engine
  have unread : ∀ t ∈ trials (.ofReaction .silent) engine, t.Unread := by decide +kernel
  have unread' : ∀ t ∈ trials (.ofReaction .silent) (engine.withPending [weighed]), t.Unread := by
    decide +kernel
  have laden : stamped.payload.isEmpty = weighed.payload.isEmpty := by decide +kernel
  have counted : ((tick (.ofReaction .silent)).on engine).2.store.visible? (.name "letters")
      = some (.int 4) := by
    decide +kernel
  have lengths : ((tick (.ofReaction .silent)).on engine).1.toOption.map (·.enqueued.length)
      = some 1 := by
    decide +kernel
  have tried : (trialsAt (.ofReaction .silent) stamped engine).length = 1 := by decide +kernel
  obtain ⟨outcomes, left⟩ := ticks [weighed] rfl unread unread'
    (List.forall_mem_singleton.mpr (.inl laden))
  obtain ⟨-, -, stored⟩ := processed (Host.isOutward_ofReaction _) stamped
  rcases ran : (tick (.ofReaction .silent)).on engine with ⟨outcome, e'⟩
  rw [ran] at lengths
  obtain ⟨r, rfl, one⟩ := exists_of_map_toOption lengths
  rw [ran] at outcomes left counted
  exact ⟨outcomes, left rfl, counted, ⟨r, e', rfl, one, enqueued r e' ran⟩, tried, stored⟩

/-- Asks for a key that is no name. -/
def inquire : Rule :=
  ⟨"inquire", "letter", .present (.other (.document (.int 5))), [], [], [], .bool false, .int 0,
    .bool true⟩

/-- The store tells of such a key that it cannot be evaluated, the payload of the
    letter raises another fault. -/
example :
    ((applyRule (.ofReaction .silent) stamped.bare inquire).on engine).1.isOk = true ∧
      ((applyRule (.ofReaction .silent) stamped inquire).on engine).1.isOk = false := by
  decide +kernel

end Letters

namespace Overdraft

/-- An engine with the rule that settles the debt. -/
def debtor : Engine Unit Unit :=
  { engine with registry := Registry.empty.append Registry.globalScope [pay] }

def payment : Trial Unit Unit := ⟨settle, pay, debtor⟩

theorem payment_transacted : payment.transacted = (.error .tooLarge, spent) := by
  have idle : store.journal.active = none := rfl
  have writing := writing_applyAll settle.blind_lookup .inner [spend, halve]
  have ended := transaction_on writing idle
  rw [pay_on] at ended
  exact ended

/-- The rule does not fire. -/
theorem payment_idle : ¬payment.Fires := by
  have none : payment.outputs? = none := by
    rw [Trial.outputs?, payment_transacted]
    split
    · rename_i succeeded
      cases succeeded
    · rfl
  rw [Trial.Fires, none]
  exact Bool.false_ne_true

theorem payment_result (host : Host Unit Unit) :
    payment.result host = (.error .tooLarge, { debtor with store := spent }) := by
  have holds : pay.condition.check (settle.lookup debtor.store) = .ok true := rfl
  have applied := applyRule_of_fault (e := debtor) host holds pay_on
  have closed : ¬debtor.store.journal.active.isSome := nofun
  rw [if_neg closed, if_neg nofun] at applied
  exact applied

theorem settle_rules : debtor.registry.rulesForEvent settle.id = .ok [pay] :=
  Registry.rulesForEvent_of_falling [0] rfl rfl (by decide)

/-- The gold is stored, although no rule has fired. -/
theorem gold_stored_unfired :
    (∀ t ∈ trialsAt (.ofReaction .silent) settle debtor, ¬t.Fires) ∧
      debtor.store.cell? (.layer 0) (.name "gold")
        ≠ ((process (.ofReaction .silent) settle).on debtor).2.store.cell? (.layer 0)
          (.name "gold") := by
  have found : (Attempt.reading (·.registry.rulesForEvent settle.id)).on debtor
      = (.ok [pay], debtor) := Prod.ext settle_rules rfl
  have failed : (applyRule (.ofReaction .silent) settle pay).on debtor
      = (.error .tooLarge, { debtor with store := spent }) :=
    payment_result (.ofReaction .silent)
  have once : trialsAt (.ofReaction .silent) settle debtor = [payment] := by
    rw [trialsAt, onward_of_ok found, trialsOn, onward_of_error failed]
    rfl
  have left : (process (.ofReaction .silent) settle).on debtor
      = (.error .tooLarge, { debtor with store := spent }) := by
    rw [process, bind_of_ok found, applyRules, bind_of_error (bind_of_error failed _)]
  rw [once, left]
  exact ⟨List.forall_mem_singleton.mpr payment_idle, by decide +kernel⟩

end Overdraft

end Engine

end Cascade
