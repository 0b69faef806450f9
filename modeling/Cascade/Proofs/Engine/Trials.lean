-- SUMMARY: The trials of a tick: every rule that is tried on an event, with the engine as it was then, and what the queue and the report owe to them.
import Cascade.Proofs.Engine.Beats
import Cascade.Proofs.Engine.Dispatches
import Cascade.Proofs.Engine.Independent
import Cascade.Proofs.Engine.Turns
import Cascade.Proofs.Registry.Sorting

/-! # Trials

In a tick rules are tried on events, one after the other. Each of these trials
takes one of a few courses. If the rule fires in it and its calls come to an end,
what the rule puts out can be told beforehand from the event, the rule and the
store. A trial that fails, such as one in which a handler has a lapse, is the last
one, and the tick fails with it. Whatever comes of the tick, what it adds to the
queue are the outputs of its trials, and the parts of its report that tell of rules
are those of its trials added up. -/

namespace Cascade

open Attempt

/-- What an event is like that could be made: it has a name, the cause that was
    given, and the root that was given if there was one. -/
theorem Event.of_make {id : Document} {payload : List (String × Datum)} {root : String}
    {cause : Option String} {out : Event} (h : Event.make id payload root cause = .ok out) :
    out.id ≠ "" ∧ out.cause = cause ∧ out.root = (if root = "" then out.id else root) ∧
      (payload = [] → out.payload = ∅) := by
  cases id with
  | str name =>
    unfold Event.make at h
    by_cases empty : name = ""
    · simp only [empty, if_true] at h
      cases h
    · simp only [if_neg empty] at h
      obtain ⟨facts, read, made⟩ := exists_of_bind_ok h
      cases made
      refine ⟨empty, rfl, rfl, ?_⟩
      rintro rfl
      cases read
      rfl
  | _ => cases h

/-- A rule that an event matches waits for it. -/
theorem Registry.event_of_rulesForEvent {r : Registry} {event : String} {rules : List Rule}
    (h : r.rulesForEvent event = .ok rules) {rule : Rule} (mem : rule ∈ rules) :
    rule.event = event := by
  have found : rule ∈ r.matching event r.active := (Rule.inOrder_perm h).mem_iff.mp mem
  obtain ⟨scope, -, found⟩ := List.mem_flatMap.mp found
  have both := (List.mem_filter.mp found).2
  rw [Bool.and_eq_true, decide_eq_true_iff] at both
  exact both.2

namespace Engine

variable {η ω : Type}

/-! ## Outputs -/

/-- The events that a rule puts out by some names, until one of them is refused. -/
def outputsOf (rule : Rule) (event : Event) : List Document → List Event
  | [] => []
  | id :: rest =>
    match Event.make id [] event.root (some rule.id) with
    | .ok out => out :: outputsOf rule event rest
    | .error _ => []

/-- What a rule puts out on an event has no payload, the rule for its cause, and the
    root of the event. -/
theorem of_mem_outputsOf {rule : Rule} {event : Event} {ids : List Document} :
    ∀ out ∈ outputsOf rule event ids, out.id ≠ "" ∧ out.cause = some rule.id ∧
      out.root = (if event.root = "" then out.id else event.root) ∧ out.payload = ∅ := by
  induction ids with
  | nil => exact List.forall_mem_nil _
  | cons id rest ih =>
    rw [outputsOf]
    cases made : Event.make id [] event.root (some rule.id) with
    | error f => exact List.forall_mem_nil _
    | ok out =>
      obtain ⟨named, cause, root, payload⟩ := Event.of_make made
      exact List.forall_mem_cons.mpr ⟨⟨named, cause, root, payload rfl⟩, ih⟩

/-! ## Trials and their courses -/

/-- A rule that is tried on an event, with the engine before. -/
structure Trial (η ω : Type) where
  event : Event
  rule : Rule
  before : Engine η ω

namespace Trial

/-- What the modifications of the rule come to, if they get to be applied. -/
def transacted (t : Trial η ω) : Except Fault (Except Fault (List Document)) × Layered :=
  (transaction (applyAll t.event.lookup t.before.config.layer t.rule.modifications)).on
    t.before.store

def Holds (t : Trial η ω) : Prop :=
  t.rule.condition.check (t.event.lookup t.before.store) = .ok true

/-- What the modifications put out, if the rule fires. -/
def outputs? (t : Trial η ω) : Option (List Document) :=
  match t.rule.condition.check (t.event.lookup t.before.store), t.transacted.1 with
  | .ok true, .ok (.ok outputs) => some outputs
  | _, _ => none

/-- The condition of the rule holds and none of its modifications fails. -/
def Fires (t : Trial η ω) : Prop := t.outputs?.isSome

def modified (t : Trial η ω) : Engine η ω := { t.before with store := t.transacted.2 }

/-- The engine when the rule has just fired. -/
def firing (t : Trial η ω) : Engine η ω :=
  { t.modified with
    log := t.before.log ++
      [⟨.debug, .str "rule fired", [("rule_id", .str t.rule.id), ("event_id", .str t.event.id)]⟩] }

/-- The dispatches of the actions of the rule, if it fires. -/
def dispatches (host : Host η ω) (t : Trial η ω) : List (Dispatch η ω) :=
  match t.outputs? with
  | some _ =>
    Engine.dispatches host t.rule t.event t.transacted.2.snapshot t.rule.actions t.firing
  | none => []

/-- The lapse that ends the trial, if a handler has one. -/
def lapse? (host : Host η ω) (t : Trial η ω) : Option Fault := lapseOf host (t.dispatches host)

/-- The engine when the actions of the rule have been called. -/
def called (host : Host η ω) (t : Trial η ω) : Engine η ω :=
  ((dispatchAll host t.rule t.event t.transacted.2.snapshot t.rule.actions).on t.firing).2

/-- The events that the rule puts out, for which its calls have to come to an end. -/
def puts (host : Host η ω) (t : Trial η ω) : List Event :=
  match t.outputs?, t.lapse? host with
  | some outputs, none => outputsOf t.rule t.event (outputs ++ t.rule.outputs.map .str)
  | _, _ => []

/-- Only a rule that fires puts something out. -/
theorem of_mem_puts {host : Host η ω} {t : Trial η ω} : ∀ out ∈ t.puts host,
    t.Fires ∧ out.id ≠ "" ∧ out.cause = some t.rule.id ∧
      out.root = (if t.event.root = "" then out.id else t.event.root) ∧ out.payload = ∅ := by
  intro out mem
  unfold puts at mem
  split at mem
  · rename_i outputs fires _
    exact ⟨by rw [Fires, fires]; rfl, of_mem_outputsOf out mem⟩
  · cases mem

def result (host : Host η ω) (t : Trial η ω) : Except Fault Outcome × Engine η ω :=
  (applyRule host t.event t.rule).on t.before

/-- The courses that a trial can take: the rule does not apply, its condition or
    its modifications cannot be evaluated, either fails with some other fault, or
    the rule fires. -/
inductive Course (host : Host η ω) (t : Trial η ω) : Prop
  | passed : t.outputs? = none → t.result host = (.ok ⟨.empty, false⟩, t.before) → Course host t
  | blamed (f : Fault) : t.outputs? = none →
      t.result host = (.ok ⟨.issue (blame f t.rule t.event), false⟩,
        t.before.told (blame f t.rule t.event)) → Course host t
  | unchecked (f : Fault) : t.outputs? = none → t.result host = (.error f, t.before) →
      Course host t
  | broken (f : Fault) : t.outputs? = none → t.Holds → t.transacted.1 = .error f →
      t.result host = (.error f, t.modified) → Course host t
  | fired (outputs : List Document) : t.outputs? = some outputs → t.Holds →
      t.transacted.1 = .ok (.ok outputs) →
      t.result host = (do
        return ⟨← fire host t.rule t.event outputs, t.rule.consumes⟩ :
          Attempt _ Outcome).on t.modified → Course host t

theorem course (host : Host η ω) (t : Trial η ω) : t.Course host := by
  have applied := applyRule_on host t.event t.rule t.before
  cases holds : t.rule.condition.check (t.event.lookup t.before.store) with
  | error f =>
    have none : t.outputs? = none := by simp only [outputs?, holds]
    simp only [holds] at applied
    split at applied
    · exact .blamed f none applied
    · exact .unchecked f none applied
  | ok truth =>
    cases truth with
    | false =>
      have none : t.outputs? = none := by simp only [outputs?, holds]
      simp only [holds] at applied
      exact .passed none applied
    | true =>
      simp only [holds] at applied
      have writing := writing_applyAll t.event.blind_lookup t.before.config.layer
        t.rule.modifications
      rcases ht : (transaction (applyAll t.event.lookup t.before.config.layer
          t.rule.modifications)).on t.before.store with ⟨f | f | outputs, store⟩
      · have done : t.transacted = (.error f, store) := ht
        have none : t.outputs? = none := by simp only [outputs?, holds, done]
        simp only [ht] at applied
        refine .broken f none holds (by rw [done]) (applied.trans ?_)
        rw [modified, done]
      · have done : t.transacted = (.ok (.error f), store) := ht
        have none : t.outputs? = none := by simp only [outputs?, holds, done]
        simp only [ht] at applied
        obtain rfl := transaction_undone writing ht
        exact .blamed f none applied
      · have done : t.transacted = (.ok (.ok outputs), store) := ht
        have some : t.outputs? = some outputs := by simp only [outputs?, holds, done]
        simp only [ht] at applied
        refine .fired outputs some holds (by rw [done]) (applied.trans ?_)
        rw [modified, done]

/-! ## When the rule fires -/

variable {t : Trial η ω} {outputs : List Document} {f : Fault}

theorem result_of_fires (host : Host η ω) (fires : t.outputs? = some outputs) :
    t.result host = (do
      return ⟨← fire host t.rule t.event outputs, t.rule.consumes⟩ : Attempt _ Outcome).on
        t.modified := by
  cases t.course host with
  | passed none _ => cases fires.symm.trans none
  | blamed f none _ => cases fires.symm.trans none
  | unchecked f none _ => cases fires.symm.trans none
  | broken f none _ _ _ => cases fires.symm.trans none
  | fired outputs' fires' _ _ result =>
    obtain rfl := Option.some.inj (fires.symm.trans fires')
    exact result

theorem lapse?_of_idle (host : Host η ω) (idle : t.outputs? = none) : t.lapse? host = none := by
  rw [lapse?, dispatches, idle]
  rfl

theorem puts_of_idle (host : Host η ω) (idle : t.outputs? = none) : t.puts host = [] := by
  rw [puts, idle]

theorem puts_of_calm {host : Host η ω} (fires : t.outputs? = some outputs)
    (calm : t.lapse? host = none) :
    t.puts host = outputsOf t.rule t.event (outputs ++ t.rule.outputs.map .str) := by
  rw [puts, fires, calm]

theorem puts_of_lapse {host : Host η ω} (lapse : t.lapse? host = some f) : t.puts host = [] := by
  rw [puts, lapse]
  cases t.outputs? <;> rfl

/-- A rule that fires has its actions called, and if they come to an end it puts
    its outputs out. -/
theorem fire_on (host : Host η ω) (fires : t.outputs? = some outputs) :
    (fire host t.rule t.event outputs).on t.modified
      = match t.lapse? host with
        | some f => (.error f, t.called host)
        | none => (do
            let put ← putOut t.rule t.event (outputs ++ t.rule.outputs.map .str)
            return .rule t.rule ++ .total ((t.dispatches host).map (·.report host)) ++ put :
              Attempt _ Report).on (t.called host) := by
  have noted : (note .debug "rule fired"
      [("rule_id", .str t.rule.id), ("event_id", .str t.event.id)] : Attempt (Engine η ω) Unit).on
        t.modified = (.ok (), t.firing) := rfl
  have calls : (dispatchAll host t.rule t.event t.firing.store.snapshot t.rule.actions).on t.firing
      = (outcomeOf host (t.dispatches host), t.called host) := by
    rw [dispatches, fires]
    exact Prod.ext (dispatchAll_outcome t.rule.actions t.firing) rfl
  rw [fire, bind_of_ok noted, bind_of_ok (on_get _)]
  cases lapse : t.lapse? host with
  | some f =>
    rw [outcomeOf_eq_error.mpr lapse] at calls
    exact bind_of_error calls _
  | none =>
    rw [outcomeOf_eq_ok.mpr ⟨lapse, rfl⟩] at calls
    exact bind_of_ok calls _

/-- A trial in which a handler has a lapse fails with it. -/
theorem result_of_lapse {host : Host η ω} (lapse : t.lapse? host = some f) :
    t.result host = (.error f, t.called host) := by
  cases fires : t.outputs? with
  | none => cases (lapse?_of_idle host fires).symm.trans lapse
  | some outputs =>
    have fired := fire_on host fires
    rw [lapse] at fired
    rw [result_of_fires host fires]
    exact bind_of_error fired _

end Trial

/-! ## The trials of events, passes and ticks -/

/-- The trials of rules on an event, until one consumes it. -/
def trialsOn (host : Host η ω) (event : Event) : List Rule → Engine η ω → List (Trial η ω)
  | [], _ => []
  | rule :: rest, e =>
    ⟨event, rule, e⟩ :: (applyRule host event rule).onward e fun outcome e' =>
      if outcome.consumed then [] else trialsOn host event rest e'

def trialsAt (host : Host η ω) (event : Event) (e : Engine η ω) : List (Trial η ω) :=
  (Attempt.reading (·.registry.rulesForEvent event.id)).onward e fun rules e =>
    trialsOn host event rules e

/-- The trials on some events, one after the other. -/
def trialsOf (host : Host η ω) : List Event → Engine η ω → List (Trial η ω)
  | [], _ => []
  | event :: rest, e =>
    trialsAt host event e ++ (process host event).onward e fun _ e' => trialsOf host rest e'

/-- The trials of a pass and of the further passes that are allowed. -/
def trialsIn (host : Host η ω) : Nat → Engine η ω → List (Trial η ω)
  | allowed, e =>
    trialsOf host e.queue.pending { e with queue := .empty }
      ++ (pass host).onward e fun _ e' =>
        if e'.queue.pending = [] ∨ e'.config.maxDepth = 0 then []
        else match allowed with
          | 0 => []
          | n + 1 => trialsIn host n e'

/-- The trials of a tick. One that is refused has none. -/
def trials (host : Host η ω) (e : Engine η ω) : List (Trial η ω) :=
  if e.draining then [] else trialsIn host e.config.maxDepth { e with draining := true }

variable {host : Host η ω} {event : Event} {rule : Rule} {e e' : Engine η ω} {r : Report}
  {β : Type}

/-- Without an event that is pending there are no trials. -/
theorem trialsIn_of_empty (pending : e.queue.pending = []) (allowed : Nat) :
    trialsIn host allowed e = [] := by
  have idle : (pass host).on e = (.ok (.pass ++ .empty), { e with queue := .empty }) := by
    rw [pass, bind_of_ok (on_drain e), pending]
    rfl
  rw [trialsIn.eq_def]
  dsimp only
  rw [onward_of_ok idle, if_pos (.inl rfl), pending]
  rfl

/-! ## When trials come up -/

/-- The trials on an event are those of rules that match it, each with an engine
    that some beats lead to. -/
theorem mem_trialsOn {rules : List Rule} :
    ∀ t ∈ trialsOn host event rules e, t.event = event ∧ t.rule ∈ rules ∧
      Relation.ReflTransGen (Beat host fun _ => True) e t.before := by
  induction rules generalizing e with
  | nil => exact List.forall_mem_nil _
  | cons rule rest ih =>
    refine List.forall_mem_cons.mpr ⟨⟨rfl, List.mem_cons_self .., .refl⟩, ?_⟩
    refine forall_onward fun outcome e' applied t ht => ?_
    have beats : Relation.ReflTransGen (Beat host fun _ => True) e
        ((applyRule host event rule).on e).2 := beats_applyRule host event trivial e
    rw [applied] at beats
    split at ht
    · cases ht
    · obtain ⟨same, mem, further⟩ := ih t ht
      exact ⟨same, List.mem_cons_of_mem _ mem, beats.trans further⟩

theorem mem_trialsAt :
    ∀ t ∈ trialsAt host event e, t.event = event ∧ t.rule.event = event.id ∧
      Relation.ReflTransGen (Beat host fun _ => True) e t.before := by
  refine forall_onward fun rules e' found t ht => ?_
  obtain ⟨matching, rfl⟩ := Prod.mk.inj found
  obtain ⟨same, mem, beats⟩ := mem_trialsOn t ht
  exact ⟨same, Registry.event_of_rulesForEvent matching mem, beats⟩

/-- The trials of some events are each on one of them. -/
theorem mem_trialsOf (batch : List Event) (e : Engine η ω) :
    ∀ t ∈ trialsOf host batch e, t.event ∈ batch := by
  induction batch generalizing e with
  | nil => exact List.forall_mem_nil _
  | cons event rest ih =>
    refine List.forall_mem_append.mpr ⟨fun t mem => ?_, forall_onward fun r e' _ t mem => ?_⟩
    · obtain ⟨same, -⟩ := mem_trialsAt t mem
      rw [same]
      exact List.mem_cons_self
    · exact List.mem_cons_of_mem event (ih e' t mem)

section Reached

/- Something that processing events maintains and that does not depend on the
   queue, and what then holds of the trials on each event. -/
variable {I : Engine η ω → Prop} {P : Trial η ω → Prop}
  (told : ∀ (e : Engine η ω) sink queue log, I e → I { e with sink, queue, log })
  (processes : ∀ event, Maintains I (process host event))
  (each : ∀ event e, I e → ∀ t ∈ trialsAt host event e, P t)

include processes each

theorem forall_trialsOf (h : I e) (batch : List Event) : ∀ t ∈ trialsOf host batch e, P t := by
  induction batch generalizing e with
  | nil => exact List.forall_mem_nil _
  | cons event rest ih =>
    refine List.forall_mem_append.mpr ⟨each event e h, forall_onward fun r e' processed => ?_⟩
    have kept := (processes event).holds h
    rw [processed] at kept
    exact ih kept

include told

theorem forall_trialsIn (h : I e) (allowed : Nat) : ∀ t ∈ trialsIn host allowed e, P t := by
  have emptied : I { e with queue := .empty } := told e e.sink .empty e.log h
  have now := forall_trialsOf processes each emptied e.queue.pending
  have goesOn : Maintains I (pass host) :=
    Takes.bind (takes_drain fun e sink queue log => told e sink queue log) fun batch _ =>
      (takes_processAll processes batch).bind fun _ _ => .pure _
  induction allowed using Nat.strong_induction_on generalizing e with
  | _ allowed ih =>
    rw [trialsIn.eq_def]
    refine List.forall_mem_append.mpr ⟨now, forall_onward fun r e' passed => ?_⟩
    have kept := goesOn.holds h
    rw [passed] at kept
    have emptied' : I { e' with queue := .empty } := told e' e'.sink .empty e'.log kept
    split
    · exact List.forall_mem_nil _
    · cases allowed with
      | zero => exact List.forall_mem_nil _
      | succ n =>
        exact ih n n.lt_succ_self kept emptied' (forall_trialsOf processes each emptied' _)

/-- What is maintained when a tick begins tells of all of its trials. -/
theorem forall_trials (h : I { e with draining := true }) : ∀ t ∈ trials host e, P t := by
  unfold trials
  split
  · exact List.forall_mem_nil _
  · exact forall_trialsIn told processes each h _

end Reached

/-- In a tick rules are tried only on events that they wait for. -/
theorem matched_trials : ∀ t ∈ trials host e, t.rule.event = t.event.id := by
  have always (event : Event) : Maintains (fun _ => True) (process host event) :=
    .of_holds fun _ _ => trivial
  refine forall_trials (fun _ _ _ _ _ => trivial) always (fun event k _ t mem => ?_) trivial
  obtain ⟨same, waits, -⟩ := mem_trialsAt t mem
  rw [same, waits]

/-- Draining the queue is the passes over it, if there is anything in it. -/
theorem drainAll_on (host : Host η ω) (e : Engine η ω) :
    (drainAll host).on e
      = if e.queue.pending = [] then (.ok .empty, e)
        else (passes host e.config.maxDepth e.queue.pending).on { e with queue := .empty } := by
  rw [drainAll, bind_of_ok (on_drain e)]
  by_cases pending : e.queue.pending = []
  · rw [if_pos pending, if_pos (by simp [pending]), drained_of_empty pending, on_pure]
  · rw [if_neg pending, if_neg (by simp [pending]), bind_of_ok (on_get _)]

/-! ## Trials that fail -/

/-- The attempt fails where one of its trials does, and with the same fault. -/
def FailsWith {α : Type} (host : Host η ω) (trials : Engine η ω → List (Trial η ω))
    (a : Attempt (Engine η ω) α) : Prop :=
  ∀ e, ∀ t ∈ trials e, ∀ f, (t.result host).1 = .error f → (a.on e).1 = .error f

namespace FailsWith

variable {α γ : Type} {ts : Engine η ω → List (Trial η ω)} {a : Attempt (Engine η ω) α}

theorem of_none (a : Attempt (Engine η ω) α) : FailsWith host (fun _ => []) a :=
  fun _ _ mem => absurd mem List.not_mem_nil

theorem bind {f : α → Attempt (Engine η ω) γ} {later : α → Engine η ω → List (Trial η ω)}
    (ha : FailsWith host ts a) (hf : ∀ x, FailsWith host (later x) (f x)) :
    FailsWith host (fun e => ts e ++ a.onward e later) (a >>= f) := by
  intro e t mem g failed
  rcases List.mem_append.mp mem with now | mem
  · exact bind_fails (ha e t now g failed) f
  · rcases h : a.on e with ⟨g' | x, e'⟩
    · rw [onward_of_error h] at mem
      cases mem
    · rw [onward_of_ok h] at mem
      rw [bind_of_ok h]
      exact hf x e' t mem g failed

theorem then_pure (ha : FailsWith host ts a) (g : α → γ) :
    FailsWith host ts (a >>= fun x => pure (g x)) :=
  fun e t mem f failed => bind_fails (ha e t mem f failed) _

end FailsWith

theorem failsWith_applyRule (event : Event) (rule : Rule) :
    FailsWith host (fun e => [⟨event, rule, e⟩]) (applyRule host event rule) := by
  intro e t mem f failed
  obtain rfl := List.mem_singleton.mp mem
  exact failed

theorem failsWith_applyRules (event : Event) (rules : List Rule) :
    FailsWith host (trialsOn host event rules) (applyRules host event rules) := by
  induction rules with
  | nil => exact .of_none _
  | cons rule rest ih =>
    intro e
    rw [trialsOn]
    refine (failsWith_applyRule event rule).bind (fun outcome => ?_) e
    cases outcome.consumed with
    | true => exact .of_none _
    | false => exact ih.then_pure _

theorem failsWith_process (event : Event) :
    FailsWith host (trialsAt host event) (process host event) := by
  intro e
  rw [trialsAt, ← List.nil_append (onward _ _ _)]
  refine (FailsWith.of_none _).bind (fun rules => ?_) e
  exact (failsWith_applyRules event rules).then_pure _

theorem failsWith_processAll (batch : List Event) :
    FailsWith host (trialsOf host batch) (processAll host batch) := by
  induction batch with
  | nil => exact .of_none _
  | cons event rest ih =>
    intro e
    rw [trialsOf]
    exact (failsWith_process event).bind (fun _ => ih.then_pure _) e

theorem failsWith_passes (allowed : Nat) {t : Trial η ω} {f : Fault}
    (mem : t ∈ trialsIn host allowed e) (failed : (t.result host).1 = .error f) :
    ((passes host allowed e.queue.pending).on { e with queue := .empty }).1 = .error f := by
  -- on the passes that are allowed after the first one
  induction allowed using Nat.strong_induction_on generalizing e with
  | _ allowed ih =>
    rw [trialsIn.eq_def] at mem
    rcases List.mem_append.mp mem with now | mem
    · rw [passes.eq_def]
      exact bind_fails (failsWith_processAll e.queue.pending _ t now f failed) _
    · rcases first : (pass host).on e with ⟨g | r, e'⟩
      · rw [onward_of_error first] at mem
        cases mem
      · rw [onward_of_ok first] at mem
        rw [passes_after first]
        split at mem
        · cases mem
        · rename_i goesOn
          rw [if_neg goesOn]
          cases allowed with
          | zero => cases mem
          | succ n => exact bind_fails (ih n n.lt_succ_self mem) _

/-- A tick fails where one of its trials does, and with the same fault. -/
theorem tick_of_failed {t : Trial η ω} {f : Fault} (mem : t ∈ trials host e)
    (failed : (t.result host).1 = .error f) : ((tick host).on e).1 = .error f := by
  unfold trials at mem
  split at mem
  · cases mem
  · rename_i idle
    rw [tick_on, if_neg idle]
    dsimp only
    rw [drainAll_on]
    split
    · rename_i pending
      rw [trialsIn_of_empty pending] at mem
      cases mem
    · exact failsWith_passes _ mem failed

/-! ## What trials add to the queue -/

/-- Whatever comes of an attempt, it has put some events at the end of the queue. -/
def Enqueues {α : Type} (events : Engine η ω → List Event) (a : Attempt (Engine η ω) α) : Prop :=
  ∀ e, (a.on e).2.queue.pending = e.queue.pending ++ events e

namespace Enqueues

variable {α γ : Type} {events : Engine η ω → List Event} {a : Attempt (Engine η ω) α}

/-- An attempt that leaves the queue alone. -/
theorem of_keeps (h : Keeps queue a) : Enqueues (fun _ => []) a := fun e => by
  rw [h e, List.append_nil]

theorem bind {f : α → Attempt (Engine η ω) γ} {later : α → Engine η ω → List Event}
    (ha : Enqueues events a) (hf : ∀ x, Enqueues (later x) (f x)) :
    Enqueues (fun e => events e ++ a.onward e later) (a >>= f) := by
  intro e
  have first := ha e
  dsimp only
  rcases h : a.on e with ⟨g | x, e'⟩ <;> rw [h] at first
  · rw [bind_of_error h, onward_of_error h, List.append_nil]
    exact first
  · rw [bind_of_ok h, onward_of_ok h, hf x e', ← List.append_assoc]
    exact congrArg (· ++ later x e') first

/-- What is made of the result is nothing to the queue. -/
theorem then_pure (ha : Enqueues events a) (g : α → γ) :
    Enqueues events (a >>= fun x => pure (g x)) := fun e => by
  rw [left_then_pure, ha e]

end Enqueues

theorem enqueues_putOut (rule : Rule) (event : Event) (ids : List Document) :
    Enqueues (fun _ => outputsOf rule event ids)
      (putOut rule event ids : Attempt (Engine η ω) Report) := by
  -- on the names: the first one that is refused ends the outputs
  induction ids with
  | nil => exact .of_keeps (.pure _)
  | cons id rest ih =>
    intro e
    rw [putOut, outputsOf]
    cases made : Event.make id [] event.root (some rule.id) with
    | error f => exact (List.append_nil _).symm
    | ok out =>
      have later := ih.then_pure (fun r => .output out ++ r) { e with queue := e.queue.push out }
      exact later.trans (List.append_assoc ..)

namespace Trial

variable {t : Trial η ω} {outputs : List Document}

/-- What a rule that fires puts out comes after what its actions have enqueued. -/
theorem pending_fire (host : Host η ω) (fires : t.outputs? = some outputs) :
    ((fire host t.rule t.event outputs).on t.modified).2.queue.pending
      = (t.called host).queue.pending ++ t.puts host := by
  rw [fire_on host fires]
  cases lapse : t.lapse? host with
  | some f => rw [puts_of_lapse lapse, List.append_nil]
  | none =>
    rw [puts_of_calm fires lapse]
    exact (enqueues_putOut t.rule t.event _).then_pure _ (t.called host)

/-- A trial whose rule does not fire leaves the queue alone. -/
theorem queue_of_idle (host : Host η ω) (idle : t.outputs? = none) :
    (t.result host).2.queue = t.before.queue := by
  cases t.course host with
  | passed _ result => rw [result]
  | blamed f _ result => rw [result]; rfl
  | unchecked f _ result => rw [result]
  | broken f _ _ _ result => rw [result]; rfl
  | fired outputs fires => cases idle.symm.trans fires

/-- Handlers that change nothing of the engine add nothing to the queue. -/
theorem queue_called (outward : host.IsOutward) (t : Trial η ω) :
    (t.called host).queue = t.before.queue := by
  have left : ∃ sink log state, t.called host = _ :=
    left_dispatchAll outward t.rule.actions t.firing
  obtain ⟨sink, log, state, left⟩ := left
  rw [left]
  rfl

end Trial

/-- A trial adds its outputs to the queue, whatever comes of it. -/
theorem enqueues_applyRule (outward : host.IsOutward) (event : Event) (rule : Rule) :
    Enqueues (fun e => Trial.puts host ⟨event, rule, e⟩) (applyRule host event rule) := by
  intro e
  let t : Trial η ω := ⟨event, rule, e⟩
  change (t.result host).2.queue.pending = t.before.queue.pending ++ t.puts host
  cases fires : t.outputs? with
  | none => rw [t.puts_of_idle host fires, t.queue_of_idle host fires, List.append_nil]
  | some outputs =>
    rw [t.result_of_fires host fires, left_then_pure, t.pending_fire host fires,
      t.queue_called outward]

theorem enqueues_applyRules (outward : host.IsOutward) (event : Event) (rules : List Rule) :
    Enqueues (fun e => (trialsOn host event rules e).flatMap (·.puts host))
      (applyRules host event rules) := by
  induction rules with
  | nil => exact .of_keeps (.pure _)
  | cons rule rest ih =>
    intro e
    dsimp only
    rw [trialsOn, List.flatMap_cons, flatMap_onward]
    refine Enqueues.bind (enqueues_applyRule outward event rule) (fun outcome => ?_) e
    cases outcome.consumed with
    | true => exact .of_keeps (.pure _)
    | false => exact ih.then_pure _

theorem enqueues_process (outward : host.IsOutward) (event : Event) :
    Enqueues (fun e => (trialsAt host event e).flatMap (·.puts host)) (process host event) := by
  intro e
  dsimp only
  rw [trialsAt, flatMap_onward, ← List.nil_append (onward _ _ _)]
  have found : Enqueues (fun _ => [])
      (Attempt.reading fun e : Engine η ω => e.registry.rulesForEvent event.id) :=
    .of_keeps fun _ => rfl
  refine found.bind (fun rules => ?_) e
  exact (enqueues_applyRules outward event rules).then_pure _

theorem enqueues_processAll (outward : host.IsOutward) (batch : List Event) :
    Enqueues (fun e => (trialsOf host batch e).flatMap (·.puts host)) (processAll host batch) := by
  induction batch with
  | nil => exact .of_keeps (.pure _)
  | cons event rest ih =>
    intro e
    dsimp only
    rw [trialsOf, List.flatMap_append, flatMap_onward]
    exact Enqueues.bind (enqueues_process outward event) (fun _ => ih.then_pure _) e

/-- After a pass the queue holds the outputs of its trials. -/
theorem pending_pass (outward : host.IsOutward) (e : Engine η ω) :
    ((pass host).on e).2.queue.pending
      = (trialsOf host e.queue.pending { e with queue := .empty }).flatMap (·.puts host) := by
  rw [pass, bind_of_ok (on_drain e), left_then_pure, enqueues_processAll outward]
  exact List.nil_append _

/-! ## What trials add to the report -/

/-- A part of reports to which only rules add that are applied. -/
structure IsRuled (part : Report → List β) : Prop where
  empty : part .empty = []
  append : ∀ r r', part (r ++ r') = part r ++ part r'
  pass : part .pass = []
  event : ∀ event, part (.event event) = []
  dropping : ∀ events, part (.dropping events) = []
  deferring : ∀ events, part (.deferring events) = []
  overflow : ∀ i, i.kind = .cascadeDepthExceeded → part (.issue i) = []

section Reported

/- A part of reports, with what every trial adds to it that comes to an end. -/
variable {part : Report → List β} (ruled : IsRuled part) {g : Trial η ω → List β}
  (each : ∀ t outcome e', t.result host = (.ok outcome, e') → part outcome.report = g t)

include ruled

theorem part_overflow (h : overflow.on e = (.ok r, e')) : part r = [] := by
  have excess : part (.issue e.excess) = [] := ruled.overflow _ rfl
  rw [on_overflow] at h
  cases policy : e.config.overflow with
  | drop =>
    rw [policy] at h
    cases h
    rw [ruled.append, ruled.dropping, excess, List.append_nil]
  | defer =>
    rw [policy] at h
    cases h
    rw [ruled.append, ruled.deferring, excess, List.append_nil]

include each

theorem part_applyRules {rules : List Rule}
    (h : (applyRules host event rules).on e = (.ok r, e')) :
    part r = (trialsOn host event rules e).flatMap g := by
  induction rules generalizing e r with
  | nil =>
    obtain ⟨rfl, rfl⟩ := of_pure_ok h
    exact ruled.empty
  | cons rule rest ih =>
    obtain ⟨outcome, e₁, applied, h⟩ := of_bind_ok h
    rw [trialsOn, onward_of_ok applied, List.flatMap_cons, ← each ⟨event, rule, e⟩ _ _ applied]
    cases hc : outcome.consumed with
    | true =>
      simp only [hc, if_true] at h ⊢
      obtain ⟨rfl, rfl⟩ := of_pure_ok h
      exact (List.append_nil _).symm
    | false =>
      simp only [hc, Bool.false_eq_true, if_false] at h ⊢
      obtain ⟨r', e₂, others, h⟩ := of_bind_ok h
      obtain ⟨rfl, rfl⟩ := of_pure_ok h
      rw [ruled.append, ih others]

theorem part_process (h : (process host event).on e = (.ok r, e')) :
    part r = (trialsAt host event e).flatMap g := by
  obtain ⟨rules, e₁, found, h⟩ := of_bind_ok h
  obtain ⟨r', e₂, applied, h⟩ := of_bind_ok h
  obtain ⟨rfl, rfl⟩ := of_pure_ok h
  rw [trialsAt, onward_of_ok found, ruled.append, ruled.event, List.nil_append]
  exact part_applyRules ruled each applied

theorem part_processAll {batch : List Event} (h : (processAll host batch).on e = (.ok r, e')) :
    part r = (trialsOf host batch e).flatMap g := by
  induction batch generalizing e r with
  | nil =>
    obtain ⟨rfl, rfl⟩ := of_pure_ok h
    exact ruled.empty
  | cons event rest ih =>
    obtain ⟨r₁, e₁, first, h⟩ := of_bind_ok h
    obtain ⟨r₂, e₂, others, h⟩ := of_bind_ok h
    obtain ⟨rfl, rfl⟩ := of_pure_ok h
    rw [trialsOf, onward_of_ok first, List.flatMap_append, ruled.append, ih others,
      part_process ruled each first]

theorem part_pass (h : (pass host).on e = (.ok r, e')) :
    part r = (trialsOf host e.queue.pending { e with queue := .empty }).flatMap g := by
  obtain ⟨batch, e₁, drained, h⟩ := of_bind_ok h
  obtain ⟨r₁, e₂, processed, h⟩ := of_bind_ok h
  obtain ⟨rfl, rfl⟩ := of_pure_ok h
  cases drained
  rw [ruled.append, ruled.pass, List.nil_append, part_processAll ruled each processed]

theorem part_passes {allowed : Nat}
    (h : (passes host allowed e.queue.pending).on { e with queue := .empty } = (.ok r, e')) :
    part r = (trialsIn host allowed e).flatMap g := by
  -- on the passes that are allowed after the first one
  induction allowed using Nat.strong_induction_on generalizing e r with
  | _ allowed ih =>
    rw [trialsIn.eq_def]
    obtain ⟨r₁, e₁, first, ⟨stopped, rfl, rfl⟩ | ⟨remain, deep, r₂, rfl, further⟩⟩ := passes_first h
    · dsimp only
      rw [onward_of_ok first, if_pos stopped, List.append_nil, part_pass ruled each first]
    · have goesOn := not_or.mpr ⟨remain, Nat.ne_of_gt deep⟩
      dsimp only
      rw [onward_of_ok first, if_neg goesOn, ruled.append, part_pass ruled each first,
        List.flatMap_append]
      refine congrArg _ ?_
      cases allowed with
      | zero => exact part_overflow ruled further
      | succ n => exact ih n n.lt_succ_self further

theorem part_drainAll (h : (drainAll host).on e = (.ok r, e')) :
    part r = (trialsIn host e.config.maxDepth e).flatMap g := by
  rw [drainAll_on] at h
  split at h
  · rename_i pending
    cases h
    rw [trialsIn_of_empty pending]
    exact ruled.empty
  · exact part_passes ruled each h

/-- A part of the report of a tick is made up of what its trials add to it. -/
theorem part_tick (h : (tick host).on e = (.ok r, e')) :
    part r = (trials host e).flatMap g := by
  obtain ⟨e₁, drained, rfl⟩ := tick_split h
  rw [trials, if_neg (by simp [idle_of_tick h])]
  exact part_drainAll ruled each drained

end Reported

/-! ## What one trial reports -/

/-- Outputs that are all accepted are reported in order. -/
theorem report_putOut {ids : List Document} (h : (putOut rule event ids).on e = (.ok r, e')) :
    r = .total ((outputsOf rule event ids).map .output) := by
  induction ids generalizing e r with
  | nil =>
    obtain ⟨rfl, rfl⟩ := of_pure_ok h
    rfl
  | cons id rest ih =>
    obtain ⟨out, e₁, first, h⟩ := of_bind_ok h
    obtain ⟨⟨⟩, e₂, pushed, h⟩ := of_bind_ok h
    obtain ⟨r₁, e₃, others, h⟩ := of_bind_ok h
    obtain ⟨rfl, rfl⟩ := of_pure_ok h
    obtain ⟨made, rfl⟩ := of_ofExcept_ok first
    rw [ih others, outputsOf, made]
    rfl

namespace Trial

variable {t : Trial η ω} {outcome : Outcome}

theorem report_fire {outputs : List Document} (fires : t.outputs? = some outputs)
    (h : (fire host t.rule t.event outputs).on t.modified = (.ok r, e')) :
    r = .rule t.rule ++ .total ((t.dispatches host).map (·.report host))
      ++ .total ((t.puts host).map .output) := by
  rw [fire_on host fires] at h
  cases lapse : t.lapse? host with
  | some f =>
    rw [lapse] at h
    cases h
  | none =>
    rw [lapse] at h
    obtain ⟨put, e₁, puts, h⟩ := of_bind_ok h
    obtain ⟨rfl, rfl⟩ := of_pure_ok h
    rw [puts_of_calm fires lapse, report_putOut puts]

/-- The report of a trial that comes to an end: the rule with its dispatches and
    its outputs if it fires, and otherwise at most an issue that blames it. -/
theorem report_of_result (h : t.result host = (.ok outcome, e')) :
    t.Fires ∧ outcome.report = .rule t.rule ++ .total ((t.dispatches host).map (·.report host))
        ++ .total ((t.puts host).map .output) ∨
      t.outputs? = none ∧
        (outcome.report = .empty ∨ ∃ f, outcome.report = .issue (blame f t.rule t.event)) := by
  cases t.course host with
  | passed none result =>
    rw [result] at h
    cases h
    exact .inr ⟨none, .inl rfl⟩
  | blamed f none result =>
    rw [result] at h
    cases h
    exact .inr ⟨none, .inr ⟨f, rfl⟩⟩
  | unchecked f none result =>
    rw [result] at h
    cases h
  | broken f none _ _ result =>
    rw [result] at h
    cases h
  | fired outputs some _ _ result =>
    rw [result] at h
    obtain ⟨r, e₁, fired, h⟩ := of_bind_ok h
    obtain ⟨rfl, rfl⟩ := of_pure_ok h
    exact .inl ⟨by rw [Fires, some]; rfl, report_fire some fired⟩

/-- A part of reports that does not tell which rules fired and which ones could
    not be evaluated: a trial adds to it by its dispatches and its outputs. -/
theorem part_of_result {part : Report → List β} (ruled : IsRuled part)
    (silent : ∀ rule, part (.rule rule) = [])
    (blameless : ∀ f rule event, part (.issue (blame f rule event)) = [])
    (h : t.result host = (.ok outcome, e')) :
    part outcome.report = (t.dispatches host).flatMap (fun d => part (d.report host))
      ++ (t.puts host).flatMap fun out => part (.output out) := by
  obtain ⟨-, report⟩ | ⟨none, report⟩ := report_of_result h
  · rw [report, ruled.append, ruled.append, silent, List.nil_append,
      Report.part_total ruled.empty ruled.append, Report.part_total ruled.empty ruled.append,
      List.flatMap_map, List.flatMap_map]
  · rw [puts_of_idle host none, dispatches, none]
    rcases report with report | ⟨f, report⟩ <;> rw [report]
    · exact ruled.empty
    · exact blameless f t.rule t.event

end Trial

/-- What a tick that comes to an end enqueued are the outputs of its trials. -/
theorem enqueued_tick (h : (tick host).on e = (.ok r, e')) :
    r.enqueued = (trials host e).flatMap (·.puts host) := by
  have ruled : IsRuled Report.enqueued :=
    ⟨rfl, fun _ _ => rfl, rfl, fun _ => rfl, fun _ => rfl, fun _ => rfl, fun _ _ => rfl⟩
  have dispatched (d : Dispatch η ω) : (d.report host).enqueued = [] := by
    unfold Dispatch.report
    cases d.failure? host <;> rfl
  refine part_tick ruled (fun t outcome e' result => ?_) h
  rw [Trial.part_of_result ruled (fun _ => rfl) (fun _ _ _ => rfl) result,
    List.flatMap_eq_nil_iff.mpr fun d _ => dispatched d, List.nil_append]
  exact List.flatMap_singleton' (t.puts host)

end Engine

end Cascade
