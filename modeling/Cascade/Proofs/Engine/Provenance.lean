-- SUMMARY: Where events come from: along every run each event was emitted by the host or put out by a rule on an event that came before, and its root is the emitted event at the start of this chain.
import Cascade.Proofs.Engine.Runs
import Cascade.Proofs.Engine.Trials

/-! # Provenance

Along a run events **arrive** in the queue: the host emits them, or rules put them
out in the trials of a tick. A trial is always on an event that has arrived before,
so what arrived can be traced back from cause to cause, and each chain of causes
begins with an event that the host emitted: the root of all events in it. This
goes for ticks that fail as well. When an overflow tells of the roots of what is
left, these are therefore emitted events, too. -/

namespace Cascade

open Attempt

/-! ## The roots of a queue -/

namespace Queue

/-- Elements gathered in the order in which they are first seen, behind some that
    have been seen before. -/
theorem gathered_eq {α : Type} [DecidableEq α] (xs seen : List α) :
    xs.foldl (fun seen x => if x ∈ seen then seen else seen ++ [x]) seen
      = seen ++ (xs.filter (· ∉ seen)).eraseDups := by
  induction xs generalizing seen with
  | nil => exact (List.append_nil seen).symm
  | cons x xs ih =>
    rw [List.foldl_cons, List.filter_cons]
    by_cases again : x ∈ seen
    · rw [if_pos again, ih, if_neg (by simpa using again)]
    · have both : xs.filter (· ∉ seen ++ [x])
          = (xs.filter (· ∉ seen)).filter fun y => !y == x := by
        rw [List.filter_filter]
        refine List.filter_congr fun y _ => ?_
        by_cases same : y = x <;> simp [same]
      rw [if_neg again, ih, if_pos (by simpa using again), List.eraseDups_cons, both,
        List.append_assoc]
      rfl

/-- The roots of a queue are those of its events, each where it is first seen. -/
theorem roots_eq (q : Queue) : q.roots = (q.pending.map (·.root)).eraseDups := by
  have gathered := gathered_eq (q.pending.map (·.root)) []
  rw [List.foldl_map, List.nil_append, List.filter_eq_self.mpr (by simp)] at gathered
  exact gathered

/-- Where something is pending there is a first root. -/
theorem head?_roots {q : Queue} (pending : q.pending ≠ []) : ∃ root, q.roots.head? = some root := by
  rw [roots_eq]
  cases hq : q.pending with
  | nil => exact absurd hq pending
  | cons event rest =>
    rw [List.map_cons, List.eraseDups_cons]
    exact ⟨event.root, rfl⟩

end Queue

namespace Engine

variable {η ω : Type} {host : Host η ω} {e e' : Engine η ω} {r : Report}

/-! ## Arrivals -/

/-- An event that was put into the queue, with the trial of the rule that put it
    out if the host did not emit it. -/
structure Arrival (η ω : Type) where
  event : Event
  origin : Option (Trial η ω)

def Trial.arrivals (host : Host η ω) (t : Trial η ω) : List (Arrival η ω) :=
  (t.puts host).map (⟨·, some t⟩)

/-- What arrives in trials is what they put out. -/
theorem events_arrivals (host : Host η ω) (ts : List (Trial η ω)) :
    (ts.flatMap (·.arrivals host)).map (·.event) = ts.flatMap (·.puts host) := by
  rw [List.map_flatMap]
  refine List.flatMap_congr fun t _ => ?_
  rw [Trial.arrivals, List.map_map]
  exact List.map_id _

/-- What arrives in a stage, whether it fails or not: the event that is emitted, or
    all that rules put out. -/
def Stage.arrivals (host : Host η ω) (s : Stage η ω) : List (Arrival η ω) :=
  match s.move with
  | .emit id payload => (Event.make id payload "" none).toOption.toList.map (⟨·, none⟩)
  | .tick => (trials host s.before).flatMap (·.arrivals host)
  | _ => []

def arrivals (host : Host η ω) (moves : List (Move η)) (e : Engine η ω) : List (Arrival η ω) :=
  (story host moves e).flatMap (·.arrivals host)

/-- An arrival can be traced to earlier ones. Either the host emitted it, and it has
    no cause and is its own root; or a rule that fired put it out on an event that
    had arrived earlier, and the rule is its cause and the root of the event its
    root. -/
def Arrival.IsTraced (host : Host η ω) (earlier : List (Arrival η ω)) (a : Arrival η ω) : Prop :=
  match a.origin with
  | none => a.event.id ≠ "" ∧ a.event.cause = none ∧ a.event.root = a.event.id
  | some t => a.event ∈ t.puts host ∧ t.Fires ∧ t.rule.event = t.event.id ∧
      (∃ b ∈ earlier, b.event = t.event) ∧
      a.event.cause = some t.rule.id ∧ a.event.root = t.event.root

namespace Arrival.IsTraced

variable {earlier later : List (Arrival η ω)} {a : Arrival η ω}

/-- An arrival that was emitted has a name, which is its root. -/
theorem root_of_emitted (h : a.IsTraced host earlier) (origin : a.origin = none) :
    a.event.id ≠ "" ∧ a.event.root = a.event.id := by
  rw [IsTraced, origin] at h
  exact ⟨h.1, h.2.2⟩

/-- An arrival that was put out has the root of an earlier one. -/
theorem root_of_put {t : Trial η ω} (h : a.IsTraced host earlier) (origin : a.origin = some t) :
    ∃ b ∈ earlier, b.event = t.event ∧ a.event.root = t.event.root := by
  rw [IsTraced, origin] at h
  obtain ⟨-, -, -, ⟨b, mem, same⟩, -, root⟩ := h
  exact ⟨b, mem, same, root⟩

theorem mono (h : a.IsTraced host earlier) (more : earlier ⊆ later) : a.IsTraced host later := by
  unfold IsTraced at h ⊢
  cases origin : a.origin with
  | none =>
    rw [origin] at h
    exact h
  | some t =>
    rw [origin] at h
    obtain ⟨put, fires, matched, ⟨b, mem, same⟩, caused⟩ := h
    exact ⟨put, fires, matched, ⟨b, more mem, same⟩, caused⟩

end Arrival.IsTraced

/-- Arrivals that can each be traced to those before it, of which there are some to
    begin with. -/
def AreTraced (host : Host η ω) : List (Arrival η ω) → List (Arrival η ω) → Prop
  | _, [] => True
  | earlier, a :: rest => a.IsTraced host earlier ∧ AreTraced host (earlier ++ [a]) rest

namespace AreTraced

variable {earlier as bs : List (Arrival η ω)}

theorem append (h : AreTraced host earlier as) (h' : AreTraced host (earlier ++ as) bs) :
    AreTraced host earlier (as ++ bs) := by
  induction as generalizing earlier with
  | nil =>
    rw [List.append_nil] at h'
    exact h'
  | cons a as ih =>
    refine ⟨h.1, ih h.2 ?_⟩
    rw [List.append_assoc]
    exact h'

/-- Arrivals each of which can be traced to what was there to begin with. -/
theorem of_forall (h : ∀ a ∈ as, a.IsTraced host earlier) : AreTraced host earlier as := by
  induction as generalizing earlier with
  | nil => trivial
  | cons a as ih =>
    obtain ⟨first, others⟩ := List.forall_mem_cons.mp h
    refine ⟨first, ih fun b mem => ?_⟩
    exact (others b mem).mono (List.subset_append_left earlier [a])

/-- Each of the arrivals can be traced to those before it. -/
theorem split {before after : List (Arrival η ω)} {a : Arrival η ω}
    (h : AreTraced host earlier (before ++ a :: after)) : a.IsTraced host (earlier ++ before) := by
  induction before generalizing earlier with
  | nil =>
    rw [List.append_nil]
    exact h.1
  | cons b before ih =>
    have later := ih h.2
    rw [List.append_assoc] at later
    exact later

/-- What has been traced has a root. -/
theorem rooted (h : AreTraced host earlier as) (known : ∀ b ∈ earlier, b.event.root ≠ "") :
    ∀ a ∈ earlier ++ as, a.event.root ≠ "" := by
  induction as generalizing earlier with
  | nil =>
    rw [List.append_nil]
    exact known
  | cons a as ih =>
    have root : a.event.root ≠ "" := by
      cases origin : a.origin with
      | none =>
        obtain ⟨named, root⟩ := h.1.root_of_emitted origin
        rw [root]
        exact named
      | some t =>
        obtain ⟨b, mem, same, root⟩ := h.1.root_of_put origin
        rw [root, ← same]
        exact known b mem
    have all := ih h.2 (List.forall_mem_append.mpr ⟨known, List.forall_mem_singleton.mpr root⟩)
    rw [List.append_assoc] at all
    exact all

end AreTraced

/-! ## Chains of causes -/

/-- An arrival goes back to another one, from cause to cause: it was put out on an
    event whose arrival was earlier and goes back to that one, unless it was emitted
    itself. -/
inductive GoesBack : List (Arrival η ω) → Arrival η ω → Arrival η ω → Prop
  | emitted {earlier : List (Arrival η ω)} {a : Arrival η ω} :
      a.origin = none → GoesBack earlier a a
  | caused {before after : List (Arrival η ω)} {a b o : Arrival η ω} {t : Trial η ω} :
      a.origin = some t → b.event = t.event → GoesBack before b o →
      GoesBack (before ++ b :: after) a o

/-- What an arrival goes back to has arrived. -/
theorem GoesBack.mem {earlier : List (Arrival η ω)} {a o : Arrival η ω}
    (h : GoesBack earlier a o) : o ∈ earlier ++ [a] := by
  induction h with
  | emitted _ => exact List.mem_append_right _ (List.mem_singleton_self _)
  | caused _ _ _ ih =>
    refine List.mem_append_left _ ?_
    rcases List.mem_append.mp ih with mem | mem
    · exact List.mem_append_left _ mem
    · rw [List.mem_singleton.mp mem]
      exact List.mem_append_right _ List.mem_cons_self

namespace AreTraced

variable {before after : List (Arrival η ω)} {a : Arrival η ω}

/-- Whatever can be traced goes back to something. -/
theorem goesBack (h : AreTraced host [] (before ++ a :: after)) : ∃ o, GoesBack before a o := by
  -- on how many arrivals are before: the one that it was put out on is among them
  induction hn : before.length using Nat.strong_induction_on generalizing before a after with
  | _ n ih =>
    cases origin : a.origin with
    | none => exact ⟨a, .emitted origin⟩
    | some t =>
      obtain ⟨b, mem, same, -⟩ := h.split.root_of_put origin
      obtain ⟨front, back, rfl⟩ := List.append_of_mem mem
      rw [List.length_append, List.length_cons] at hn
      rw [List.append_assoc] at h
      obtain ⟨o, chain⟩ := ih front.length (by omega) h rfl
      exact ⟨o, .caused origin same chain⟩

/-- What it goes back to was emitted, and the name of that is its root. -/
theorem root_of_goesBack {o : Arrival η ω} (h : AreTraced host [] (before ++ a :: after))
    (back : GoesBack before a o) : o.origin = none ∧ a.event.root = o.event.id := by
  induction back generalizing after with
  | emitted origin => exact ⟨origin, (h.split.root_of_emitted origin).2⟩
  | caused origin same _ ih =>
    obtain ⟨-, -, -, root⟩ := h.split.root_of_put origin
    rw [List.append_assoc] at h
    obtain ⟨emitted, name⟩ := ih h
    exact ⟨emitted, by rw [root, ← same, name]⟩

/-- The root of what can be traced was emitted. -/
theorem emitted_root {as : List (Arrival η ω)} (h : AreTraced host [] as) (mem : a ∈ as) :
    ∃ o ∈ as, o.origin = none ∧ o.event.id = a.event.root := by
  obtain ⟨before, after, rfl⟩ := List.append_of_mem mem
  obtain ⟨o, back⟩ := h.goesBack
  obtain ⟨emitted, name⟩ := h.root_of_goesBack back
  refine ⟨o, ?_, emitted, name.symm⟩
  rw [List.append_cons]
  exact List.mem_append_left after back.mem

end AreTraced

/-! ## Trials in order -/

/-- Every trial is on an event that is known to begin with, or was put out in a
    trial before. -/
def Causal (host : Host η ω) : List Event → List (Trial η ω) → Prop
  | _, [] => True
  | known, t :: ts => t.event ∈ known ∧ Causal host (known ++ t.puts host) ts

namespace Causal

variable {known : List Event} {ts ts' : List (Trial η ω)}

theorem append (h : Causal host known ts)
    (h' : Causal host (known ++ ts.flatMap (·.puts host)) ts') :
    Causal host known (ts ++ ts') := by
  induction ts generalizing known with
  | nil =>
    rw [List.flatMap_nil, List.append_nil] at h'
    exact h'
  | cons t ts ih =>
    refine ⟨h.1, ih h.2 ?_⟩
    rw [List.append_assoc]
    exact h'

theorem of_forall (h : ∀ t ∈ ts, t.event ∈ known) : Causal host known ts := by
  induction ts generalizing known with
  | nil => trivial
  | cons t ts ih =>
    obtain ⟨first, others⟩ := List.forall_mem_cons.mp h
    exact ⟨first, ih fun t' mem => List.mem_append_left (t.puts host) (others t' mem)⟩

/-- What arrives in trials can be traced if they are in order. -/
theorem areTraced {earlier : List (Arrival η ω)} (h : Causal host (earlier.map (·.event)) ts)
    (known : ∀ b ∈ earlier, b.event.root ≠ "") (matched : ∀ t ∈ ts, t.rule.event = t.event.id) :
    AreTraced host earlier (ts.flatMap (·.arrivals host)) := by
  -- on the trials: what one of them puts out is known to those after it
  induction ts generalizing earlier with
  | nil => trivial
  | cons t ts ih =>
    obtain ⟨waits, matched⟩ := List.forall_mem_cons.mp matched
    obtain ⟨b, mem, same⟩ := List.mem_map.mp h.1
    have rooted : t.event.root ≠ "" := same ▸ known b mem
    have first : AreTraced host earlier (t.arrivals host) := by
      refine .of_forall fun a arrived => ?_
      obtain ⟨out, put, rfl⟩ := List.mem_map.mp arrived
      obtain ⟨fires, -, cause, root, -⟩ := Trial.of_mem_puts out put
      rw [if_neg rooted] at root
      exact ⟨put, fires, waits, ⟨b, mem, same⟩, cause, root⟩
    have events : (t.arrivals host).map (·.event) = t.puts host := by
      rw [Trial.arrivals, List.map_map]
      exact List.map_id _
    refine first.append (ih ?_ (first.rooted known) matched)
    rw [List.map_append, events]
    exact h.2

/-- Trials that come after an attempt if it succeeds. -/
theorem onward {α : Type} {a : Attempt (Engine η ω) α} {next : α → Engine η ω → List (Trial η ω)}
    (h : ∀ x e', a.on e = (.ok x, e') → Causal host known (next x e')) :
    Causal host known (a.onward e next) := by
  rcases ha : a.on e with ⟨f | x, e'⟩
  · rw [onward_of_error ha]
    trivial
  · rw [onward_of_ok ha]
    exact h x e' ha

end Causal

/-! ## Ticks -/

theorem causal_trialsOf {known batch : List Event} (h : batch ⊆ known) :
    Causal host known (trialsOf host batch e) :=
  .of_forall fun t mem => h (mem_trialsOf batch e t mem)

theorem causal_trialsIn (outward : host.IsOutward) {known : List Event}
    (h : e.queue.pending ⊆ known) (allowed : Nat) :
    Causal host known (trialsIn host allowed e) := by
  -- on the passes that are allowed: the next one is on what this one puts out
  induction allowed using Nat.strong_induction_on generalizing e known with
  | _ allowed ih =>
    rw [trialsIn.eq_def]
    refine (causal_trialsOf h).append (.onward fun r e' passed => ?_)
    split
    · trivial
    · cases allowed with
      | zero => trivial
      | succ n =>
        have put := pending_pass outward e
        rw [passed] at put
        exact ih n n.lt_succ_self (put ▸ List.subset_append_right ..)

theorem causal_trials (outward : host.IsOutward) {known : List Event}
    (h : e.queue.pending ⊆ known) : Causal host known (trials host e) := by
  unfold trials
  split
  · trivial
  · exact causal_trialsIn (e := { e with draining := true }) outward h _

/-- A pass that fails ends the passes. -/
theorem passes_of_failed {f : Fault} (h : (pass host).on e = (.error f, e')) (allowed : Nat) :
    (passes host allowed e.queue.pending).on { e with queue := .empty } = (.error f, e') := by
  rw [pass, bind_of_ok (on_drain e)] at h
  have failed := (bind_fails_iff fun r k => ⟨Report.pass ++ r, k, on_pure _ k⟩).mp h
  rw [passes.eq_def]
  exact bind_of_error failed _

/-- An overflow leaves what is pending or nothing. -/
theorem suffix_overflow (e : Engine η ω) :
    (overflow.on e).2.queue.pending <:+ e.queue.pending := by
  rw [on_overflow]
  cases e.config.overflow with
  | drop => exact List.nil_suffix
  | defer => exact List.suffix_refl _

/-- Whatever comes of passes, what is pending then was put out last in their
    trials. -/
theorem suffix_passes (outward : host.IsOutward) (allowed : Nat) (e : Engine η ω) :
    ((passes host allowed e.queue.pending).on { e with queue := .empty }).2.queue.pending <:+
      (trialsIn host allowed e).flatMap (·.puts host) := by
  induction allowed using Nat.strong_induction_on generalizing e with
  | _ allowed ih =>
    rw [trialsIn.eq_def]
    dsimp only
    rw [List.flatMap_append, ← pending_pass outward e, flatMap_onward]
    rcases first : (pass host).on e with ⟨f | r, e₁⟩
    · rw [passes_of_failed first, onward_of_error first, List.append_nil]
    · rw [passes_after first, onward_of_ok first]
      split
      · rw [List.flatMap_nil, List.append_nil]
      · cases allowed with
        | zero =>
          rw [List.flatMap_nil, List.append_nil]
          dsimp only
          rw [left_then_pure]
          exact suffix_overflow e₁
        | succ n =>
          dsimp only
          rw [left_then_pure]
          exact (ih n n.lt_succ_self e₁).trans (List.suffix_append ..)

/-- Whatever comes of a tick, what is pending then was pending before or put out
    in its trials, and later than all that is not pending any more. -/
theorem suffix_tick (outward : host.IsOutward) (e : Engine η ω) :
    ((tick host).on e).2.queue.pending <:+
      e.queue.pending ++ (trials host e).flatMap (·.puts host) := by
  rw [tick_on, trials]
  split
  · rw [List.flatMap_nil, List.append_nil]
  · refine List.IsSuffix.trans ?_ (List.suffix_append ..)
    rw [drainAll_on]
    split
    · rename_i empty
      rw [empty]
      exact List.nil_suffix
    · exact suffix_passes outward _ { e with draining := true }

/-! ## Overflows -/

/-- A tick tells of an overflow only if some events are left over by its last pass,
    which it drops or defers. The issue lists their names and their roots, and it is
    about the first of these. -/
theorem overflow_of_tick (outward : host.IsOutward) (h : (tick host).on e = (.ok r, e')) :
    ∀ i ∈ r.issues, i.kind = .cascadeDepthExceeded →
      ∃ rs last root, Passes host { e with draining := true } rs last ∧
        last.queue.pending = r.dropped ++ r.deferred ∧
        last.queue.pending ⊆ e.queue.pending ++ r.enqueued ∧
        last.queue.roots.head? = some root ∧
        i = .ofText .cascadeDepthExceeded (overflowMessage e.config.maxDepth last.queue) none
          (some root) := by
  intro i mem deep
  obtain ⟨e₁, drained, rfl⟩ := tick_split h
  obtain ⟨rs, last, ended, left, passes, -, -, rfl, ending⟩ := drainAll_split drained
  have relayed := passes.relayed outward
  have conserved := passes.conserved outward
  rw [Report.issues_append, List.mem_append] at mem
  cases ending with
  | stopped _ =>
    have shallow := relayed.shallow i (mem.resolve_right nofun)
    exact absurd deep shallow
  | overflown _ _ remain exceeds =>
    have exceeds := overflow_overflown exceeds
    have mem : i ∈ ended.issues := mem.resolve_left fun mem => relayed.shallow i mem deep
    obtain ⟨root, first⟩ := Queue.head?_roots remain
    rw [exceeds.issues, List.mem_singleton, excess, relayed.config, first] at mem
    refine ⟨rs, last, root, passes, ?_, ?_, first, mem⟩
    · rw [Report.dropped_append, Report.deferred_append, relayed.dropped, relayed.deferred]
      have fate := exceeds.fate
      cases policy : last.config.overflow with
      | drop =>
        rw [policy] at fate
        rw [fate.2.1, fate.2.2]
        exact (List.append_nil _).symm
      | defer =>
        rw [policy] at fate
        rw [fate.2.1, fate.2.2]
        rfl
    · rw [Report.enqueued_append, exceeds.enqueued, List.append_nil]
      exact conserved ▸ List.subset_append_right ..

/-! ## Stages -/

/-- What arrives in a stage is what it puts into the queue: whatever comes of it,
    what is pending then is the end of what was pending before and what arrived, and
    if it comes to an end it reports what arrived. -/
structure Stage.Supplied (host : Host η ω) (s : Stage η ω) : Prop where
  left : s.after.queue.pending <:+
    s.before.queue.pending ++ (s.arrivals host).map (·.event)
  enqueued : s.outcome.isOk → s.report.enqueued = (s.arrivals host).map (·.event)

/-- In a move that leaves the queue alone nothing arrives. -/
theorem supplied_of_keeps {α : Type} {a : Attempt (Engine η ω) α} (h : Keeps queue a)
    {move : Move η} (silent : move.run host = Move.silently a)
    (none : (Stage.of host move e).arrivals host = []) :
    (Stage.of host move e).Supplied host where
  left := by
    rw [none, queue_of_keeps h silent]
    exact (List.append_nil e.queue.pending).symm ▸ List.suffix_refl _
  enqueued _ := by
    rw [none, report_of_silent silent]
    rfl

theorem supplied_emit (id : Document) (payload : List (String × Datum)) :
    (Stage.of host (.emit id payload) e).Supplied host := by
  have arrived : (Stage.of host (.emit id payload) e).arrivals host
      = (Event.make id payload "" none).toOption.toList.map (⟨·, none⟩) := rfl
  have outcome : (Stage.of host (.emit id payload) e).outcome
      = (Event.make id payload "" none).map .output := by
    simp only [Stage.of, run_emit_on]
    cases Event.make id payload "" none <;> rfl
  have after : (Stage.of host (.emit id payload) e).after.queue.pending
      = e.queue.pending ++ (Event.make id payload "" none).toOption.toList := by
    simp only [Stage.of, run_emit_on]
    cases Event.make id payload "" none with
    | ok event => rfl
    | error f => exact (List.append_nil _).symm
  have events : ((Event.make id payload "" none).toOption.toList.map fun event =>
      (⟨event, none⟩ : Arrival η ω)).map (·.event)
        = (Event.make id payload "" none).toOption.toList := by
    rw [List.map_map]
    exact List.map_id _
  constructor
  · rw [arrived, events, after]
    exact List.suffix_refl _
  · intro _
    rw [arrived, events, Stage.report, outcome]
    cases Event.make id payload "" none <;> rfl

theorem supplied_tick (outward : host.IsOutward) : (Stage.of host .tick e).Supplied host where
  left := by
    have arrived : (Stage.of host .tick e).arrivals host
        = (trials host e).flatMap (·.arrivals host) := rfl
    rw [arrived, events_arrivals]
    exact suffix_tick outward e
  enqueued ok := by
    obtain ⟨r, e', h⟩ := tick_of_isOk ok
    have arrived : (Stage.of host .tick e).arrivals host
        = (trials host e).flatMap (·.arrivals host) := rfl
    rw [arrived, events_arrivals, ← enqueued_tick h]
    simp only [Stage.report, Stage.of, Move.run, h]
    rfl

/-- Every move puts what arrives into the queue, whatever comes of it. -/
theorem supplied_of_move (outward : host.IsOutward) (move : Move η) (e : Engine η ω) :
    (Stage.of host move e).Supplied host := by
  cases move with
  | load rules scope => exact supplied_of_keeps (keeps_load rules scope) rfl rfl
  | registerRule rule scope => exact supplied_of_keeps (keeps_registerRule rule scope) rfl rfl
  | registerAction action handler =>
    exact supplied_of_keeps (keeps_registerAction action handler) rfl rfl
  | enterContext scope => exact supplied_of_keeps (keeps_enterContext scope) rfl rfl
  | exitContext scope => exact supplied_of_keeps (keeps_exitContext scope) rfl rfl
  | emit id payload => exact supplied_emit id payload
  | tick => exact supplied_tick outward

/-- What arrives in a stage can be traced if all that was pending before had arrived
    and had a root. -/
theorem traced_of_move (outward : host.IsOutward) (move : Move η) {earlier : List (Arrival η ω)}
    (known : e.queue.pending ⊆ earlier.map (·.event)) (rooted : ∀ b ∈ earlier, b.event.root ≠ "") :
    AreTraced host earlier ((Stage.of host move e).arrivals host) := by
  cases move with
  | emit id payload =>
    refine .of_forall fun a mem => ?_
    obtain ⟨event, made, rfl⟩ := List.mem_map.mp mem
    cases h : Event.make id payload "" none with
    | error f =>
      rw [h] at made
      cases made
    | ok event' =>
      rw [h] at made
      obtain rfl : event = event' := List.mem_singleton.mp made
      obtain ⟨named, cause, root, -⟩ := Event.of_make h
      rw [if_pos rfl] at root
      exact ⟨named, cause, root⟩
  | tick => exact (causal_trials outward known).areTraced rooted matched_trials
  | _ => trivial

/-! ## Runs -/

/-- What arrives along a run can be traced if all that was pending before had arrived
    and had a root. -/
theorem traced_story (outward : host.IsOutward) (moves : List (Move η)) (e : Engine η ω)
    {earlier : List (Arrival η ω)} (known : e.queue.pending ⊆ earlier.map (·.event))
    (rooted : ∀ b ∈ earlier, b.event.root ≠ "") :
    AreTraced host earlier (arrivals host moves e) := by
  induction moves generalizing e earlier with
  | nil => trivial
  | cons move moves ih =>
    have first := traced_of_move outward move known rooted
    rw [arrivals, story, List.flatMap_cons]
    refine first.append (ih _ ?_ (first.rooted rooted))
    rw [List.map_append]
    refine List.Subset.trans (supplied_of_move outward move e).left.subset ?_
    exact List.append_subset.mpr
      ⟨List.subset_append_of_subset_left _ known, List.subset_append_right ..⟩

/-- Whatever is pending when a stage of a run begins was pending before the run or
    arrives along it. -/
theorem pending_story (outward : host.IsOutward) (moves : List (Move η)) (e : Engine η ω) :
    ∀ s ∈ story host moves e,
      s.before.queue.pending ⊆ e.queue.pending ++ (arrivals host moves e).map (·.event) := by
  induction moves generalizing e with
  | nil => exact List.forall_mem_nil _
  | cons move moves ih =>
    have step := (supplied_of_move outward move e).left.subset
    have all : (arrivals host (move :: moves) e).map (·.event)
        = ((Stage.of host move e).arrivals host).map (·.event)
          ++ (arrivals host moves (Stage.of host move e).after).map (·.event) := by
      rw [arrivals, story, List.flatMap_cons, List.map_append]
      rfl
    rw [all]
    refine List.forall_mem_cons.mpr ⟨List.subset_append_left .., fun s mem => ?_⟩
    refine List.Subset.trans (ih _ s mem) ?_
    rw [← List.append_assoc]
    exact List.append_subset.mpr
      ⟨List.subset_append_of_subset_left _ step, List.subset_append_right ..⟩

/-- Only a tick that comes to an end reports issues. -/
theorem tick_of_issue {move : Move η} {i : Issue} (h : i ∈ (Stage.of host move e).report.issues) :
    ∃ e', move = .tick ∧ (tick host).on e = (.ok (Stage.of host move e).report, e') := by
  have loud {α : Type} {a : Attempt (Engine η ω) α} (silent : move.run host = Move.silently a) :
      False := by
    rw [report_of_silent silent] at h
    cases h
  cases move with
  | load rules scope => exact (loud rfl).elim
  | registerRule rule scope => exact (loud rfl).elim
  | registerAction action handler => exact (loud rfl).elim
  | enterContext scope => exact (loud rfl).elim
  | exitContext scope => exact (loud rfl).elim
  | emit id payload =>
    simp only [Stage.report, Stage.of, run_emit_on] at h
    cases made : Event.make id payload "" none <;> rw [made] at h <;> cases h
  | tick =>
    rcases ht : (tick host).on e with ⟨f | r, e'⟩ <;>
      simp only [Stage.report, Stage.of, Move.run, ht] at h ⊢
    · cases h
    · exact ⟨e', trivial, rfl⟩

/-- Along every run from an empty queue, whatever arrives was emitted by the host,
    and then it has no cause and is its own root, or a rule that fired put it out on
    an event that had arrived earlier, and then the rule is its cause and the root of
    the event its root. So it goes back, from cause to cause, to an event that was
    emitted, and wherever it goes back to has its root for a name. What arrives is all
    that was ever put into the queue. An overflow tells of the roots of the events that
    are left over by the last pass, each where it is first seen. It is about the first
    of them, which there always is, and all of them were emitted. -/
theorem run_provenance (outward : host.IsOutward) (moves : List (Move η))
    (fresh : e.queue.pending = []) :
    (∀ before a after, arrivals host moves e = before ++ a :: after →
      a.IsTraced host before ∧ (∃ o ∈ before ++ [a], GoesBack before a o) ∧
        ∀ o, GoesBack before a o → o.origin = none ∧ a.event.root = o.event.id) ∧
    ∀ s ∈ story host moves e, s.Supplied host ∧
      ∀ i ∈ s.report.issues, i.kind = .cascadeDepthExceeded →
        ∃ rs last root, Passes host { s.before with draining := true } rs last ∧
          last.queue.pending = s.report.dropped ++ s.report.deferred ∧
          last.queue.roots = (last.queue.pending.map (·.root)).eraseDups ∧
          last.queue.roots.head? = some root ∧
          i = .ofText .cascadeDepthExceeded
            (overflowMessage s.before.config.maxDepth last.queue) none (some root) ∧
          ∀ name ∈ last.queue.roots,
            ∃ o ∈ arrivals host moves e, o.origin = none ∧ o.event.id = name := by
  have traced : AreTraced host [] (arrivals host moves e) := by
    refine traced_story outward moves e ?_ (List.forall_mem_nil _)
    rw [fresh]
    exact List.Subset.refl _
  refine ⟨fun before a after cut => ?_, fun s mem => ?_⟩
  · rw [cut] at traced
    obtain ⟨o, back⟩ := traced.goesBack
    exact ⟨traced.split, ⟨o, back.mem, back⟩, fun o back => traced.root_of_goesBack back⟩
  · have supplied : s.Supplied host := by
      rw [eq_of_mem_story mem]
      exact supplied_of_move outward s.move s.before
    refine ⟨supplied, fun i issue deep => ?_⟩
    have ⟨e', ticks, h⟩ : ∃ e', s.move = .tick ∧ (tick host).on s.before = (.ok s.report, e') := by
      rw [eq_of_mem_story mem] at issue ⊢
      exact tick_of_issue issue
    obtain ⟨rs, last, root, passes, left, seen, first, same⟩ := overflow_of_tick outward h i issue deep
    refine ⟨rs, last, root, passes, left, last.queue.roots_eq, first, same, fun name among => ?_⟩
    have before : s.before.queue.pending ⊆ (arrivals host moves e).map (·.event) := by
      have known := pending_story outward moves e s mem
      rw [fresh, List.nil_append] at known
      exact known
    have within : s.report.enqueued ⊆ (arrivals host moves e).map (·.event) := by
      have ok : s.outcome.isOk := by
        rw [eq_of_mem_story mem, ticks]
        simp only [Stage.of, Move.run, h]
        rfl
      rw [supplied.enqueued ok]
      exact List.map_subset _ fun a arrived => List.mem_flatMap.mpr ⟨s, mem, arrived⟩
    rw [last.queue.roots_eq, List.mem_eraseDups] at among
    obtain ⟨event, waits, rfl⟩ := List.mem_map.mp among
    obtain ⟨a, arrived, rfl⟩ :=
      List.mem_map.mp (List.append_subset.mpr ⟨before, within⟩ (seen waits))
    exact traced.emitted_root arrived

namespace Spiral

/-- The last of the six events that arrive is caused by the rule, and it goes back to
    an event that was emitted and is named by its root. -/
theorem twice_goes_back :
    ∃ before a o, arrivals (.ofReaction .silent) twice idle = before ++ [a] ∧
      before.length = 5 ∧ a.event.cause = some turn.id ∧ GoesBack before a o ∧ o.origin = none ∧
      a.event.root = o.event.id := by
  let as := arrivals (.ofReaction .silent) twice idle
  have causes : (as.drop 5).map (·.event.cause) = [some turn.id] := by decide +kernel
  have length : (as.take 5).length = 5 := by decide +kernel
  obtain ⟨a, last, cause⟩ : ∃ a, as.drop 5 = [a] ∧ a.event.cause = some turn.id := by
    obtain ⟨a, last⟩ := List.length_eq_one_iff.mp (List.length_map _ ▸ congrArg List.length causes)
    rw [last] at causes
    exact ⟨a, last, List.head_eq_of_cons_eq causes⟩
  have cut : as = as.take 5 ++ a :: [] := by rw [← last, List.take_append_drop]
  obtain ⟨traces, -⟩ :=
    run_provenance (Host.isOutward_ofReaction Reaction.silent) twice (e := idle) rfl
  obtain ⟨-, ⟨o, -, back⟩, all⟩ := traces _ _ _ cut
  exact ⟨as.take 5, a, o, cut, length, cause, back, all o back⟩

end Spiral

end Engine

end Cascade
