-- SUMMARY: A tick as a sequence of passes: each processes what the one before it enqueued, and a bound on their number ends them.
import Cascade.Proofs.Engine.Accounts

/-! # Passes

A pass takes the queue over and processes it. With outward handlers the queue
after a pass holds what the pass enqueued, so that is what the next pass
processes. A tick is one pass after the other as long as there is something to
process and one more pass is allowed. -/

namespace Cascade

open Attempt

def Report.total (rs : List Report) : Report := rs.foldr (· ++ ·) .empty

def Report.overflows (r : Report) : Nat := r.issues.countP (·.kind = .cascadeDepthExceeded)

theorem Report.overflows_append (r r' : Report) :
    (r ++ r').overflows = r.overflows + r'.overflows :=
  List.countP_append

theorem Report.total_cons (r : Report) (rs : List Report) : total (r :: rs) = r ++ total rs := rfl

theorem Report.total_append (rs rs' : List Report) : total (rs ++ rs') = total rs ++ total rs' := by
  induction rs with
  | nil => exact (empty_append _).symm
  | cons r rs ih => rw [List.cons_append, total_cons, total_cons, ih, append_assoc]

/-- A list that reports keep of what happened is kept of all of it. -/
theorem Report.part_total {α : Type} {part : Report → List α} (nothing : part .empty = [])
    (append : ∀ r r', part (r ++ r') = part r ++ part r') (rs : List Report) :
    part (total rs) = rs.flatMap part := by
  induction rs with
  | nil => exact nothing
  | cons r rs ih => rw [total_cons, append, ih, List.flatMap_cons]

theorem Report.processed_total (rs : List Report) :
    (total rs).processed = rs.flatMap (·.processed) := part_total rfl (fun _ _ => rfl) rs

theorem Report.enqueued_total (rs : List Report) :
    (total rs).enqueued = rs.flatMap (·.enqueued) := part_total rfl (fun _ _ => rfl) rs

theorem Report.issues_total (rs : List Report) :
    (total rs).issues = rs.flatMap (·.issues) := part_total rfl (fun _ _ => rfl) rs

namespace Engine

variable {η ω : Type}

/-! ## One pass -/

/-- Takes the queue over and processes it. -/
def pass (host : Host η ω) : Attempt (Engine η ω) Report := do
  let batch ← drain
  return .pass ++ (← processAll host batch)

/-- What a pass leaves and reports: it processed what was pending, and what is
    pending now it has enqueued. -/
structure Passed (e : Engine η ω) (r : Report) (e' : Engine η ω) : Prop
    extends Smooth e r e' where
  processed : r.processed = e.queue.pending
  queue : e'.queue.pending = r.enqueued
  passes : r.passes = 1

variable {host : Host η ω} {e e₁ e' : Engine η ω} {r : Report}

theorem Smooth.overflows (h : Smooth e r e') : r.overflows = 0 := by
  refine List.countP_eq_zero.mpr fun i hi => ?_
  simpa using h.shallow i hi

theorem on_drain (e : Engine η ω) :
    drain.on e = (.ok e.queue.pending, { e with queue := .empty }) := rfl

/-- Draining an empty queue changes nothing. -/
theorem drained_of_empty (h : e.queue.pending = []) : { e with queue := .empty } = e := by
  rcases e with ⟨_, _, _, _, _, ⟨_⟩⟩
  cases h
  rfl

/-- A pass is the processing of what was pending. -/
theorem pass_of_processAll
    (h : (processAll host e.queue.pending).on { e with queue := .empty } = (.ok r, e')) :
    (pass host).on e = (.ok (.pass ++ r), e') := by
  rw [pass, bind_of_ok (on_drain e), bind_of_ok h]
  rfl

theorem pass_passed (outward : host.IsOutward) (h : (pass host).on e = (.ok r, e')) :
    Passed e r e' := by
  obtain ⟨batch, e₁, drained, h⟩ := of_bind_ok h
  obtain ⟨r₁, e₂, processed, h⟩ := of_bind_ok h
  obtain ⟨rfl, rfl⟩ := of_pure_ok h
  cases drained
  have accounts := processAll_accounts outward processed
  exact
    { accounts with
      config := accounts.config
      sink := accounts.sink
      passes := congrArg (1 + ·) accounts.passes }

/-! ## Passes one after the other -/

/-- Passes that each found something to process, with their reports. -/
inductive Passes (host : Host η ω) : Engine η ω → List Report → Engine η ω → Prop
  | rest (e : Engine η ω) : Passes host e [] e
  | next {e e₁ e₂ : Engine η ω} {r : Report} {rs : List Report} :
      e.queue.pending ≠ [] → (pass host).on e = (.ok r, e₁) → Passes host e₁ rs e₂ →
      Passes host e (r :: rs) e₂

/-- What passes leave and report together: each of them processed what the one
    before it had enqueued, the first one what was pending, and what is pending
    now is what the last one enqueued. -/
structure Relayed (e : Engine η ω) (rs : List Report) (e' : Engine η ω) : Prop
    extends Smooth e (Report.total rs) e' where
  relay : rs.map (·.processed) = (e.queue.pending :: rs.map (·.enqueued)).take rs.length
  queue : e'.queue.pending = (rs.getLast?.map (·.enqueued)).getD e.queue.pending
  passes : (Report.total rs).passes = rs.length

theorem Relayed.rest (e : Engine η ω) : Relayed e [] e where
  toSmooth := .rest e
  relay := rfl
  queue := rfl
  passes := rfl

theorem Relayed.next {e e₁ e₂ : Engine η ω} {r : Report} {rs : List Report}
    (first : Passed e r e₁) (others : Relayed e₁ rs e₂) : Relayed e (r :: rs) e₂ where
  toSmooth := first.toSmooth.append others.toSmooth
  relay := by
    simp only [List.map_cons, List.length_cons, List.take_succ_cons, first.processed,
      others.relay, first.queue]
  queue := by
    rw [others.queue, first.queue, List.getLast?_cons]
    cases rs.getLast? <;> rfl
  passes := by
    rw [Report.total_cons, Report.passes_append, first.passes, others.passes, List.length_cons,
      Nat.add_comm]

theorem Passes.relayed (outward : host.IsOutward) {rs : List Report} (h : Passes host e rs e') :
    Relayed e rs e' := by
  induction h with
  | rest e => exact .rest e
  | next _ first _ ih => exact .next (pass_passed outward first) ih

/-! ## How passes end -/

/-- The issue that tells of an overflow. -/
def excess (e : Engine η ω) : Issue :=
  .ofText .cascadeDepthExceeded (overflowMessage e.config.maxDepth e.queue) none
    e.queue.roots.head?

/-- An overflow drops the queue or defers it, and tells of it once. -/
theorem on_overflow (e : Engine η ω) :
    overflow.on e = match e.config.overflow with
      | .drop => (.ok (.dropping e.queue.pending ++ .issue e.excess),
          told e.excess { e with queue := .empty })
      | .defer => (.ok (.deferring e.queue.pending ++ .issue e.excess), e.told e.excess) := by
  rw [overflow, bind_of_ok (on_get e)]
  cases hp : e.config.overflow with
  | drop => simp only [on_bind, on_set, on_pure, on_raise, excess]
  | defer => simp only [on_bind, on_pure, on_raise, excess]

structure Overflown (e : Engine η ω) (r : Report) (e' : Engine η ω) : Prop where
  passes : r.passes = 0
  processed : r.processed = []
  enqueued : r.enqueued = []
  exceeded : r.exceeded = true
  issues : r.issues = [e.excess]
  sink : e'.sink = (e.sink.report e.excess).1
  fate : match e.config.overflow with
    | .drop => e'.queue.pending = [] ∧ r.dropped = e.queue.pending ∧ r.deferred = []
    | .defer => e'.queue.pending = e.queue.pending ∧ r.dropped = [] ∧
        r.deferred = e.queue.pending

theorem overflow_overflown (h : overflow.on e = (.ok r, e')) : Overflown e r e' := by
  rw [on_overflow] at h
  cases policy : e.config.overflow with
  | drop =>
    rw [policy] at h
    cases h
    exact ⟨rfl, rfl, rfl, rfl, rfl, rfl, by rw [policy]; exact ⟨rfl, List.append_nil _, rfl⟩⟩
  | defer =>
    rw [policy] at h
    cases h
    exact ⟨rfl, rfl, rfl, rfl, rfl, rfl, by rw [policy]; exact ⟨rfl, rfl, List.append_nil _⟩⟩

/-- How passes come to an end, with some passes left that would have been
    allowed: nothing is pending or a depth of zero allows one pass only, or else
    none are left. -/
inductive Ending (left : Nat) : Engine η ω → Report → Engine η ω → Prop
  | stopped {e : Engine η ω} :
      e.queue.pending = [] ∨ e.config.maxDepth = 0 → Ending left e .empty e
  | overflown {e e' : Engine η ω} {r : Report} :
      left = 0 → 0 < e.config.maxDepth → e.queue.pending ≠ [] → overflow.on e = (.ok r, e') →
      Ending left e r e'

/-- What passes do after the first one. -/
theorem passes_after (first : (pass host).on e = (.ok r, e₁)) (allowed : Nat) :
    (passes host allowed e.queue.pending).on { e with queue := .empty }
      = if e₁.queue.pending = [] ∨ e₁.config.maxDepth = 0 then (.ok r, e₁)
        else match allowed with
        | 0 => (do return r ++ (← overflow) : Attempt _ Report).on e₁
        | n + 1 => (do return r ++ (← passes host n e₁.queue.pending) : Attempt _ Report).on
            { e₁ with queue := .empty } := by
  obtain ⟨batch, e₀, drained, h⟩ := of_bind_ok first
  obtain ⟨r₀, e₀', processed, h⟩ := of_bind_ok h
  obtain ⟨rfl, rfl⟩ := of_pure_ok h
  cases drained
  rw [passes.eq_def]
  refine (bind_of_ok processed _).trans ((bind_of_ok (on_get _) _).trans ?_)
  by_cases ended : e₀'.queue.pending = [] ∨ e₀'.config.maxDepth = 0
  · have stop : (e₀'.queue.isEmpty || decide (e₀'.config.maxDepth = 0)) = true := by
      simpa [Queue.isEmpty] using ended
    simp only [stop, if_true, if_pos ended, on_pure]
  · have go : (e₀'.queue.isEmpty || decide (e₀'.config.maxDepth = 0)) = false := by
      simpa [Queue.isEmpty] using ended
    simp only [go, if_neg ended]
    cases allowed with
    | zero => rfl
    | succ n => rfl

/-- Passes begin with one pass, and it ends them or is followed by an overflow
    or by further passes. -/
theorem passes_first {allowed : Nat}
    (h : (passes host allowed e.queue.pending).on { e with queue := .empty } = (.ok r, e')) :
    ∃ r₁ e₁, (pass host).on e = (.ok r₁, e₁) ∧
      ((e₁.queue.pending = [] ∨ e₁.config.maxDepth = 0) ∧ r = r₁ ∧ e' = e₁ ∨
        e₁.queue.pending ≠ [] ∧ 0 < e₁.config.maxDepth ∧ ∃ r₂, r = r₁ ++ r₂ ∧
          match allowed with
          | 0 => overflow.on e₁ = (.ok r₂, e')
          | n + 1 => (passes host n e₁.queue.pending).on { e₁ with queue := .empty }
              = (.ok r₂, e')) := by
  have began := h
  rw [passes.eq_def] at began
  obtain ⟨r₁, e₁, processed, -⟩ := of_bind_ok began
  have first := pass_of_processAll processed
  refine ⟨.pass ++ r₁, e₁, first, ?_⟩
  rw [passes_after first] at h
  split at h
  · rename_i ended
    cases h
    exact .inl ⟨ended, rfl, rfl⟩
  · rename_i ended
    rw [not_or] at ended
    refine .inr ⟨ended.1, Nat.pos_of_ne_zero ended.2, ?_⟩
    cases allowed with
    | zero =>
      obtain ⟨r₂, e₂, exceeds, h⟩ := of_bind_ok h
      obtain ⟨rfl, rfl⟩ := of_pure_ok h
      exact ⟨r₂, rfl, exceeds⟩
    | succ n =>
      obtain ⟨r₂, e₂, further, h⟩ := of_bind_ok h
      obtain ⟨rfl, rfl⟩ := of_pure_ok h
      exact ⟨r₂, rfl, further⟩

/-- The passes of a tick: there are no more than allowed, and they come to an
    end in one of the ways there are. -/
theorem passes_split {allowed : Nat} (pending : e.queue.pending ≠ [])
    (h : (passes host allowed e.queue.pending).on { e with queue := .empty } = (.ok r, e')) :
    ∃ rs last ended left, Passes host e rs last ∧ rs ≠ [] ∧ rs.length + left = allowed + 1 ∧
      r = Report.total rs ++ ended ∧ Ending left last ended e' := by
  -- on the passes still allowed after the first: each of them takes up what the one before left
  induction allowed generalizing e r with
  | zero =>
    obtain ⟨r₁, e₁, first, ⟨stopped, rfl, rfl⟩ | ⟨remain, deep, r₂, rfl, exceeds⟩⟩ := passes_first h
    · refine ⟨[r], e', .empty, 0, .next pending first (.rest _), nofun, rfl, ?_, ?_⟩
      · simp [Report.total]
      · exact .stopped stopped
    · refine ⟨[r₁], e₁, r₂, 0, .next pending first (.rest _), nofun, rfl, ?_, ?_⟩
      · simp [Report.total]
      · exact .overflown rfl deep remain exceeds
  | succ n ih =>
    obtain ⟨r₁, e₁, first, ⟨stopped, rfl, rfl⟩ | ⟨remain, deep, r₂, rfl, further⟩⟩ :=
      passes_first h
    · refine ⟨[r], e', .empty, n + 1, .next pending first (.rest _), nofun, ?_, ?_, ?_⟩
      · simp only [List.length_singleton]
        omega
      · simp [Report.total]
      · exact .stopped stopped
    · obtain ⟨rs, last, ended, left, others, -, count, rfl, ending⟩ := ih remain further
      refine ⟨r₁ :: rs, last, ended, left, .next pending first others, nofun, ?_, ?_, ending⟩
      · simp only [List.length_cons]
        omega
      · rw [Report.total_cons, Report.append_assoc]

/-! ## Ticks -/

/-- A tick within another one is refused. Any other is the draining of the queue,
    but for the mark that it runs. -/
theorem tick_on (host : Host η ω) (e : Engine η ω) :
    (tick host).on e
      = if e.draining then (.error .alreadyDraining, e)
        else (((drainAll host).on { e with draining := true }).1,
          { ((drainAll host).on { e with draining := true }).2 with draining := false }) := by
  rw [tick, bind_of_ok (on_get e)]
  cases busy : e.draining with
  | true => simp only [if_true, on_bind, on_throw]
  | false =>
    simp only [Bool.false_eq_true, if_false, setDraining, on_bind, on_modify, on_caught,
      on_ofExcept]

/-- A tick that comes to an end was not called within another one. -/
theorem idle_of_tick (h : (tick host).on e = (.ok r, e')) : e.draining = false := by
  by_contra busy
  rw [tick_on, if_pos (by simpa using busy)] at h
  cases h

theorem tick_split (h : (tick host).on e = (.ok r, e')) :
    ∃ e₁, (drainAll host).on { e with draining := true } = (.ok r, e₁) ∧
      e' = { e₁ with draining := false } := by
  have idle : ¬e.draining = true := by simp [idle_of_tick h]
  rw [tick_on, if_neg idle] at h
  obtain ⟨same, rfl⟩ := Prod.mk.inj h
  exact ⟨_, Prod.ext same rfl, rfl⟩

theorem drainAll_split (h : (drainAll host).on e = (.ok r, e')) :
    ∃ rs last ended left, Passes host e rs last ∧ (rs = [] ↔ e.queue.pending = []) ∧
      rs.length + left = e.config.maxDepth + 1 ∧ r = Report.total rs ++ ended ∧
      Ending left last ended e' := by
  rw [drainAll, bind_of_ok (on_drain e)] at h
  by_cases pending : e.queue.pending = []
  · simp only [pending, List.isEmpty_nil, if_true] at h
    obtain ⟨rfl, rfl⟩ := of_pure_ok h
    rw [drained_of_empty pending]
    refine ⟨[], e, .empty, e.config.maxDepth + 1, .rest e, by simp [pending], Nat.zero_add _, ?_, ?_⟩
    · simp [Report.total]
    · exact .stopped (.inl pending)
  · simp only [List.isEmpty_eq_false_iff.mpr pending] at h
    obtain ⟨_, _, got, h⟩ := of_bind_ok h
    cases got
    obtain ⟨rs, last, ended, left, passes, made, rest⟩ := passes_split pending h
    exact ⟨rs, last, ended, left, passes, by simp [made, pending], rest⟩

/-- A tick makes at most as many passes as the depth allows and one more, and it
    makes none exactly if nothing was pending. If events are left over after the
    last pass that is allowed, and a positive depth was set, it tells of that
    once and drops or keeps exactly those events, which are the ones that the
    last pass enqueued. Otherwise it tells of no overflow, and nothing is pending
    afterwards unless the depth is zero. -/
theorem tick_bounded (outward : host.IsOutward) (h : (tick host).on e = (.ok r, e')) :
    ∃ rs last, Passes host { e with draining := true } rs last ∧
      r.passes = rs.length ∧ r.passes ≤ e.config.maxDepth + 1 ∧
      (r.passes = 0 ↔ e.queue.pending = []) ∧
      (∀ final, rs.getLast? = some final → last.queue.pending = final.enqueued) ∧
      e'.sink = r.issues.foldl (fun sink i => (sink.report i).1) e.sink ∧
      (0 < e.config.maxDepth ∧ r.passes = e.config.maxDepth + 1 ∧ last.queue.pending ≠ [] →
        r.exceeded = true ∧ r.overflows = 1 ∧
        match e.config.overflow with
        | .drop => e'.queue.pending = [] ∧ r.dropped = last.queue.pending ∧ r.deferred = []
        | .defer => e'.queue.pending = last.queue.pending ∧ r.dropped = [] ∧
            r.deferred = last.queue.pending) ∧
      (¬(0 < e.config.maxDepth ∧ r.passes = e.config.maxDepth + 1 ∧ last.queue.pending ≠ []) →
        r.exceeded = false ∧ r.overflows = 0 ∧ r.dropped = [] ∧ r.deferred = [] ∧
        e'.queue.pending = if e.config.maxDepth = 0 then last.queue.pending else []) := by
  obtain ⟨e₁, drained, rfl⟩ := tick_split h
  obtain ⟨rs, last, ended, left, passes, idle, count, rfl, ending⟩ := drainAll_split drained
  have count : rs.length + left = e.config.maxDepth + 1 := count
  have relayed := passes.relayed outward
  -- handlers cannot change the settings, so the depth is the same for every pass
  have depth : last.config.maxDepth = e.config.maxDepth := congrArg Config.maxDepth relayed.config
  have final : ∀ final, rs.getLast? = some final → last.queue.pending = final.enqueued := by
    intro final hf
    rw [relayed.queue, hf]
    rfl
  have idle : rs.length = 0 ↔ e.queue.pending = [] := by
    rw [List.length_eq_zero_iff]
    exact idle
  refine ⟨rs, last, passes, ?_⟩
  cases ending with
  | stopped stopped =>
    rw [Report.append_empty, relayed.passes, relayed.exceeded, relayed.overflows,
      relayed.dropped, relayed.deferred]
    refine ⟨rfl, by omega, idle, final, relayed.sink, ?_, ?_⟩
    · rintro ⟨deep, -, remain⟩
      rcases stopped with empty | zero
      · exact absurd empty remain
      · omega
    · intro _
      refine ⟨rfl, rfl, rfl, rfl, ?_⟩
      by_cases zero : e.config.maxDepth = 0
      · rw [if_pos zero]
      · rw [if_neg zero]
        exact stopped.resolve_right (depth ▸ zero)
  | overflown none deep remain exceeds =>
    have exceeds := overflow_overflown exceeds
    have once : (Report.total rs ++ ended).overflows = 1 := by
      rw [Report.overflows_append, relayed.overflows, Report.overflows, exceeds.issues]
      rfl
    rw [once, Report.passes_append, Report.exceeded_append, Report.dropped_append,
      Report.deferred_append, Report.issues_append, List.foldl_append, relayed.passes,
      relayed.exceeded, relayed.dropped, relayed.deferred, exceeds.passes, exceeds.exceeded,
      exceeds.issues]
    have fate := exceeds.fate
    rw [relayed.config] at fate
    refine ⟨rfl, by omega, idle, final, ?_, fun _ => ⟨rfl, rfl, fate⟩, ?_⟩
    · rw [exceeds.sink, relayed.sink]
      rfl
    · intro stopped
      exact absurd ⟨by omega, by omega, remain⟩ stopped

namespace Spiral

/-- A rule that puts out the event it waits for. -/
def turn : Rule :=
  ⟨"turn", "go", .always, [], [], ["go"], .bool false, .int 0, .bool true⟩

/-- An engine of depth one with that rule, on which its event is pending. -/
def engine : Engine Unit Unit :=
  { ofConfig { Config.default with maxDepth := 1 } (.collecting []) () with
    registry := Registry.empty.append Registry.globalScope [turn]
    queue := ⟨[⟨"go", ∅, "go", none⟩]⟩ }

/-- The rule goes on for two passes, and the event that is left over then is
    dropped. -/
theorem engine_bounded :
    ∃ r e' rs last, (tick (.ofReaction .silent)).on engine = (.ok r, e') ∧
      Passes (.ofReaction .silent) { engine with draining := true } rs last ∧
      rs.length = 2 ∧ r.overflows = 1 ∧ r.dropped = last.queue.pending ∧
      r.dropped.length = 1 ∧ e'.queue.pending = [] := by
  have ticks : ((tick (.ofReaction .silent)).on engine).1.toOption.isSome = true := by
    decide +kernel
  have counts : ((tick (.ofReaction .silent)).on engine).1.toOption.map
      (fun r => (r.passes, r.exceeded, r.dropped.length)) = some (2, true, 1) := by
    decide +kernel
  obtain ⟨r, e', h⟩ := of_isSome ticks
  rw [h] at counts
  obtain ⟨two, exceeded, one⟩ : r.passes = 2 ∧ r.exceeded = true ∧ r.dropped.length = 1 := by
    simpa [Except.toOption] using counts
  obtain ⟨rs, last, passes, count, -, -, -, -, exceeds, stopped⟩ :=
    tick_bounded (Host.isOutward_ofReaction Reaction.silent) h
  have condition : 0 < engine.config.maxDepth ∧ r.passes = engine.config.maxDepth + 1 ∧
      last.queue.pending ≠ [] := by
    by_contra hc
    rw [(stopped hc).1] at exceeded
    cases exceeded
  obtain ⟨-, once, empty, dropped, -⟩ := exceeds condition
  exact ⟨r, e', rs, last, h, passes, count.symm.trans two, once, dropped, one, empty⟩

end Spiral

end Engine

end Cascade
