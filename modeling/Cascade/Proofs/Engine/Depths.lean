-- SUMMARY: The depth of a tick only schedules: two ticks, one after the other, come to the same as one whose depth makes up for both.
import Cascade.Proofs.Engine.Kin
import Cascade.Proofs.Engine.Passes

/-! # Depths

How deep cascades may go says how many passes a tick may make, and nothing else.
When events that are left over wait for the next tick, that tick takes up the
passes where the one before it stopped. So a tick is known by its passes: they
are made one after the other until nothing is pending or all that are allowed
are made (`Fills`), and any such passes make a tick. -/

namespace Cascade

open Attempt

def Report.withoutOverflow (r : Report) : Report :=
  { r with
    issues := r.issues.filter (·.kind ≠ .cascadeDepthExceeded)
    exceeded := false
    dropped := []
    deferred := [] }

namespace Report

theorem withoutOverflow_append (r r' : Report) :
    (r ++ r').withoutOverflow = r.withoutOverflow ++ r'.withoutOverflow := by
  change (append r r').withoutOverflow = append r.withoutOverflow r'.withoutOverflow
  simp [withoutOverflow, append]

end Report

namespace Engine

variable {η ω : Type}

def withDepth (depth : Nat) (e : Engine η ω) : Engine η ω :=
  { e with config := { e.config with maxDepth := depth } }

variable {host : Host η ω} {react : Reaction η ω} {e e₁ e₂ last e' : Engine η ω} {r ended : Report}
  {rs rs' : List Report}

/-! ## Passes cut and joined -/

namespace Passes

theorem append (h : Passes host e rs e₁) (h' : Passes host e₁ rs' e₂) :
    Passes host e (rs ++ rs') e₂ := by
  induction h with
  | rest e => exact h'
  | next pending first _ ih => exact .next pending first (ih h')

/-- Passes are cut after any number of them. -/
theorem cut (h : Passes host e rs e') (n : Nat) :
    ∃ mid, Passes host e (rs.take n) mid ∧ Passes host mid (rs.drop n) e' := by
  induction h generalizing n with
  | rest e =>
    rw [List.take_nil, List.drop_nil]
    exact ⟨e, .rest e, .rest e⟩
  | next pending first others ih =>
    cases n with
    | zero => exact ⟨_, .rest _, .next pending first others⟩
    | succ n =>
      obtain ⟨mid, before, after⟩ := ih n
      exact ⟨mid, .next pending first before, after⟩

/-- With nothing pending there is no pass. -/
theorem none_of_empty (h : Passes host e rs e') (empty : e.queue.pending = []) :
    rs = [] ∧ e' = e := by
  cases h with
  | rest => exact ⟨rfl, rfl⟩
  | next pending _ _ => exact absurd empty pending

/-- Kin make the same passes. -/
theorem kin (h : Passes (.ofReaction react) e rs e') (akin : Kin Eq e e₁) :
    ∃ e₁', Passes (.ofReaction react) e₁ rs e₁' ∧ Kin Eq e' e₁' := by
  induction h generalizing e₁ with
  | rest e => exact ⟨e₁, .rest e₁, akin⟩
  | next pending first _ ih =>
    have same : Respects (Kin Eq) (pass (.ofReaction react)) :=
      kin_drain.seq fun batch => (kin_processAll batch).seq fun _ => .pure _
    obtain ⟨mid, first', akin'⟩ := same.of_ok akin first
    obtain ⟨e₁', others, akin''⟩ := ih akin'
    rw [← akin.queue] at pending
    exact ⟨e₁', .next pending first' others, akin''⟩

end Passes

/-! ## Ticks made of passes -/

/-- Passes are made of a batch if they are no more than allowed and come to an
    end. -/
theorem passes_join (outward : host.IsOutward) {allowed left : Nat} (made : Passes host e rs last)
    (some : rs ≠ []) (count : rs.length + left = allowed + 1)
    (deep : allowed ≤ e.config.maxDepth) (ending : Ending left last ended e') :
    (passes host allowed e.queue.pending).on { e with queue := .empty }
      = (.ok (Report.total rs ++ ended), e') := by
  -- on the passes; after each but the last one there is something pending, and one more is allowed
  induction made generalizing allowed with
  | rest e => exact absurd rfl some
  | @next e e₁ last r rs pending first others ih =>
    rw [passes_after first]
    cases rs with
    | nil =>
      cases others
      simp only [List.length_singleton] at count
      cases ending with
      | stopped stopped =>
        rw [if_pos stopped]
        simp [Report.total]
      | overflown none deep remain exceeds =>
        have more : ¬(e₁.queue.pending = [] ∨ e₁.config.maxDepth = 0) :=
          not_or.mpr ⟨remain, Nat.pos_iff_ne_zero.mp deep⟩
        obtain rfl : allowed = 0 := by omega
        rw [if_neg more]
        simp only [on_bind, exceeds, on_pure]
        simp [Report.total]
    | cons r' rs =>
      have pending : e₁.queue.pending ≠ [] := by
        cases others
        assumption
      simp only [List.length_cons] at count ih
      obtain ⟨n, rfl⟩ : ∃ n, allowed = n + 1 := ⟨allowed - 1, by omega⟩
      have depth : e₁.config.maxDepth = e.config.maxDepth :=
        congrArg Config.maxDepth (pass_passed outward first).config
      have more : ¬(e₁.queue.pending = [] ∨ e₁.config.maxDepth = 0) :=
        not_or.mpr ⟨pending, by omega⟩
      have further : (passes host n e₁.queue.pending).on { e₁ with queue := .empty }
          = (.ok (Report.total (r' :: rs) ++ ended), e') :=
        ih (List.cons_ne_nil r' rs) (by omega) (by omega) ending
      rw [if_neg more]
      simp only [on_bind, further, on_pure]
      rw [Report.total_cons r, Report.append_assoc]

/-- The queue is drained by passes if they are no more than the depth allows and
    come to an end. -/
theorem drainAll_join (outward : host.IsOutward) {left : Nat} (made : Passes host e rs last)
    (begun : rs = [] → e.queue.pending = []) (count : rs.length + left = e.config.maxDepth + 1)
    (ending : Ending left last ended e') :
    (drainAll host).on e = (.ok (Report.total rs ++ ended), e') := by
  rw [drainAll, bind_of_ok (on_drain e)]
  cases made with
  | rest =>
    have empty := begun rfl
    simp only [empty, List.isEmpty_nil, if_true]
    cases ending with
    | stopped _ => simp only [on_pure, drained_of_empty empty]; rfl
    | overflown none _ remain _ => exact absurd empty remain
  | next pending first others =>
    simp only [List.isEmpty_eq_false_iff.mpr pending]
    exact passes_join outward (.next pending first others) (List.cons_ne_nil _ _) count
      (Nat.le_refl _) ending

/-! ## Filling a depth -/

/-- A depth is filled by passes if there are no more of them than it allows, and
    if there are fewer nothing is pending after them. -/
def Fills (depth : Nat) (rs : List Report) (pending : List Event) : Prop :=
  rs.length ≤ depth + 1 ∧ (pending = [] ∨ rs.length = depth + 1)

/-- Where passes fill a depth, further ones that fill another depth fill both. -/
theorem Fills.append {d₁ d₂ : Nat} {pending pending' : List Event} (h : Fills d₁ rs pending)
    (h' : Fills d₂ rs' pending') (stays : pending = [] → rs' = [] ∧ pending' = []) :
    Fills (d₁ + d₂ + 1) (rs ++ rs') pending' := by
  obtain ⟨few, stop⟩ := h
  obtain ⟨few', stop'⟩ := h'
  unfold Fills
  rw [List.length_append]
  rcases stop with empty | full
  · exact ⟨by omega, .inl (stays empty).2⟩
  · exact ⟨by omega, stop'.imp_right (by omega)⟩

/-- Passes that fill two depths are cut where the first of them is full. -/
theorem Fills.cut {d₁ d₂ : Nat} {pending pending' : List Event}
    (h : Fills (d₁ + d₂ + 1) rs pending') (stays : rs.drop (d₁ + 1) = [] → pending = pending') :
    Fills d₁ (rs.take (d₁ + 1)) pending ∧ Fills d₂ (rs.drop (d₁ + 1)) pending' := by
  obtain ⟨few, stop⟩ := h
  unfold Fills
  rw [List.length_take, List.length_drop]
  by_cases short : rs.length < d₁ + 1
  · have empty : pending' = [] := stop.resolve_right (by omega)
    have same := stays (List.drop_eq_nil_of_le (by omega))
    exact ⟨⟨by omega, .inl (same.trans empty)⟩, by omega, .inl empty⟩
  · exact ⟨⟨by omega, .inr (by omega)⟩, by omega, stop.imp_right (by omega)⟩

/-! ## Ticks that defer -/

/-- Deferring what is left over changes nothing that is seen later on. -/
theorem Ending.deferred {left : Nat} (h : Ending left last ended e')
    (policy : last.config.overflow = .defer) :
    Kin Eq last e' ∧ e'.config = last.config ∧ ended.withoutOverflow = .empty := by
  cases h with
  | stopped _ => exact ⟨⟨_, _, _, _, _, rfl, rfl⟩, rfl, rfl⟩
  | overflown _ _ _ exceeds =>
    rw [on_overflow, policy] at exceeds
    cases exceeds
    exact ⟨⟨_, _, _, _, _, rfl, rfl⟩, rfl, rfl⟩

/-- Passes come to an end if nothing is pending or none are left. -/
theorem ending_exists (left : Nat) (stop : last.queue.pending = [] ∨ left = 0) :
    ∃ (ended : Report) (e' : Engine η ω), Ending left last ended e' := by
  by_cases stopped : last.queue.pending = [] ∨ last.config.maxDepth = 0
  · exact ⟨_, _, .stopped stopped⟩
  · rw [not_or] at stopped
    have overflows : ∃ r e', overflow.on last = (.ok r, e') := by
      rw [on_overflow]
      cases last.config.overflow with
      | drop => exact ⟨_, _, rfl⟩
      | defer => exact ⟨_, _, rfl⟩
    obtain ⟨r, e', h⟩ := overflows
    exact ⟨r, e', .overflown (stop.resolve_left stopped.1) (Nat.pos_of_ne_zero stopped.2)
      stopped.1 h⟩

/-- A tick that defers, by its passes: they fill the depth, and what is left
    after the last of them is left after the tick. -/
structure Made (host : Host η ω) (e : Engine η ω) (r : Report) (e' : Engine η ω)
    (rs : List Report) (last : Engine η ω) : Prop where
  passes : Passes host { e with draining := true } rs last
  fills : Fills e.config.maxDepth rs last.queue.pending
  report : r.withoutOverflow = (Report.total rs).withoutOverflow
  left : Kin Eq last e'
  config : e'.config = e.config
  idle : e'.draining = false

theorem tick_made (h : (tick host).on e = (.ok r, e')) (outward : host.IsOutward)
    (policy : e.config.overflow = .defer) : ∃ rs last, Made host e r e' rs last := by
  obtain ⟨e₁, drained, rfl⟩ := tick_split h
  obtain ⟨rs, last, ended, left, passes, begun, count, rfl, ending⟩ := drainAll_split drained
  have count : rs.length + left = e.config.maxDepth + 1 := count
  have config : last.config = e.config := (passes.relayed outward).config
  obtain ⟨akin, same, silent⟩ := ending.deferred (config ▸ policy)
  have fills : Fills e.config.maxDepth rs last.queue.pending := by
    refine ⟨by omega, ?_⟩
    cases ending with
    | stopped stopped =>
      rcases stopped with empty | zero
      · exact .inl empty
      · -- a depth of zero allows one pass, and it is made if something is pending
        rw [config] at zero
        cases passes with
        | rest => exact .inl (begun.mp rfl)
        | next _ _ _ =>
          simp only [List.length_cons] at count ⊢
          exact .inr (by omega)
    | overflown none _ _ _ => exact .inr (by omega)
  refine ⟨rs, last, passes, fills, ?_, akin.trans ⟨_, _, _, _, _, rfl, rfl⟩,
    same.trans config, rfl⟩
  rw [Report.withoutOverflow_append, silent, Report.append_empty]

/-- Passes that fill the depth of an engine are a tick of it. -/
theorem Passes.tick (made : Passes host { e with draining := true } rs last)
    (outward : host.IsOutward) (policy : e.config.overflow = .defer) (idle : e.draining = false)
    (fills : Fills e.config.maxDepth rs last.queue.pending) :
    ∃ r e', (tick host).on e = (.ok r, e') ∧ Made host e r e' rs last := by
  have config : last.config = e.config := (made.relayed outward).config
  obtain ⟨few, stop⟩ := fills
  obtain ⟨left, count⟩ := Nat.exists_eq_add_of_le few
  obtain ⟨ended, e₁, ending⟩ := ending_exists left (stop.imp_right (by omega))
  obtain ⟨akin, same, silent⟩ := ending.deferred (config ▸ policy)
  have begun : rs = [] → e.queue.pending = [] := by
    rintro rfl
    cases made
    exact stop.resolve_right nofun
  have drained := drainAll_join outward made begun count.symm ending
  refine ⟨Report.total rs ++ ended, { e₁ with draining := false }, ?_, made, ⟨few, stop⟩, ?_,
    akin.trans ⟨_, _, _, _, _, rfl, rfl⟩, same.trans config, rfl⟩
  · rw [tick_on, if_neg (by simp [idle]), drained]
  · rw [Report.withoutOverflow_append, silent, Report.append_empty]

/-! ## Depths add up -/

/-- When what is left over waits for the next tick, a tick of one depth followed
    by a tick of another one comes to the same as a single tick that may make as
    many passes as both. If the two come to an end so does the one, and the other
    way round; the single tick leaves the same engine but for settings, sink and
    log, and apart from overflows its report is the sum of theirs. -/
theorem tick_add (react : Reaction η ω) (e : Engine η ω) (policy : e.config.overflow = .defer)
    (d₁ d₂ : Nat) :
    (∀ r₁ e₁ r₂ e₂, (tick (.ofReaction react)).on (e.withDepth d₁) = (.ok r₁, e₁) →
      (tick (.ofReaction react)).on (e₁.withDepth d₂) = (.ok r₂, e₂) →
      ∃ r e', (tick (.ofReaction react)).on (e.withDepth (d₁ + d₂ + 1)) = (.ok r, e') ∧
        e' = { e₂ with config := e'.config, sink := e'.sink, log := e'.log } ∧
        r.withoutOverflow = (r₁ ++ r₂).withoutOverflow) ∧
    (∀ r e', (tick (.ofReaction react)).on (e.withDepth (d₁ + d₂ + 1)) = (.ok r, e') →
      ∃ r₁ e₁ r₂ e₂, (tick (.ofReaction react)).on (e.withDepth d₁) = (.ok r₁, e₁) ∧
        (tick (.ofReaction react)).on (e₁.withDepth d₂) = (.ok r₂, e₂) ∧
        e' = { e₂ with config := e'.config, sink := e'.sink, log := e'.log } ∧
        r.withoutOverflow = (r₁ ++ r₂).withoutOverflow) := by
  have outward := Host.isOutward_ofReaction react
  -- an engine that is kin to the last one and not ticking either differs from it in no other part
  have same {e₂ e' : Engine η ω} (akin : Kin Eq e₂ e') (idle : e₂.draining = false)
      (idle' : e'.draining = false) :
      e' = { e₂ with config := e'.config, sink := e'.sink, log := e'.log } := by
    obtain ⟨_, _, _, _, _, rfl, rfl⟩ := akin
    cases idle'
    rw [← idle]
  constructor
  · intro r₁ e₁ r₂ e₂ h₁ h₂
    have idle : e.draining = false := idle_of_tick (e := e.withDepth d₁) h₁
    obtain ⟨rs₁, last₁, made₁⟩ := tick_made h₁ outward policy
    have policy₁ : e₁.config.overflow = .defer := by
      rw [made₁.config]
      exact policy
    obtain ⟨rs₂, last₂, made₂⟩ := tick_made h₂ outward policy₁
    have start : Kin Eq { e.withDepth d₁ with draining := true }
        { e.withDepth (d₁ + d₂ + 1) with draining := true } := ⟨_, _, _, _, _, rfl, rfl⟩
    obtain ⟨mid, passes₁, akin₁⟩ := made₁.passes.kin start
    -- the second tick takes the passes up where the first one stopped
    have turn : Kin Eq { e₁.withDepth d₂ with draining := true } mid :=
      Kin.symm (akin₁.symm.trans (made₁.left.trans ⟨_, _, _, _, _, rfl, rfl⟩))
    obtain ⟨last, passes₂, akin₂⟩ := made₂.passes.kin turn
    have fills : Fills (d₁ + d₂ + 1) (rs₁ ++ rs₂) last.queue.pending := by
      refine made₁.fills.append (akin₂.queue ▸ made₂.fills) fun empty => ?_
      rw [← akin₁.queue] at empty
      obtain ⟨none, stays⟩ := passes₂.none_of_empty empty
      exact ⟨none, stays ▸ empty⟩
    obtain ⟨r, e', h, made⟩ := (passes₁.append passes₂).tick outward policy idle fills
    refine ⟨r, e', h, same ?_ made₂.idle made.idle, ?_⟩
    · exact made₂.left.symm.trans (akin₂.trans made.left)
    · rw [made.report, Report.total_append, Report.withoutOverflow_append, ← made₁.report,
        ← made₂.report, Report.withoutOverflow_append]
  · intro r e' h
    have idle : e.draining = false := idle_of_tick (e := e.withDepth (d₁ + d₂ + 1)) h
    obtain ⟨rs, last, made⟩ := tick_made h outward policy
    obtain ⟨mid, before, after⟩ := made.passes.cut (d₁ + 1)
    have full : Fills d₁ (rs.take (d₁ + 1)) mid.queue.pending ∧
        Fills d₂ (rs.drop (d₁ + 1)) last.queue.pending :=
      made.fills.cut fun none => by
        rw [none] at after
        cases after
        rfl
    obtain ⟨fills₁, fills₂⟩ := full
    have start : Kin Eq { e.withDepth (d₁ + d₂ + 1) with draining := true }
        { e.withDepth d₁ with draining := true } := ⟨_, _, _, _, _, rfl, rfl⟩
    obtain ⟨last₁, passes₁, akin₁⟩ := before.kin start
    obtain ⟨r₁, e₁, h₁, made₁⟩ := passes₁.tick outward policy idle (akin₁.queue ▸ fills₁)
    have policy₁ : e₁.config.overflow = .defer := by
      rw [made₁.config]
      exact policy
    have turn : Kin Eq mid { e₁.withDepth d₂ with draining := true } :=
      akin₁.trans (made₁.left.trans ⟨_, _, _, _, _, rfl, rfl⟩)
    obtain ⟨last₂, passes₂, akin₂⟩ := after.kin turn
    obtain ⟨r₂, e₂, h₂, made₂⟩ := passes₂.tick outward policy₁ made₁.idle (akin₂.queue ▸ fills₂)
    refine ⟨r₁, e₁, r₂, e₂, h₁, h₂, same ?_ made₂.idle made.idle, ?_⟩
    · exact made₂.left.symm.trans (akin₂.symm.trans made.left)
    · rw [made.report, ← List.take_append_drop (d₁ + 1) rs, Report.total_append,
        Report.withoutOverflow_append, ← made₁.report, ← made₂.report,
        Report.withoutOverflow_append]

namespace Spiral

/-- The engine when what is left over waits for the next tick. -/
def patient : Engine Unit Unit :=
  { engine with config := { engine.config with overflow := .defer } }

/-- One pass and then two more come to the same as three, after which the rule
    still has an event pending. -/
theorem patient_adds :
    ∃ r₁ e₁ r₂ e₂ r e', (tick (.ofReaction .silent)).on (patient.withDepth 0) = (.ok r₁, e₁) ∧
      (tick (.ofReaction .silent)).on (e₁.withDepth 1) = (.ok r₂, e₂) ∧
      (tick (.ofReaction .silent)).on (patient.withDepth 2) = (.ok r, e') ∧
      e' = { e₂ with config := e'.config, sink := e'.sink, log := e'.log } ∧
      r.withoutOverflow = (r₁ ++ r₂).withoutOverflow ∧
      r₁.passes = 1 ∧ r₂.passes = 2 ∧ e'.queue.pending.length = 1 := by
  have ticks : ((tick (.ofReaction .silent)).on (patient.withDepth 2)).1.toOption.isSome = true := by
    decide +kernel
  have left : ((tick (.ofReaction .silent)).on (patient.withDepth 2)).2.queue.pending.length = 1 := by
    decide +kernel
  have first : ((tick (.ofReaction .silent)).on (patient.withDepth 0)).1.toOption.map (·.passes)
      = some 1 := by
    decide +kernel
  have second : ((tick (.ofReaction .silent)).on
      (((tick (.ofReaction .silent)).on (patient.withDepth 0)).2.withDepth 1)).1.toOption.map
        (·.passes) = some 2 := by
    decide +kernel
  obtain ⟨r, e', h⟩ := of_isSome ticks
  obtain ⟨r₁, e₁, r₂, e₂, h₁, h₂, same, sum⟩ := (tick_add Reaction.silent patient rfl 0 1).2 r e' h
  rw [h] at left
  rw [h₁] at first second
  rw [h₂] at second
  exact ⟨r₁, e₁, r₂, e₂, r, e', h₁, h₂, h, same, sum, Option.some.inj first,
    Option.some.inj second, left⟩

end Spiral

end Engine

end Cascade
