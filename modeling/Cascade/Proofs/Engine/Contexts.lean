-- SUMMARY: Contexts in step: along every run, the scopes of the store and the active scopes of the registry follow the contexts of the engine.
import Cascade.Proofs.Engine.Beats
import Cascade.Proofs.Engine.Runs
import Cascade.Proofs.Registry.Active
import Cascade.Proofs.Store.Scopes

/-! # Contexts in step

A context is kept in three places: among the contexts of the engine, as a layer
of the store, and as an active scope of the registry. Entering and leaving change
all three, one after the other, and nothing else changes any of them as long as
the host leaves them to the engine. So they stay in step, also where a move fails:
an entering that fails half-way has opened the context everywhere, and a leaving
that fails has changed nothing.

Handlers may move the engine themselves, in the middle of a tick. The engine is
draining then, so a tick among their moves is refused. -/

namespace Cascade

open Attempt

namespace Engine

variable {η ω : Type} {e e' : Engine η ω} {d : Bool}

/-! ## Opening and closing -/

/-- Entering a scope that has a name opens its context, whatever comes of it, and
    stores some of its facts there. -/
theorem left_enterContext {scope : String} (named : scope ≠ "") (e : Engine η ω) :
    ∃ facts log, ((enterContext scope).on e).2
      = { e.opened scope with store := (e.store.pushed scope).stored .inner facts, log } := by
  rw [enterContext_on named, on_bind, storeAll_on]
  by_cases nameless : Facts.Nameless (e.seedsOf scope)
  · simp only [if_pos nameless]
    exact ⟨_, _, rfl⟩
  · simp only [if_neg nameless]
    exact ⟨_, _, rfl⟩

/-- The engine without its innermost context, given what is left of the contexts
    and of the store. -/
def departed (scope : String) (outer : List String) (store : Layered) (e : Engine η ω) :
    Engine η ω :=
  { e with
    store
    entered := outer
    registry := if scope ∈ outer then e.registry else e.registry.deactivate scope }

/-- Leaving is refused, or it closes the innermost context, which has the innermost
    layer of the store. -/
theorem exitContext_on (scope : String) (e : Engine η ω) :
    (∃ f, (exitContext scope).on e = (.error f, e)) ∨
      ∃ outer store log, e.entered = scope :: outer ∧ e.store.popped? = some store ∧
        e.store.inner.scope = scope ∧
        (exitContext scope).on e = (.ok ⟨⟩, { e.departed scope outer store with log }) := by
  unfold exitContext
  rw [bind_of_ok (on_get e)]
  cases entered : e.entered with
  | nil => exact .inl ⟨_, rfl⟩
  | cons top outer =>
    by_cases other : top ≠ scope
    · simp only [if_pos other]
      exact .inl ⟨_, rfl⟩
    · obtain rfl : top = scope := not_not.mp other
      simp only [if_neg other]
      rcases Layered.popScope_on top e.store with ⟨f, refused⟩ | ⟨rest, hp, hs, popped⟩
      · refine .inl ⟨f, ?_⟩
        simp only [onStore, on_bind, on_zoom, refused]
      · refine .inr ⟨outer, rest, ?_⟩
        by_cases again : top ∈ outer
        · have kept : ¬top ∉ outer := not_not_intro again
          simp only [onStore, on_bind, on_zoom, popped, departed, if_pos again, if_neg kept]
          exact ⟨_, trivial, hp, hs, rfl⟩
        · simp only [onStore, on_bind, on_zoom, popped, departed, if_neg again, if_pos again]
          exact ⟨_, trivial, hp, hs, rfl⟩

/-- Leaving a context takes no rules away. -/
theorem rulesOf_exitContext {scope : String} (h : (exitContext scope).on e = (.ok ⟨⟩, e'))
    (other : String) : e'.registry.rulesOf other = e.registry.rulesOf other := by
  rcases exitContext_on scope e with ⟨f, refused⟩ | ⟨outer, store, log, -, -, -, left⟩
  · rw [refused] at h
    cases h
  · rw [left] at h
    cases h
    unfold departed
    dsimp only
    split
    · rfl
    · rfl

/-! ## Engines in step -/

/-- The scopes of the store and of the registry follow the contexts of an engine,
    all of which have names, and a tick is under way or not. -/
structure Aligned (e : Engine η ω) (draining : Bool) : Prop where
  scopes : e.store.scopes = e.contexts
  active : e.registry.active = Registry.scopesOf e.contexts
  named : "" ∉ e.contexts
  draining : e.draining = draining

/-- What leaves scopes and contexts alone leaves an engine in step. -/
theorem Aligned.of_same (h : e.Aligned d) (scopes : e'.store.scopes = e.store.scopes)
    (active : e'.registry.active = e.registry.active) (entered : e'.entered = e.entered)
    (draining : e'.draining = e.draining) : e'.Aligned d := by
  have contexts : e'.contexts = e.contexts := congrArg List.reverse entered
  refine ⟨?_, ?_, ?_, draining.trans h.draining⟩
  · rw [scopes, contexts, h.scopes]
  · rw [active, contexts, h.active]
  · rw [contexts]
    exact h.named

/-- Contexts are active as long as they have not been left as often as entered. -/
theorem Aligned.isActive_iff (h : e.Aligned d) (scope : String) :
    e.registry.isActive scope ↔ scope = Registry.globalScope ∨ scope ∈ e.contexts := by
  unfold Registry.isActive
  rw [h.active]
  by_cases isGlobal : scope = Registry.globalScope
  · simp [isGlobal]
  · simp [isGlobal, Registry.mem_scopesOf]

/-- Engines in step that have the same contexts and the same rules match the same
    rules to an event, in the same order. -/
theorem Aligned.rulesForEvent_eq {d' : Bool} (h : e.Aligned d) (h' : e'.Aligned d')
    (contexts : e'.contexts = e.contexts)
    (rules : ∀ scope, e'.registry.rulesOf scope = e.registry.rulesOf scope) (event : String) :
    e'.registry.rulesForEvent event = e.registry.rulesForEvent event := by
  refine Registry.rulesForEvent_congr rules ?_ event
  rw [h'.active, h.active, contexts]

/-! ### Entering and leaving -/

theorem aligned_enterContext (scope : String) :
    Maintains (·.Aligned d) (enterContext scope : Attempt (Engine η ω) Unit) := by
  refine .of_holds fun e h => ?_
  by_cases named : scope = ""
  · subst named
    exact h
  · obtain ⟨facts, log, left⟩ := left_enterContext named e
    have contexts : (e.opened scope).contexts = e.contexts ++ [scope] :=
      List.reverse_cons
    rw [left]
    refine ⟨?_, ?_, ?_, h.draining⟩
    · change ((e.store.pushed scope).stored .inner facts).scopes = (e.opened scope).contexts
      rw [Layered.scopes_of_frames (Layered.frames_stored ..), Layered.scopes_pushed, h.scopes,
        contexts]
    · change (e.registry.activate scope).active = Registry.scopesOf (e.opened scope).contexts
      rw [contexts]
      exact Registry.active_activate h.active scope
    · change "" ∉ (e.opened scope).contexts
      rw [contexts]
      simp [h.named, Ne.symm named]

theorem aligned_exitContext (scope : String) :
    Maintains (·.Aligned d) (exitContext scope : Attempt (Engine η ω) Unit) := by
  refine .of_holds fun e h => ?_
  rcases exitContext_on scope e with ⟨f, refused⟩ | ⟨outer, store, log, entered, hp, hs, exits⟩
  · rw [refused]
    exact h
  · have contexts : e.contexts = outer.reverse ++ [scope] := by
      rw [Engine.contexts, entered, List.reverse_cons]
    have active := h.active
    have named := h.named
    have scopes := h.scopes
    rw [contexts] at active named scopes
    rw [Layered.scopes_of_popped? hp, hs] at scopes
    rw [exits]
    refine ⟨List.append_cancel_right scopes, ?_, ?_, h.draining⟩
    · change (if scope ∈ outer then e.registry else e.registry.deactivate scope).active
        = Registry.scopesOf outer.reverse
      by_cases again : scope ∈ outer
      · have again' : scope ∈ outer.reverse := List.mem_reverse.mpr again
        rw [if_pos again, active, Registry.scopesOf_concat, if_pos (.inr again')]
      · have gone : scope ∉ outer.reverse := fun mem => again (List.mem_reverse.mp mem)
        rw [if_neg again]
        exact Registry.active_deactivate active gone
    · exact fun mem => named (List.mem_append_left _ mem)

/-! ### Other moves -/

theorem aligned_storeAll (facts : List (String × Fact)) (layer : LayerName) :
    Maintains (·.Aligned d) (storeAll facts layer : Attempt (Engine η ω) Unit) := by
  refine .of_holds fun e h => ?_
  rw [storeAll_on]
  exact h.of_same (Layered.scopes_of_frames (Layered.frames_stored ..)) rfl rfl rfl

theorem aligned_load (rules : RuleSet) (scope : String) :
    Maintains (·.Aligned d) (load rules scope : Attempt (Engine η ω) (List String)) := by
  refine (takes_load rules scope).mono fun e e' step h => ?_
  cases step with
  | registered hr => exact h.of_same rfl (Registry.active_of_registerBatch _ hr) rfl rfl
  | stored facts layer => exact (aligned_storeAll facts layer).holds h
  | noted => exact h.of_same rfl rfl rfl rfl

theorem aligned_registerRule (rule : Rule) (scope : String) :
    Maintains (·.Aligned d) (registerRule rule scope : Attempt (Engine η ω) String) := by
  refine Takes.get fun e => ?_
  cases hr : e.registry.register rule scope with
  | error f => exact .refl
  | ok registry =>
    have active : registry.active = e.registry.active := Registry.active_of_register hr
    exact .single fun h => h.of_same rfl active rfl rfl

theorem aligned_registerAction (action : Document) (handler : η) :
    Maintains (·.Aligned d) (registerAction action handler : Attempt (Engine η ω) Unit) := by
  refine Takes.get fun e => ?_
  cases hd : e.dispatcher.register action handler with
  | error f => exact .refl
  | ok dispatcher => exact .single fun h => h.of_same rfl rfl rfl rfl

theorem aligned_emit (id : Document) (payload : List (String × Datum)) :
    Maintains (·.Aligned d) (emit id payload : Attempt (Engine η ω) Event) := by
  refine (Takes.ofExcept _).bind fun event _ => Takes.bind ?_ fun _ _ => .pure _
  exact .modify fun e h => h.of_same rfl rfl rfl rfl

/-- Every move but a tick leaves an engine in step, whatever comes of it. -/
theorem aligned_move (host : Host η ω) {move : Move η} (other : ¬move.isTick) :
    Maintains (·.Aligned d) (move.run host) := by
  cases move with
  | load rules scope => exact (aligned_load rules scope).bind fun _ _ => .pure _
  | registerRule rule scope => exact (aligned_registerRule rule scope).bind fun _ _ => .pure _
  | registerAction action handler =>
    exact (aligned_registerAction action handler).bind fun _ _ => .pure _
  | enterContext scope => exact (aligned_enterContext scope).bind fun _ _ => .pure _
  | exitContext scope => exact (aligned_exitContext scope).bind fun _ _ => .pure _
  | emit id payload => exact (aligned_emit id payload).bind fun _ _ => .pure _
  | tick => exact absurd rfl other

/-! ## Hosts that leave scopes to the engine -/

/-- What a handler may do to an engine if scopes are driven through the engine
    only: a move of the engine, or a change of something else. -/
inductive Drive (host : Host η ω) : Engine η ω → Engine η ω → Prop
  | moved (e : Engine η ω) (move : Move η) : Drive host e ((move.run host).on e).2
  | aside {e e' : Engine η ω} :
      e'.store.scopes = e.store.scopes → e'.registry.active = e.registry.active →
      e'.entered = e.entered → e'.draining = e.draining → Drive host e e'

/-- Handlers that drive scopes only through the engine, if at all. -/
def IsOrderly (host : Host η ω) : Prop := ∀ handler call, Takes (Drive host) (host handler call)

variable {host : Host η ω}

/-- While a tick is under way, another one is refused. -/
theorem Drive.aligned (h : Drive host e e') (aligned : e.Aligned true) : e'.Aligned true := by
  cases h with
  | moved move =>
    by_cases ticks : move.isTick
    · cases move with
      | tick =>
        have refused : (tick host).on e = (.error .alreadyDraining, e) := by
          rw [tick_on, if_pos aligned.draining]
        change ((tick host).on e).2.Aligned true
        rw [refused]
        exact aligned
      | _ => cases ticks
    · exact (aligned_move host ticks).holds aligned
  | aside scopes active entered draining => exact aligned.of_same scopes active entered draining

/-- Each beat of a tick leaves the engine in step. -/
theorem Beat.aligned {rules : Rule → Prop} (orderly : IsOrderly host)
    (h : Beat host rules e e') (aligned : e.Aligned true) : e'.Aligned true := by
  cases h with
  | told sink queue log => exact aligned.of_same rfl rfl rfl rfl
  | called handler call =>
    have driven : Maintains (·.Aligned true) (host handler call) :=
      (orderly handler call).mono fun _ _ => Drive.aligned
    exact driven.holds aligned
  | @ruled event rule _ =>
    have writing := writing_applyAll event.blind_lookup e.config.layer rule.modifications
    refine aligned.of_same (Layered.scopes_of_frames ?_) rfl rfl rfl
    obtain same | ⟨-, left⟩ := transaction_leaves writing e.store
    · exact congrArg Layered.frames same
    · change ((transaction _).on e.store).2.frames = _
      rw [left]
      exact Layered.frames_of_writes (writing.takes e.store)

theorem aligned_tick (orderly : IsOrderly host) (h : e.Aligned d) :
    ∃ d', ((tick host).on e).2.Aligned d' := by
  rw [tick_on]
  by_cases busy : e.draining = true
  · rw [if_pos busy]
    exact ⟨d, h⟩
  · rw [if_neg busy]
    have drained : Maintains (·.Aligned true) (drainAll host) :=
      (beats_drainAll host).mono fun _ _ => Beat.aligned orderly
    have left := drained.holds (s := { e with draining := true })
      ⟨h.scopes, h.active, h.named, rfl⟩
    exact ⟨false, left.scopes, left.active, left.named, rfl⟩

/-! ## Runs -/

/-- Moves leave an engine in step, whatever comes of them. -/
theorem aligned_final (orderly : IsOrderly host) (moves : List (Move η)) (h : e.Aligned d) :
    ∃ d', (final host moves e).Aligned d' := by
  induction moves generalizing e d with
  | nil => exact ⟨d, h⟩
  | cons move moves ih =>
    by_cases ticks : move.isTick
    · cases move with
      | tick =>
        obtain ⟨d', left⟩ := aligned_tick orderly h
        exact ih left
      | _ => cases ticks
    · exact ih ((aligned_move host ticks).holds h)

/-- No context has been entered yet, and no scope was opened or activated. -/
structure IsFresh (e : Engine η ω) : Prop where
  scopes : e.store.scopes = []
  active : e.registry.active = []
  entered : e.entered = []

theorem isFresh_ofConfig (config : Config) (sink : Sink) (state : ω) :
    (ofConfig config sink state : Engine η ω).IsFresh := ⟨rfl, rfl, rfl⟩

theorem IsFresh.aligned (h : e.IsFresh) : e.Aligned e.draining := by
  have contexts : e.contexts = [] := congrArg List.reverse h.entered
  exact ⟨by rw [h.scopes, contexts], by rw [h.active, contexts]; rfl, by simp [contexts], rfl⟩

/-- Along every run of an engine the scopes of its store are its contexts, one by
    one, and the active scopes of its registry are its contexts, each once, in the
    order in which they came up first, and without the global scope. So a context
    is active until it was left as often as it was entered. And one that was left,
    if it is entered again when the contexts are what they were and the rules too,
    matches the same rules to every event as before, in the same order. -/
theorem contexts_followed (orderly : IsOrderly host) (fresh : e.IsFresh) (moves : List (Move η)) :
    let now := final host moves e
    now.store.scopes = now.contexts ∧
      now.registry.active
        = (now.contexts.filter (· ≠ Registry.globalScope)).eraseDups ∧
      (∀ scope, now.registry.isActive scope ↔
        scope = Registry.globalScope ∨ scope ∈ now.contexts) ∧
      ∀ scope gone, (exitContext scope).on now = (.ok ⟨⟩, gone) →
        now.contexts = gone.contexts ++ [scope] ∧
        ∀ between, let later := final host between gone
          later.contexts = gone.contexts →
          (∀ other, later.registry.rulesOf other = now.registry.rulesOf other) →
          let back := ((enterContext scope).on later).2
          back.contexts = now.contexts ∧
            ∀ event, back.registry.rulesForEvent event = now.registry.rulesForEvent event := by
  intro now
  obtain ⟨d, aligned⟩ := aligned_final orderly moves fresh.aligned
  have aligned : now.Aligned d := aligned
  refine ⟨aligned.scopes, aligned.active, aligned.isActive_iff, fun scope gone exits => ?_⟩
  rcases exitContext_on scope now with ⟨f, refused⟩ | ⟨outer, store, log, entered, -, -, left⟩
  · rw [refused] at exits
    cases exits
  rw [left] at exits
  cases exits
  have contexts : now.contexts = outer.reverse ++ [scope] := by
    rw [Engine.contexts, entered, List.reverse_cons]
  refine ⟨contexts, fun between => ?_⟩
  intro later same rules back
  have alignedGone := (aligned_exitContext scope).holds aligned
  rw [left] at alignedGone
  obtain ⟨d', alignedLater⟩ := aligned_final orderly between alignedGone
  have alignedBack : back.Aligned d' := (aligned_enterContext scope).holds alignedLater
  -- a context that was entered once has a name, so it is not refused now
  have named : scope ≠ "" := by
    rintro rfl
    exact aligned.named (by simp [contexts])
  obtain ⟨facts, log', opened⟩ := left_enterContext named later
  have contextsBack : back.contexts = now.contexts := by
    have entered : back.entered = scope :: later.entered := congrArg Engine.entered opened
    rw [contexts, Engine.contexts, entered, List.reverse_cons]
    exact congrArg (· ++ [scope]) same
  have rulesBack (other : String) : back.registry.rulesOf other = now.registry.rulesOf other := by
    have registry : back.registry = later.registry.activate scope :=
      congrArg Engine.registry opened
    rw [registry, Registry.rulesOf_activate, rules]
  exact ⟨contextsBack, aligned.rulesForEvent_eq alignedBack contextsBack rulesBack⟩

namespace Manor

/-- Handlers that show a visitor into a room. -/
def butler : Host String Unit := fun room _ => enterContext room

theorem butler_orderly : IsOrderly butler := by
  intro room call e
  have moved : Drive butler e _ := .moved e (.enterContext room)
  rw [Move.run, Move.silently, left_then_pure] at moved
  exact .single moved

/-- The rule that has a visitor shown in when the bell rings. -/
def greet : Rule :=
  ⟨"greet", "ring", .always, [], ["show"], [], .bool false, .int 0, .bool true⟩

/-- A manor in which nobody is. -/
def manor : Engine String Unit := ofConfig .default (.collecting []) ()

/-- The visitor enters the hall, and what bears the name of the global scope; rings,
    and is shown into the parlour; cannot leave the hall from there, but goes into
    it once more. -/
def visit : List (Move String) :=
  [ .registerRule greet "hall", .registerAction (.str "show") "parlour", .enterContext "hall",
    .enterContext "global", .emit (.str "ring") [], .tick, .exitContext "hall",
    .enterContext "hall" ]

/-- The hall was entered twice and is active once. It stays so when it is left,
    and when it is entered again it has its rule as before. -/
theorem visit_followed :
    (final butler visit manor).store.scopes = ["hall", "global", "parlour", "hall"] ∧
      (final butler visit manor).registry.active = ["hall", "parlour"] ∧
      ∃ gone, (exitContext "hall").on (final butler visit manor) = (.ok ⟨⟩, gone) ∧
        gone.contexts = ["hall", "global", "parlour"] ∧
        ((enterContext "hall").on gone).2.registry.rulesForEvent "ring"
          = (final butler visit manor).registry.rulesForEvent "ring" := by
  have contexts : (final butler visit manor).contexts = ["hall", "global", "parlour", "hall"] := by
    decide +kernel
  have leaves : ((exitContext "hall").on (final butler visit manor)).1.toOption.isSome := by
    decide +kernel
  obtain ⟨⟨⟩, gone, exits⟩ := of_isSome leaves
  have fresh : manor.IsFresh := isFresh_ofConfig ..
  obtain ⟨scopes, active, -, again⟩ := contexts_followed butler_orderly fresh visit
  obtain ⟨before, back⟩ := again "hall" gone exits
  have rules := rulesOf_exitContext exits
  rw [contexts] at scopes active before
  refine ⟨scopes, active, gone, exits, ?_, (back [] rfl rules).2 "ring"⟩
  exact (List.append_cancel_right before).symm

end Manor

end Engine

end Cascade
