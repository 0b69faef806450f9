-- SUMMARY: Contexts kept apart: whatever goes on in a context, the layers below it stay as they are, and when it is left they are the layers.
import Cascade.Proofs.Engine.Contexts
import Cascade.Proofs.Modification.Fitting

/-! # Contexts kept apart

Rules and loads write to the innermost layer and to the global map. While a
context is open the innermost layer is its own, or that of a context entered in
it, so no layer that was there before is written to, not even one that holds the
key: the layers under the innermost one only change when contexts are entered and
left. Where every context that is entered is left again, they end up as they were.
-/

namespace Cascade

open Attempt

namespace Layered

theorem outer_stored (layer : LayerName) (facts : List (String × Fact)) (db : Layered) :
    (db.stored layer facts).outer = db.outer := by
  induction facts generalizing db with
  | nil => rfl
  | cons p facts ih => exact (ih _).trans (outer_write ..)

end Layered

namespace Engine

variable {η ω : Type} {host : Host η ω} {e e₁ e₂ e' : Engine η ω}

/-! ## Below the innermost layer -/

/-- What lies under the innermost layer, and the contexts. -/
def below (e : Engine η ω) : List Layer × List String := (e.store.outer, e.entered)

theorem below_storeAll (facts : List (String × Fact)) (layer : LayerName) :
    Keeps below (storeAll facts layer : Attempt (Engine η ω) Unit) := by
  intro e
  rw [storeAll_on]
  exact congrArg (·, e.entered) (Layered.outer_stored ..)

theorem below_load (rules : RuleSet) (scope : String) :
    Keeps below (load rules scope : Attempt (Engine η ω) (List String)) := by
  refine (takes_load rules scope).keeps fun e e' step => ?_
  cases step with
  | registered => rfl
  | stored facts layer => exact below_storeAll facts layer e
  | noted => rfl

theorem below_registerRule (rule : Rule) (scope : String) :
    Keeps below (registerRule rule scope : Attempt (Engine η ω) String) :=
  .get fun _ => Keeps.given fun _ _ => rfl

theorem below_registerAction (action : Document) (handler : η) :
    Keeps below (registerAction action handler : Attempt (Engine η ω) Unit) :=
  .get fun _ => Keeps.given fun _ _ => rfl

theorem below_emit (id : Document) (payload : List (String × Datum)) :
    Keeps below (emit id payload : Attempt (Engine η ω) Event) :=
  Keeps.bind (fun _ => rfl) fun _ => Keeps.bind (.modify fun _ => rfl) fun _ => .pure _

/-! ### Ticks -/

/-- The rules of a tick write to the innermost layer and the global map only. -/
theorem Beat.below {rules : Rule → Prop} (outward : host.IsOutward)
    (h : Beat host rules e e') : e'.below = e.below := by
  cases h with
  | told sink queue log => rfl
  | called handler call =>
    obtain ⟨state, left⟩ := outward handler call e
    rw [left]
    rfl
  | @ruled event rule _ =>
    refine congrArg (·, e.entered) ?_
    have fitted : Takes (Layered.Fitted True)
        (transaction (applyAll event.lookup e.config.layer rule.modifications)) :=
      fitted_transaction event e.config.layer fun _ _ _ => trivial
    have steps := fitted e.store
    generalize ((transaction _).on e.store).2 = store at steps
    induction steps with
    | refl => rfl
    | tail _ step ih => exact step.outer.trans ih

theorem below_tick (outward : host.IsOutward) : Keeps below (tick host) := by
  intro e
  rw [tick_on]
  split
  · rfl
  · have drained : Maintains (·.below = e.below) (drainAll host) :=
      (beats_drainAll host).mono fun _ _ beat same => (beat.below outward).trans same
    exact drained.holds rfl

/-! ## Moves -/

def Move.isPassage : Move η → Bool
  | enterContext _ | exitContext _ => true
  | _ => false

/-- Every other move leaves alone what lies under the innermost layer, whatever
    comes of it. -/
theorem below_move (outward : host.IsOutward) {move : Move η} (other : ¬move.isPassage) :
    Keeps below (move.run host) := by
  cases move with
  | load rules scope => exact (below_load rules scope).bind fun _ => .pure _
  | registerRule rule scope => exact (below_registerRule rule scope).bind fun _ => .pure _
  | registerAction action handler =>
    exact (below_registerAction action handler).bind fun _ => .pure _
  | emit id payload => exact (below_emit id payload).bind fun _ => .pure _
  | tick => exact below_tick outward
  | _ => exact absurd rfl other

/-- A context that was entered has a new layer on top of those that there were. -/
theorem below_of_enterContext {scope : String} (h : (enterContext scope).on e = (.ok ⟨⟩, e')) :
    e'.below = (e.store.layers, scope :: e.entered) := by
  by_cases named : scope = ""
  · rw [named, enterContext_nameless] at h
    cases h
  · obtain ⟨facts, log, left⟩ := left_enterContext named e
    rw [h] at left
    obtain rfl : e' = _ := left
    exact congrArg (·, scope :: e.entered) (Layered.outer_stored ..)

/-- Leaving a context uncovers what lay under its layer. -/
theorem of_exitContext {scope : String} (h : (exitContext scope).on e = (.ok ⟨⟩, e')) :
    e.below = (e'.store.layers, scope :: e'.entered) := by
  rcases exitContext_on scope e with ⟨f, refused⟩ | ⟨outer, store, log, entered, hp, -, left⟩
  · rw [refused] at h
    cases h
  · rw [left] at h
    cases h
    exact congrArg₂ Prod.mk (Layered.of_popped? hp).1 entered

/-- What kept the layers under that of a context ends up with those layers when
    the context is left. -/
theorem layers_of_visit {scope : String} (enters : (enterContext scope).on e = (.ok ⟨⟩, e₁))
    (kept : e₂.below = e₁.below) (leaves : (exitContext scope).on e₂ = (.ok ⟨⟩, e')) :
    e'.store.layers = e.store.layers ∧ e'.entered = e.entered := by
  have same := (of_exitContext leaves).symm.trans (kept.trans (below_of_enterContext enters))
  obtain ⟨layers, entered⟩ := Prod.mk.inj same
  exact ⟨layers, (List.cons.inj entered).2⟩

/-! ## Visits -/

/-- Entering a context, doing something there, and leaving it. -/
def visit (scope : String) (inside : List (Move η)) : List (Move η) :=
  .enterContext scope :: (inside ++ [.exitContext scope])

/-- Moves that leave every context that they enter, the one entered last first,
    and no other. -/
inductive Nested : List (Move η) → Prop
  | nil : Nested []
  | other {move : Move η} {moves : List (Move η)} :
      ¬move.isPassage → Nested moves → Nested (move :: moves)
  | visit (scope : String) {inside moves : List (Move η)} :
      Nested inside → Nested moves → Nested (visit scope inside ++ moves)

theorem final_append (moves moves' : List (Move η)) (e : Engine η ω) :
    final host (moves ++ moves') e = final host moves' (final host moves e) :=
  List.foldl_append

theorem story_append (moves moves' : List (Move η)) (e : Engine η ω) :
    story host (moves ++ moves') e = story host moves e ++ story host moves' (final host moves e) := by
  induction moves generalizing e with
  | nil => rfl
  | cons move moves ih => exact congrArg (Stage.of host move e :: ·) (ih _)

/-- A silent move that came to an end. -/
theorem of_silent_stage {α : Type} {a : Attempt (Engine η ω) α} {move : Move η}
    (silent : move.run host = Move.silently a) (h : (Stage.of host move e).outcome.isOk) :
    ∃ x, a.on e = (.ok x, (Stage.of host move e).after) := by
  have outcome : (Stage.of host move e).outcome = (a.on e).1.map fun _ => .empty := by
    rw [← outcome_then_pure, Stage.of, silent]
    rfl
  have after : (Stage.of host move e).after = (a.on e).2 := by
    rw [← left_then_pure a fun _ => Report.empty, Stage.of, silent]
    rfl
  rcases ha : a.on e with ⟨f | x, e'⟩
  · rw [outcome, ha] at h
    cases h
  · rw [after, ha]
    exact ⟨x, rfl⟩

/-- The contexts that moves are to enter and to leave they do enter and leave. -/
def Passable (host : Host η ω) (moves : List (Move η)) (e : Engine η ω) : Prop :=
  ∀ s ∈ story host moves e, s.move.isPassage → s.outcome.isOk

/-- Moves leave alone what lies under the innermost layer, and while they are made
    it is covered at most. -/
structure Sheltered (host : Host η ω) (moves : List (Move η)) (e : Engine η ω) : Prop where
  below : (final host moves e).below = e.below
  covered : ∀ s ∈ story host moves e, e.store.outer <:+ s.after.store.outer

/-- A visit leaves the layers and the contexts as they were, and covers the layers
    in the meantime, given what goes on inside. -/
theorem visit_of_inside {scope : String} {inside : List (Move η)}
    (sheltered : ∀ e : Engine η ω, Passable host inside e → Sheltered host inside e)
    (passable : Passable host (visit scope inside) e) :
    ((final host (visit scope inside) e).store.layers = e.store.layers ∧
      (final host (visit scope inside) e).entered = e.entered) ∧
      ∀ s ∈ story host (visit scope inside) e, e.store.layers <:+ s.after.store.layers := by
  let entering := Stage.of host (.enterContext scope) e
  let leaving := Stage.of host (.exitContext scope) (final host inside entering.after)
  have told : story host (visit scope inside) e
      = entering :: (story host inside entering.after ++ [leaving]) :=
    congrArg (entering :: ·) (story_append inside _ _)
  have ended : final host (visit scope inside) e = leaving.after := final_append inside _ _
  unfold Passable at passable
  rw [told, List.forall_mem_cons, List.forall_mem_append, List.forall_mem_singleton] at passable
  obtain ⟨enters, passes, leaves⟩ := passable
  obtain ⟨⟨⟩, enters⟩ := of_silent_stage rfl (enters rfl)
  obtain ⟨⟨⟩, leaves⟩ := of_silent_stage rfl (leaves rfl)
  obtain ⟨kept, covered⟩ := sheltered entering.after passes
  have back := layers_of_visit enters kept leaves
  have opened : entering.after.store.outer = e.store.layers :=
    congrArg Prod.fst (below_of_enterContext enters)
  rw [told, ended, List.forall_mem_cons, List.forall_mem_append, List.forall_mem_singleton]
  refine ⟨back, ?_, fun s hs => ?_, ?_⟩
  · rw [← opened]
    exact List.suffix_cons ..
  · have under := covered s hs
    rw [opened] at under
    exact under.trans (List.suffix_cons ..)
  · rw [back.1]

/-- Moves that leave every context that they enter do not touch what lies under
    the innermost layer. -/
theorem sheltered_of_nested (outward : host.IsOutward) {moves : List (Move η)}
    (nested : Nested moves) (e : Engine η ω) (passable : Passable host moves e) :
    Sheltered host moves e := by
  induction nested generalizing e with
  | nil => exact ⟨rfl, fun s hs => absurd hs List.not_mem_nil⟩
  | @other move moves other _ ih =>
    have first : (Stage.of host move e).after.below = e.below := below_move outward other e
    have outer : (Stage.of host move e).after.store.outer = e.store.outer :=
      congrArg Prod.fst first
    obtain ⟨-, passable⟩ := List.forall_mem_cons.mp passable
    obtain ⟨kept, covered⟩ := ih _ passable
    refine ⟨kept.trans first, List.forall_mem_cons.mpr ⟨?_, fun s hs => ?_⟩⟩
    · rw [outer]
    · rw [← outer]
      exact covered s hs
  | @visit scope inside moves _ _ inner rest =>
    have told : story host (visit scope inside ++ moves) e = _ := story_append _ moves e
    have ended : final host (visit scope inside ++ moves) e = _ := final_append _ moves e
    unfold Passable at passable
    rw [told, List.forall_mem_append] at passable
    obtain ⟨⟨layers, entered⟩, covered⟩ := visit_of_inside inner passable.1
    obtain ⟨kept, covered'⟩ := rest _ passable.2
    have outer : (final host (visit scope inside) e).store.outer = e.store.outer :=
      congrArg List.tail layers
    refine ⟨?_, ?_⟩
    · rw [ended, kept]
      exact congrArg₂ Prod.mk outer entered
    · rw [told, List.forall_mem_append]
      refine ⟨fun s hs => ?_, fun s hs => ?_⟩
      · rcases List.suffix_cons_iff.mp (covered s hs) with same | under
        · have outer : e.store.outer = s.after.store.outer := congrArg List.tail same
          rw [outer]
        · exact (List.suffix_cons ..).trans under
      · rw [← outer]
        exact covered' s hs

/-- A visit to a context leaves every layer that there was before, with its scope
    and in its place, as it was, whatever was stored, loaded and done by rules
    inside, in whatever contexts were entered there and left again. In the end the
    layers are what they were, and the contexts are; all along they lie under the
    others. -/
theorem visit_isolated (outward : host.IsOutward) (scope : String) {inside : List (Move η)}
    (nested : Nested inside) (e : Engine η ω)
    (passable : ∀ s ∈ story host (visit scope inside) e, s.move.isPassage → s.outcome.isOk) :
    let left := final host (visit scope inside) e
    left.store.layers = e.store.layers ∧ left.contexts = e.contexts ∧
      ∀ s ∈ story host (visit scope inside) e, e.store.layers <:+ s.after.store.layers := by
  have visited := visit_of_inside (sheltered_of_nested outward nested) passable
  exact ⟨visited.1.1, congrArg List.reverse visited.1.2, visited.2⟩

namespace Cellar

/-- A house in which the lamp is lit. -/
def house : Engine Unit Unit :=
  final (.ofReaction .silent) [.load ⟨[("lamp", .bool true)], []⟩ "house",
    .enterContext "house"] (ofConfig .default (.collecting []) ())

/-- What is fetched is counted everywhere, and the lamp goes out. -/
def fetch : Rule :=
  ⟨"fetch", "go", .always,
    [⟨.name "bottles", some (.named .global), .increment (.constant (.int 1))⟩,
      ⟨.name "lamp", none, .set (.constant (.bool false))⟩],
    [], [], .bool false, .int 0, .bool true⟩

def errand : List (Move Unit) := [.emit (.str "go") [], .tick]

/-- In the cellar something is fetched. The lamp breaks there, so what is to be
    fetched from the vault behind it comes to nothing. -/
def descent : List (Move Unit) :=
  .registerRule fetch "cellar" :: .emit (.str "go") [] :: .tick ::
    .load ⟨[("lamp", .string "broken")], []⟩ "cellar" :: (visit "vault" errand ++ [])

theorem nested_errand : Nested errand := .other nofun (.other nofun .nil)

theorem nested_descent : Nested descent :=
  .other nofun (.other nofun (.other nofun (.other nofun (.visit "vault" nested_errand .nil))))

/-- The lamp went out in the cellar and broke there, and it is still lit in the
    house, where the only trace is what was counted. -/
theorem descent_isolated :
    let left := final (.ofReaction .silent) (visit "cellar" descent) house
    left.store.layers = house.store.layers ∧ left.contexts = house.contexts ∧
      house.store.locals.map (fun (scope, facts) => (scope, facts.get? "lamp"))
        = [("base", none), ("house", some (.bool true))] ∧
      left.store.visible? (.name "lamp") = some (.bool true) ∧
      left.store.visible? (.name "bottles") = some (.int 1) := by
  have passes : ((story (.ofReaction .silent) (visit "cellar" descent) house).all
      fun s => s.outcome.isOk) = true := by decide +kernel
  obtain ⟨layers, contexts, -⟩ := visit_isolated (Host.isOutward_ofReaction Reaction.silent) "cellar"
    nested_descent house fun s member _ => List.all_eq_true.mp passes s member
  exact ⟨layers, contexts, by decide +kernel, by decide +kernel, by decide +kernel⟩

end Cellar

end Engine

end Cascade
