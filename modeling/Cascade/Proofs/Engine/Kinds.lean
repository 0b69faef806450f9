-- SUMMARY: Kinds that stay: as long as no rule removes anything, every tick leaves what a key reads as of the kind that it was.
import Cascade.Proofs.Engine.Beats
import Cascade.Proofs.Modification.Fitting
import Cascade.Proofs.Registry.Sorting

/-! # Kinds that stay

What a modification writes is of the kind of what the key reads as, in whatever
layer that is, and what it writes may be covered by another layer or cover
something there. Either way the key goes on reading as a fact of that kind. So it
does from write to write and from rule to rule, also when a rule is undone or
breaks off half-way, as long as nothing is removed. -/

namespace Cascade

open Attempt

namespace Layered

/-! ## Stores -/

/-- Every key that reads as a fact goes on to read as one of the same kind. -/
def KeepsKinds (db db' : Layered) : Prop :=
  ∀ key f, db.visible? key = some f → ∃ g, db'.visible? key = some g ∧ g.kind = f.kind

variable {db db' db'' : Layered}

theorem KeepsKinds.refl (db : Layered) : KeepsKinds db db := fun _ f h => ⟨f, h, rfl⟩

theorem KeepsKinds.trans (h : KeepsKinds db db') (h' : KeepsKinds db' db'') :
    KeepsKinds db db'' := by
  intro key f hf
  obtain ⟨g, hg, same⟩ := h key f hf
  obtain ⟨g', hg', same'⟩ := h' key g hg
  exact ⟨g', hg', same'.trans same⟩

/-- Nothing but a name reads as a fact. -/
theorem visible?_other (db : Layered) (d : Datum) : db.visible? (.other d) = none := by
  simp [visible?, Facts.at?]

/-- After a fact was written, a key reads as before, or it is the key that was
    written and reads as that fact. -/
theorem visible?_write (name : LayerName) (db : Layered) (written : Key) (f : Fact) (key : Key) :
    (db.write (name.slot db) written (some f)).visible? key = db.visible? key ∨
      key = written ∧ (db.write (name.slot db) written (some f)).visible? key
        = db.births.settle written (some f) := by
  obtain ⟨g, settled, -⟩ := db.births.settle_some written f
  obtain ⟨inner, outer, under⟩ := write_inner db written (some f)
  obtain ⟨layers, global⟩ := write_global db written (some f)
  by_cases other : key ≠ written
  · refine .inl ?_
    cases name with
    | inner =>
      simp only [LayerName.slot, visible?, Layered.layers, inner, outer, under,
        List.findSome?_cons, Facts.at?_assign, Facts.overwritten_of_ne other, id]
    | global =>
      simp only [LayerName.slot, visible?, layers, global, Facts.at?_assign,
        Facts.overwritten_of_ne other, id]
  · obtain rfl : key = written := not_not.mp other
    cases key with
    | other d => exact .inl (by rw [visible?_other, visible?_other])
    | name s =>
      have stands (before : Option Fact) :
          Facts.overwritten (.name s) (some g) (.name s) before = some g := if_pos rfl
      rw [settled] at inner global ⊢
      cases name with
      | inner =>
        refine .inr ⟨rfl, ?_⟩
        simp only [LayerName.slot, visible?, Layered.layers, inner, List.findSome?_cons,
          Facts.at?_assign, stands, Option.some_or]
      | global =>
        -- a layer that holds the key covers what is written under it
        simp only [LayerName.slot, visible?, layers, global, Facts.at?_assign, stands]
        cases db.layers.findSome? (·.facts.at? (.name s)) with
        | some covering => exact .inl rfl
        | none => exact .inr ⟨trivial, rfl⟩

/-- What fits keeps kinds if nothing may be removed. -/
theorem Fitted.keepsKinds (h : Fitted False db db') : KeepsKinds db db' := by
  obtain ⟨name, written, fits⟩ := h
  rename_i content
  intro key f hf
  cases content with
  | none => exact fits.elim
  | some new =>
    rcases visible?_write name db written new key with same | ⟨rfl, left⟩
    · exact ⟨f, same.trans hf, rfl⟩
    · obtain ⟨g, settled, kind⟩ := db.births.settle_some key new
      exact ⟨g, left.trans settled, kind.trans (fits f hf)⟩

end Layered

/-! ## Rules -/

/-- A rule none of whose modifications removes anything. -/
def Rule.Conserves (rule : Rule) : Prop := ∀ m ∈ rule.modifications, m.effect ≠ .remove

namespace Engine

variable {η ω : Type} {host : Host η ω} {e e' : Engine η ω}

/-- Beats of rules that remove nothing leave the registry alone and keep kinds. -/
theorem Beat.keepsKinds (outward : host.IsOutward) (h : Beat host Rule.Conserves e e') :
    e'.registry = e.registry ∧ Layered.KeepsKinds e.store e'.store := by
  cases h with
  | told sink queue log => exact ⟨rfl, .refl _⟩
  | called handler call =>
    obtain ⟨state, left⟩ := outward handler call e
    rw [left]
    exact ⟨rfl, .refl _⟩
  | @ruled event rule conserves =>
    refine ⟨rfl, ?_⟩
    have fitted : Takes (Layered.Fitted False)
        (transaction (applyAll event.lookup e.config.layer rule.modifications)) :=
      fitted_transaction event e.config.layer fun m hm removes => conserves m hm removes
    have steps := fitted e.store
    change Layered.KeepsKinds e.store ((transaction _).on e.store).2
    generalize ((transaction _).on e.store).2 = store at steps
    induction steps with
    | refl => exact .refl _
    | tail _ step ih => exact ih.trans step.keepsKinds

/-! ## Ticks -/

/-- An engine with given rules whose store has kept the kinds of another one. -/
structure Kindly (registry : Registry) (start : Layered) (e : Engine η ω) : Prop where
  registry : e.registry = registry
  kinds : Layered.KeepsKinds start e.store

variable {registry : Registry} {start : Layered}

theorem Kindly.beat (outward : host.IsOutward) (h : Beat host Rule.Conserves e e')
    (kindly : e.Kindly registry start) : e'.Kindly registry start := by
  obtain ⟨same, kinds⟩ := h.keepsKinds outward
  exact ⟨same.trans kindly.registry, kindly.kinds.trans kinds⟩

/-- The rules that an event matches are registered, so none of them removes. -/
theorem kindly_process (outward : host.IsOutward)
    (conserve : ∀ scope, ∀ rule ∈ registry.rulesOf scope, rule.Conserves) (event : Event) :
    Maintains (·.Kindly registry start) (process host event) := by
  refine .of_holds fun e kindly => ?_
  unfold process
  rw [on_bind, on_reading]
  cases hr : e.registry.rulesForEvent event.id with
  | error f => exact kindly
  | ok rules =>
    have allowed : ∀ rule ∈ rules, rule.Conserves := fun rule hrule => by
      obtain ⟨scope, mem⟩ := Registry.mem_of_rulesForEvent hr hrule
      rw [kindly.registry] at mem
      exact conserve scope rule mem
    have applied : Maintains (·.Kindly registry start) (applyRules host event rules) :=
      (beats_applyRules host event allowed).mono fun _ _ => Kindly.beat outward
    dsimp only
    rw [left_then_pure]
    exact applied.holds kindly

/-- As long as no registered rule removes anything, every key that reads as a fact
    before a tick reads as a fact of the same kind after it, whatever comes of the
    tick. -/
theorem tick_keeps_kinds (outward : host.IsOutward)
    (conserve : ∀ scope, ∀ rule ∈ e.registry.rulesOf scope, rule.Conserves)
    (key : Key) (f : Fact) (before : e.store.visible? key = some f) :
    ∃ g, ((tick host).on e).2.store.visible? key = some g ∧ g.kind = f.kind := by
  have drained : Maintains (·.Kindly e.registry e.store) (drainAll host) :=
    takes_drainAll (fun _ _ _ _ kindly => ⟨kindly.registry, kindly.kinds⟩)
      (kindly_process outward conserve)
  rw [tick_on]
  split
  · exact ⟨f, before, rfl⟩
  · have left := drained.holds (s := { e with draining := true }) ⟨rfl, .refl _⟩
    exact left.kinds key f before

namespace Mint

/-- Gold that everyone sees, and a rate that is seen through a layer. -/
def vault : Layered :=
  (Layered.ofFacts (.ofList [("gold", .int 5), ("rate", .int 2)])).write (.layer 0) (.name "rate")
    (some (.float 1.5))

/-- Doubles the gold, here only, and sets the rate to an integer. -/
def strike : Rule :=
  ⟨"strike", "strike", .always,
    [⟨.name "gold", none, .combine .mul (.constant (.int 2))⟩,
      ⟨.name "rate", none, .set (.constant (.int 3))⟩],
    [], ["weigh"], .bool false, .int 0, .bool true⟩

/-- Adds to the gold and then, which fails, makes it a float. -/
def weigh : Rule :=
  ⟨"weigh", "weigh", .always,
    [⟨.name "gold", none, .increment (.constant (.int 1))⟩,
      ⟨.name "gold", some (.named .global), .set (.constant (.float 0.5))⟩],
    [], [], .bool false, .int 0, .bool true⟩

def mint : Engine Unit Unit :=
  { ofConfig .default (.collecting []) () with
    store := vault
    registry := Registry.empty.append Registry.globalScope [strike, weigh]
    queue := ⟨[⟨"strike", ∅, "strike", none⟩]⟩ }

theorem mint_conserves : ∀ scope, ∀ rule ∈ mint.registry.rulesOf scope, rule.Conserves := by
  refine Registry.forall_put _ (fun other => ?_) fun rule mem => ?_
  · rw [Registry.rulesOf_empty]
    exact nofun
  · obtain rfl | rfl : rule = strike ∨ rule = weigh := by simpa [Registry.rulesOf_empty] using mem
    · simp [Rule.Conserves, strike]
    · simp [Rule.Conserves, weigh]

/-- The gold was doubled, but not weighed, and is an integer still; the rate was
    set to an integer and is a float still. -/
theorem strike_keeps_kinds :
    let left := ((tick (.ofReaction .silent)).on mint).2
    ((tick (.ofReaction .silent)).on mint).1.isOk ∧
      left.store.visible? (.name "gold") = some (.int 10) ∧
      (∃ g, left.store.visible? (.name "rate") = some g ∧ g.kind = .float) ∧
      left.store.visible? (.name "rate") ≠ some (.float 1.5) := by
  have rate : mint.store.visible? (.name "rate") = some (.float 1.5) := by decide +kernel
  have kept := tick_keeps_kinds (Host.isOutward_ofReaction Reaction.silent) mint_conserves _ _ rate
  exact ⟨by decide +kernel, by decide +kernel, kept, by decide +kernel⟩

end Mint

end Engine

end Cascade
