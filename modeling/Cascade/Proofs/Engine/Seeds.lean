-- SUMMARY: The seeds of contexts: along every run, what a context has in its layer when it has been entered is the union of what was loaded into its scope, in which later facts win.
import Mathlib.Data.List.TakeWhile
import Cascade.Proofs.Engine.Contexts
import Cascade.Proofs.Modification.Course
import Cascade.Proofs.Registry.Changes

/-! # Seeds of contexts

What is loaded into a scope is kept apart from the store, and a context that is
entered gets it written into its new layer. Rules and handlers change the layer
then, and it is dropped with all of that when the context is left. What is kept
is changed by loading only. So it is at any time what the loads that succeeded
come to (`Seeded`), with one exception: a load may fail at a fact without a name
when it has been kept already, but the scope cannot be entered any more then.

Handlers may load rules in the middle of a tick. Which loads these are is known
only to the host, so the host is asked to keep account of them. -/

namespace Cascade

open Attempt

/-! ## Facts that are kept -/

namespace Facts

variable {facts kept : List (String × Fact)} {name : String}

/-- Facts put to those that are kept; later ones win. -/
def merge (facts kept : List (String × Fact)) : List (String × Fact) :=
  facts.foldl (fun kept (name, f) => Document.putField name f kept) kept

theorem merge_append (facts later kept : List (String × Fact)) :
    merge (facts ++ later) kept = merge later (merge facts kept) := List.foldl_append

theorem mem_names_merge :
    name ∈ (merge facts kept).map (·.1) ↔ name ∈ kept.map (·.1) ∨ name ∈ facts.map (·.1) := by
  induction facts generalizing kept with
  | nil => simp [merge]
  | cons p rest ih =>
    have first : merge (p :: rest) kept = merge rest (Document.putField p.1 p.2 kept) := rfl
    rw [first, ih, Registry.keys_putField, List.map_cons, List.mem_cons]
    split
    · rename_i present
      constructor
      · rintro (old | new)
        · exact .inl old
        · exact .inr (.inr new)
      · rintro (old | rfl | new)
        · exact .inl old
        · exact .inl present
        · exact .inr new
    · rw [List.mem_append, List.mem_singleton, or_assoc]

theorem nodup_merge (distinct : (kept.map (·.1)).Nodup) : ((merge facts kept).map (·.1)).Nodup := by
  induction facts generalizing kept with
  | nil => exact distinct
  | cons p rest ih => exact ih (Registry.nodup_putField distinct p.1 p.2)

/-- A name is found among facts put together as in the map that they make. -/
theorem find?_merge {m : Facts}
    (same : ∀ name, (kept.find? (·.1 = name)).map (·.2) = m.get? name) (name : String) :
    ((merge facts kept).find? (·.1 = name)).map (·.2)
      = (facts.foldl (fun m (name, f) => m.insert name f) m).get? name := by
  -- on the facts, over those that were put before them and the map that these make
  induction facts generalizing kept m with
  | nil => exact same name
  | cons p rest ih =>
    refine ih fun other => ?_
    rw [Registry.find?_putField, get?_insert]
    by_cases put : other = p.1
    · simp [put]
    · simp [put, Ne.symm put, same]

theorem nameless_iff : Nameless facts ↔ "" ∈ facts.map (·.1) := by
  simp [Nameless]

theorem named_of_not_nameless (h : ¬Nameless facts) : named facts = facts := by
  refine List.takeWhile_eq_self_iff.mpr fun p mem => ?_
  simpa using fun empty => h ⟨p, mem, empty⟩

end Facts

namespace Layered

/-- Facts that are written to the innermost layer one by one, each name once, are
    what it holds then, over what it held; nothing else is touched. -/
theorem stored_inner {facts : List (String × Fact)} (distinct : (facts.map (·.1)).Nodup)
    (db : Layered) :
    (db.stored .inner facts).global = db.global ∧ (db.stored .inner facts).outer = db.outer ∧
      (db.stored .inner facts).inner.scope = db.inner.scope ∧
      ∀ name, (db.stored .inner facts).inner.facts.get? name
        = (db.births.settle (.name name) ((facts.find? (·.1 = name)).map (·.2))).or
            (db.inner.facts.get? name) := by
  induction facts generalizing db with
  | nil => exact ⟨rfl, rfl, rfl, fun _ => rfl⟩
  | cons p rest ih =>
    obtain ⟨s, f⟩ := p
    obtain ⟨last, distinct⟩ := List.nodup_cons.mp distinct
    obtain ⟨inner, outer, global⟩ := db.write_inner (.name s) (some f)
    obtain ⟨global', outer', scope', holds⟩ :=
      ih distinct (db.write db.innerSlot (.name s) (some f))
    have first : db.stored .inner ((s, f) :: rest)
        = (db.write db.innerSlot (.name s) (some f)).stored .inner rest := rfl
    rw [first]
    refine ⟨global'.trans global, outer'.trans outer, ?_, fun name => ?_⟩
    · rw [scope', inner]
    · rw [holds, inner, births_write, Facts.get?_assign]
      by_cases here : s = name
      · subst here
        have absent : rest.find? (·.1 = s) = none := by
          rw [List.find?_eq_none]
          intro p mem same
          exact last (List.mem_map.mpr ⟨p, mem, by simpa using same⟩)
        have present : ((s, f) :: rest).find? (·.1 = s) = some (s, f) := by simp
        obtain ⟨g, settled, -⟩ := db.births.settle_some (.name s) f
        rw [absent, present, if_pos rfl, Option.map_some, settled]
        rfl
      · have elsewhere : Key.name name ≠ .name s := fun same => here (Key.name.inj same).symm
        have settles := Births.settle_congr
          (Births.under_after_of_ne elsewhere db.births (some f))
          ((rest.find? (·.1 = name)).map (·.2))
        simp [here, settles]

end Layered

namespace Engine

variable {η ω : Type} {e e' : Engine η ω} {host : Host η ω}

/-! ## Loads -/

/-- A load that succeeded: the scope that it was into, and its facts. -/
structure Load where
  scope : String
  facts : List (String × Fact)
  deriving DecidableEq

/-- The facts of those loads that were into a scope, in order. -/
def Load.into (scope : String) (loads : List Load) : List (String × Fact) :=
  (loads.filter (·.scope = scope)).flatMap (·.facts)

theorem Load.into_append (scope : String) (loads later : List Load) :
    into scope (loads ++ later) = into scope loads ++ into scope later := by
  simp [into]

/-- What is kept for every scope but the global one is what was loaded into it; or
    it has a fact without a name, and the scope cannot be entered. -/
def Seeded (loads : List Load) (e : Engine η ω) : Prop :=
  ∀ scope, scope ≠ Registry.globalScope →
    Facts.Nameless (e.seedsOf scope) ∨ e.seedsOf scope = Facts.merge (Load.into scope loads) []

theorem seeded_of_fresh (fresh : e.seeds = []) : e.Seeded [] := by
  intro scope _
  right
  rw [seedsOf, fresh]
  rfl

theorem Seeded.of_same {loads : List Load} (h : e.Seeded loads) (same : e'.seeds = e.seeds) :
    e'.Seeded loads := by
  intro scope isLocal
  have kept : e'.seedsOf scope = e.seedsOf scope := by rw [seedsOf, same, seedsOf]
  rw [kept]
  exact h scope isLocal

theorem seedsOf_seeded (scope : String) (facts : List (String × Fact)) (e : Engine η ω)
    (other : String) :
    (e.seeded scope facts).seedsOf other
      = if other = scope then Facts.merge facts (e.seedsOf scope) else e.seedsOf other := by
  unfold seedsOf seeded
  rw [Registry.find?_putField]
  split
  · rfl
  · rfl

/-- A load that succeeds adds its facts to those that are kept for its scope, unless
    that is the global one. -/
theorem seeds_of_loaded {rules : RuleSet} {scope : String} {names : List String}
    (h : (load rules scope).on e = (.ok names, e')) :
    e'.seeds
      = if scope = Registry.globalScope then e.seeds else (e.seeded scope rules.facts).seeds := by
  rw [load, bind_of_ok (on_get e)] at h
  obtain ⟨⟨registered, registry⟩, -, h⟩ := of_given_bind h
  rw [bind_of_ok (on_set _ _)] at h
  by_cases isGlobal : scope = Registry.globalScope
  · simp only [if_pos isGlobal] at h ⊢
    obtain ⟨_, e₁, stored, noted⟩ := of_bind_ok h
    rw [storeAll_on] at stored
    obtain ⟨-, rfl⟩ := Prod.mk.inj stored
    cases noted
    rfl
  · simp only [if_neg isGlobal] at h ⊢
    have seeding : (seed scope rules.facts).on { e with registry }
        = (.ok ⟨⟩, seeded scope rules.facts { e with registry }) := rfl
    rw [bind_of_ok seeding] at h
    split at h
    · obtain ⟨_, e₁, stored, noted⟩ := of_bind_ok h
      rw [storeAll_on] at stored
      obtain ⟨-, rfl⟩ := Prod.mk.inj stored
      cases noted
      rfl
    · cases h
      rfl

theorem Seeded.loaded {loads : List Load} (h : e.Seeded loads) {rules : RuleSet} {scope : String}
    {names : List String} (loaded : (load rules scope).on e = (.ok names, e')) :
    e'.Seeded (loads ++ [⟨scope, rules.facts⟩]) := by
  intro other isLocal
  have seeds := seeds_of_loaded loaded
  rw [Load.into_append]
  by_cases here : other = scope
  · subst here
    rw [if_neg isLocal] at seeds
    have kept : e'.seedsOf other = Facts.merge rules.facts (e.seedsOf other) := by
      rw [seedsOf, seeds]
      exact (seedsOf_seeded other rules.facts e other).trans (if_pos rfl)
    have own : Load.into other [⟨other, rules.facts⟩] = rules.facts := by simp [Load.into]
    rw [kept, own, Facts.merge_append]
    obtain nameless | same := h other isLocal
    · left
      rw [Facts.nameless_iff] at nameless ⊢
      exact Facts.mem_names_merge.mpr (.inl nameless)
    · exact .inr (by rw [same])
  · have kept : e'.seedsOf other = e.seedsOf other := by
      rw [seedsOf, seeds]
      split
      · rfl
      · exact (seedsOf_seeded scope rules.facts e other).trans (if_neg here)
    have foreign : Load.into other [⟨scope, rules.facts⟩] = [] := by
      simp [Load.into, Ne.symm here]
    rw [kept, foreign, List.append_nil]
    exact h other isLocal

/-- A load that fails has kept nothing, or it has kept a fact without a name. -/
theorem Seeded.refused {loads : List Load} (h : e.Seeded loads) {rules : RuleSet} {scope : String}
    {f : Fault} (refused : (load rules scope).on e = (.error f, e')) : e'.Seeded loads := by
  obtain ⟨-, rfl⟩ | ⟨_, registry, layer, -, -, nameless, -, rfl⟩ :=
    (load_fails_iff e e' rules scope f).mp refused
  · exact h
  · intro other isLocal
    change Facts.Nameless ((e.admitted registry scope rules.facts).seedsOf other) ∨
      (e.admitted registry scope rules.facts).seedsOf other = _
    unfold admitted
    split
    · exact h other isLocal
    · rw [seedsOf_seeded]
      split
      · left
        rw [Facts.nameless_iff] at nameless ⊢
        exact Facts.mem_names_merge.mpr (.inr nameless)
      · exact h other isLocal

theorem host_of_load (rules : RuleSet) (scope : String) (e : Engine η ω) :
    ((load rules scope).on e).2.host = e.host := by
  have keeps : Keeps Engine.host (load rules scope : Attempt (Engine η ω) (List String)) := by
    refine (takes_load rules scope).keeps fun e e' step => ?_
    cases step with
    | registered => rfl
    | stored facts layer => rw [storeAll_on]
    | noted => rfl
  exact keeps e

/-! ## Other moves -/

/-- What a run keeps of its loads: the seeds, and the state of the host. -/
def kept (e : Engine η ω) : List (String × List (String × Fact)) × ω := (e.seeds, e.host)

/-- No move but a load or a tick has to do with the seeds. -/
theorem keeps_kept {move : Move η} (noTick : ¬move.isTick)
    (noLoad : ∀ rules scope, move ≠ .load rules scope) : Keeps kept (move.run host) := by
  have silent {α : Type} {a : Attempt (Engine η ω) α} (h : Keeps kept a) :
      Keeps kept (Move.silently a) := h.bind fun _ => .pure _
  cases move with
  | load rules scope => exact absurd rfl (noLoad rules scope)
  | registerRule rule scope =>
    refine silent (.get fun e => Keeps.given fun registry _ => Keeps.set rfl ?_)
    exact .pure rule.id
  | registerAction action handler =>
    exact silent (.get fun _ => Keeps.given fun _ _ => rfl)
  | enterContext scope =>
    refine silent fun e => ?_
    by_cases named : scope = ""
    · subst named
      rfl
    · obtain ⟨facts, log, left⟩ := left_enterContext named e
      rw [left]
      rfl
  | exitContext scope =>
    refine silent fun e => ?_
    obtain ⟨f, refused⟩ | ⟨outer, store, log, -, -, -, left⟩ := exitContext_on scope e
    · rw [refused]
    · rw [left]
      rfl
  | emit id payload =>
    intro e
    rw [run_emit_on]
    cases Event.make id payload "" none with
    | ok event => rfl
    | error f => rfl
  | tick => exact absurd rfl noTick

/-! ## Accounts -/

variable {account : ω → List Load}

/-- What a host does to an engine besides the moves of a run, or in the middle of a
    tick: it loads rules and puts that on account, it fails to load some, or it
    changes something else. -/
inductive Accounting (account : ω → List Load) : Engine η ω → Engine η ω → Prop
  | loaded {e e' : Engine η ω} {rules : RuleSet} {scope : String} {names : List String}
      {state : ω} :
      (load rules scope).on e = (.ok names, e') →
      account state = account e.host ++ [⟨scope, rules.facts⟩] →
      Accounting account e { e' with host := state }
  | refused {e e' : Engine η ω} {rules : RuleSet} {scope : String} {f : Fault} :
      (load rules scope).on e = (.error f, e') → Accounting account e e'
  | aside {e e' : Engine η ω} :
      e'.seeds = e.seeds → account e'.host = account e.host → Accounting account e e'

/-- A host keeps account of the loads of its handlers. -/
def IsAccounted (host : Host η ω) (account : ω → List Load) : Prop :=
  ∀ handler call, Takes (Accounting account) (host handler call)

/-- What has come to the account. -/
def added (account : ω → List Load) (e e' : Engine η ω) : List Load :=
  (account e'.host).drop (account e.host).length

/-- Whatever loads there were before, what has come to the account is all that was
    loaded since. -/
def Recorded (account : ω → List Load) (e e' : Engine η ω) : Prop :=
  account e'.host = account e.host ++ added account e e' ∧
    ∀ loads, e.Seeded loads → e'.Seeded (loads ++ added account e e')

namespace Recorded

variable {e'' : Engine η ω}

theorem of_new (new : List Load) (grew : account e'.host = account e.host ++ new)
    (seeded : ∀ loads, e.Seeded loads → e'.Seeded (loads ++ new)) : Recorded account e e' := by
  have same : added account e e' = new := by rw [added, grew, List.drop_left]
  exact ⟨by rw [same, grew], fun loads h => by rw [same]; exact seeded loads h⟩

/-- Where nothing came to the account, nothing was loaded. -/
theorem of_same (account' : account e'.host = account e.host)
    (seeded : ∀ loads, e.Seeded loads → e'.Seeded loads) : Recorded account e e' :=
  .of_new [] (by rw [account', List.append_nil]) fun loads h => by
    rw [List.append_nil]
    exact seeded loads h

theorem trans (h : Recorded account e e') (h' : Recorded account e' e'') :
    Recorded account e e'' := by
  refine .of_new (added account e e' ++ added account e' e'') ?_ fun loads seeded => ?_
  · rw [h'.1, h.1, List.append_assoc]
  · rw [← List.append_assoc]
    exact h'.2 _ (h.2 loads seeded)

end Recorded

theorem Accounting.recorded (h : Accounting account e e') : Recorded account e e' := by
  cases h with
  | loaded loaded grew => exact .of_new _ grew fun loads h => (h.loaded loaded).of_same rfl
  | @refused _ rules scope f refused =>
    have same := host_of_load rules scope e
    rw [refused] at same
    exact .of_same (congrArg account same) fun loads h => h.refused refused
  | aside seeds same => exact .of_same same fun loads h => h.of_same seeds

theorem recorded_of_steps (steps : Relation.ReflTransGen (Accounting account) e e') :
    Recorded account e e' := by
  induction steps with
  | refl => exact .of_same rfl fun loads h => h
  | tail _ step ih => exact ih.trans step.recorded

/-- A tick comes to what its handlers do, beside which nothing touches the seeds. -/
theorem steps_of_tick (accounted : IsAccounted host account) (e : Engine η ω) :
    Relation.ReflTransGen (Accounting account) e ((tick host).on e).2 := by
  have beats : Takes (Accounting account) (drainAll host) := by
    intro e
    have steps := beats_drainAll host e
    generalize ((drainAll host).on e).2 = last at steps
    induction steps with
    | refl => exact .refl
    | tail _ beat ih =>
      refine ih.trans ?_
      cases beat with
      | told sink queue log => exact .single (.aside rfl rfl)
      | ruled event allowed => exact .single (.aside rfl rfl)
      | called handler call => exact accounted handler call _
  rw [tick_on]
  split
  · exact .refl
  · have begun : Accounting account e { e with draining := true } := .aside rfl rfl
    exact (Relation.ReflTransGen.head begun (beats { e with draining := true })).tail
      (.aside rfl rfl)

/-! ## Runs -/

/-- The loads that succeeded in a stage: the one that was its move, or those that
    came to the account in a tick. -/
def Stage.loads (account : ω → List Load) (s : Stage η ω) : List Load :=
  match s.move, s.outcome with
  | .load rules scope, .ok _ => [⟨scope, rules.facts⟩]
  | .tick, _ => added account s.before s.after
  | _, _ => []

/-- A run of an engine with the loads that succeeded along it. It is made of moves
    and of what the host does besides, be it between two moves or in the middle of
    a tick. -/
inductive Run (host : Host η ω) (account : ω → List Load) (start : Engine η ω) :
    List Load → Engine η ω → Prop
  | start : Run host account start [] start
  | moved {loads : List Load} {now : Engine η ω} (run : Run host account start loads now)
      (move : Move η) :
      Run host account start (loads ++ (Stage.of host move now).loads account)
        (Stage.of host move now).after
  | besides {loads : List Load} {now next : Engine η ω} (run : Run host account start loads now)
      (step : Accounting account now next) :
      Run host account start (loads ++ added account now next) next

variable {start now : Engine η ω} {loads : List Load}

/-- Moves one after the other go on with a run. -/
theorem Run.story (run : Run host account start loads now) (moves : List (Move η)) :
    Run host account start (loads ++ (Engine.story host moves now).flatMap (·.loads account))
      (final host moves now) := by
  induction moves generalizing loads now with
  | nil =>
    rw [Engine.story, List.flatMap_nil, List.append_nil]
    exact run
  | cons move rest ih =>
    rw [Engine.story, List.flatMap_cons, ← List.append_assoc]
    exact ih (run.moved move)

theorem stage_load (rules : RuleSet) (scope : String) (e : Engine η ω) :
    Stage.of host (.load rules scope) e
      = ⟨.load rules scope, e, ((load rules scope).on e).1.map fun _ => .empty,
          ((load rules scope).on e).2⟩ := by
  rw [Stage.of, Move.run, Move.silently, left_then_pure, outcome_then_pure]

/-- What is kept for the scopes is what was loaded, after each stage as before. -/
theorem Seeded.stage (accounted : IsAccounted host account) (h : e.Seeded loads) (move : Move η) :
    (Stage.of host move e).after.Seeded (loads ++ (Stage.of host move e).loads account) := by
  have other (none : (Stage.of host move e).loads account = [])
      (same : kept (Stage.of host move e).after = kept e) :
      (Stage.of host move e).after.Seeded (loads ++ (Stage.of host move e).loads account) := by
    rw [none, List.append_nil]
    exact h.of_same (congrArg Prod.fst same)
  cases move with
  | load rules scope =>
    rw [stage_load]
    rcases loaded : (load rules scope).on e with ⟨f | names, e'⟩
    · change e'.Seeded (loads ++ [])
      rw [List.append_nil]
      exact h.refused loaded
    · exact h.loaded loaded
  | tick => exact (recorded_of_steps (steps_of_tick accounted e)).2 loads h
  | _ => exact other rfl (keeps_kept (by nofun) (by nofun) e)

/-- What is kept for the scopes is what was loaded, along every run. -/
theorem Run.seeded (accounted : IsAccounted host account) (fresh : start.seeds = [])
    (run : Run host account start loads now) : now.Seeded loads := by
  induction run with
  | start => exact seeded_of_fresh fresh
  | moved run move ih => exact ih.stage accounted move
  | besides run step ih => exact step.recorded.2 _ ih

/-! ## Entering -/

/-- Entering succeeds if the scope has a name and all its facts have one, and writes
    them to the layer that it has opened. -/
theorem of_enterContext {scope : String} (h : (enterContext scope).on e = (.ok ⟨⟩, e')) :
    ¬Facts.Nameless (e.seedsOf scope) ∧
      e'.store = (e.store.pushed scope).stored .inner (e.seedsOf scope) := by
  by_cases unnamed : scope = ""
  · rw [unnamed, enterContext_nameless] at h
    cases h
  · rw [enterContext_on unnamed] at h
    obtain ⟨_, e₁, stored, noted⟩ := of_bind_ok h
    rw [storeAll_on] at stored
    by_cases nameless : Facts.Nameless (e.seedsOf scope)
    · rw [if_pos nameless] at stored
      cases stored
    · obtain ⟨-, rfl⟩ := Prod.mk.inj stored
      cases noted
      exact ⟨nameless, by rw [Facts.named_of_not_nameless nameless]; rfl⟩

/-- Along every run of an engine that began with no seeds, whenever a context other
    than the global one has been entered, the store has one layer more, and that
    holds exactly the union of the facts that were ever loaded into the scope with
    success, be it by the host or by a handler, where later ones win. Only an
    indeterminate fact that was never stored is born when it is written there. The
    layers below are what they were. -/
theorem entered_exactly (accounted : IsAccounted host account) (fresh : start.seeds = [])
    (run : Run host account start loads now) {scope : String}
    (isLocal : scope ≠ Registry.globalScope)
    (enters : (enterContext scope).on now = (.ok ⟨⟩, e')) :
    let given := Facts.ofList (Load.into scope loads)
    e'.store.inner.scope = scope ∧ e'.store.outer = now.store.layers ∧
      e'.store.global = now.store.global ∧
      (∀ name, e'.store.inner.facts.get? name
        = now.store.births.settle (.name name) (given.get? name)) ∧
      ((∀ name, given.get? name ≠ some (.indeterminate none)) → e'.store.inner.facts = given) := by
  intro given
  obtain ⟨named, stored⟩ := of_enterContext enters
  obtain nameless | seeds := run.seeded accounted fresh scope isLocal
  · exact absurd nameless named
  have distinct : ((now.seedsOf scope).map (·.1)).Nodup := by
    rw [seeds]
    exact Facts.nodup_merge List.nodup_nil
  have found (name : String) :
      ((now.seedsOf scope).find? (·.1 = name)).map (·.2) = given.get? name := by
    have none (other : String) : (([] : List (String × Fact)).find? (·.1 = other)).map (·.2)
        = (∅ : Facts).get? other := (Facts.get?_empty other).symm
    rw [seeds]
    exact Facts.find?_merge none name
  obtain ⟨global, outer, opened, holds⟩ :=
    Layered.stored_inner distinct (now.store.pushed scope)
  have held (name : String) : e'.store.inner.facts.get? name
      = now.store.births.settle (.name name) (given.get? name) := by
    have empty : (now.store.pushed scope).inner.facts.get? name = none := Facts.get?_empty name
    rw [stored, holds, found, empty, Option.or_none]
    rfl
  refine ⟨?_, ?_, ?_, held, fun born => ?_⟩
  · rw [stored, opened]
    rfl
  · rw [stored, outer]
    rfl
  · rw [stored, global]
    rfl
  · ext name : 1
    rw [held]
    cases given' : given.get? name with
    | none => rfl
    | some f =>
      refine Births.settle_of_born _ ?_
      rintro rfl
      exact born name given'

namespace Poultry

/-- Handlers that bring goods to the stall and keep account of them. -/
def carter : Host RuleSet (List Load) := fun goods _ => do
  let _ ← load goods "stall"
  modify fun e => { e with host := e.host ++ [⟨"stall", goods.facts⟩] }

theorem carter_accounted : IsAccounted carter id := by
  intro goods call e
  unfold carter
  have host := host_of_load goods "stall" e
  rcases loaded : (load goods "stall").on e with ⟨f | names, e'⟩ <;> rw [loaded] at host
  · rw [bind_of_error loaded]
    exact .single (.refused loaded)
  · rw [bind_of_ok loaded]
    have host : e'.host = e.host := host
    exact .single (.loaded loaded (by rw [host]; rfl))

/-- The rule by which somebody who haggles drives the price up and has more goods
    brought. -/
def haggle : Rule :=
  ⟨"haggle", "haggle", .always,
    [⟨.name "price", none, .increment (.constant (.int 1))⟩], ["bring"], [], .bool false, .int 0,
    .bool true⟩

def market : Engine RuleSet (List Load) := ofConfig .default (.collecting []) []

/-- There is haggling at a stall with a price and some hens. Then the stall is left. -/
def trade : List (Move RuleSet) :=
  [ .load ⟨[("price", .int 5), ("hens", .int 2)], [haggle]⟩ "stall",
    .load ⟨[("price", .int 1)], []⟩ "inn",
    .registerAction (.str "bring") ⟨[("hens", .int 9)], []⟩, .enterContext "stall",
    .emit (.str "haggle") [], .tick, .exitContext "stall" ]

/-- Whoever enters the stall again finds the price that was loaded and the hens
    that were brought. -/
theorem stall_again :
    ∃ e', (enterContext "stall").on (final carter trade market) = (.ok ⟨⟩, e') ∧
      e'.store.inner.scope = "stall" ∧ e'.store.outer = (final carter trade market).store.layers ∧
      e'.store.inner.facts.get? "price" = some (.int 5) ∧
      e'.store.inner.facts.get? "hens" = some (.int 9) := by
  have loads : (story carter trade market).flatMap (·.loads id)
      = [⟨"stall", [("price", .int 5), ("hens", .int 2)]⟩, ⟨"inn", [("price", .int 1)]⟩,
          ⟨"stall", [("hens", .int 9)]⟩] := by
    decide +kernel
  have enters : ((enterContext "stall").on (final carter trade market)).1.toOption.isSome := by
    decide +kernel
  obtain ⟨⟨⟩, e', enters⟩ := of_isSome enters
  have run : Run carter id market ([] ++ (story carter trade market).flatMap (·.loads id)) _ :=
    Run.start.story trade
  rw [loads] at run
  obtain ⟨scope, outer, -, holds, -⟩ := entered_exactly carter_accounted rfl run (by decide) enters
  exact ⟨e', enters, scope, outer, holds "price", holds "hens"⟩

end Poultry

end Engine

end Cascade
