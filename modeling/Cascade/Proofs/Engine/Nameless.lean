-- SUMMARY: How loading, entering and leaving fail: without a trace, or half-way at a fact without a name.
import Cascade.Proofs.Attempt
import Cascade.Proofs.Outcome
import Cascade.Proofs.Store.Cautious
import Cascade.Engine.Basic

/-! # Facts without a name

A rule set may hold a fact whose name is empty, which no store takes. Loading
finds that out when the rules are registered already, and so does entering when
the context is open already. These are the only ways in which loading and
entering leave something behind when they fail; what they leave is what they
would have made of the engine, with the facts in front of that one stored. -/

namespace Cascade

open Attempt

namespace Facts

/-- One of the facts has no name. -/
def Nameless (facts : List (String × Fact)) : Prop := ∃ p ∈ facts, p.1 = ""

instance (facts : List (String × Fact)) : Decidable (Nameless facts) :=
  inferInstanceAs (Decidable (∃ p ∈ facts, p.1 = ""))

/-- The facts in front of the first one without a name. -/
def named (facts : List (String × Fact)) : List (String × Fact) :=
  facts.takeWhile (·.1 ≠ "")

theorem nameless_cons {p : String × Fact} {facts : List (String × Fact)} (h : p.1 ≠ "") :
    Nameless (p :: facts) ↔ Nameless facts := by
  simp [Nameless, h]

end Facts

/-! ## Storing -/

namespace Layered

/-- The store after facts have been written to a layer one by one. -/
def stored (layer : LayerName) (facts : List (String × Fact)) (db : Layered) : Layered :=
  facts.foldl (fun db (name, f) => db.write (layer.slot db) (.name name) (some f)) db

theorem store_named {name : String} (h : name ≠ "") (f : Fact) (layer : LayerName) (db : Layered) :
    (store (.name name) (.fact f) (.named layer)).on db
      = (.ok ⟨⟩, db.write (layer.slot db) (.name name) (some f)) :=
  (place (layer.slot db)).set_named h f db

theorem store_nameless (f : Fact) (layer : LayerName) (db : Layered) :
    (store (.name "") (.fact f) (.named layer)).on db = (.error (.mismatch .badKey), db) := rfl

/-- Facts are stored up to the first one without a name, at which storing fails. -/
theorem storeAll_on (facts : List (String × Fact)) (layer : LayerName) (db : Layered) :
    (facts.forM fun (name, f) => store (.name name) (.fact f) (.named layer)).on db
      = (if Facts.Nameless facts then .error (.mismatch .badKey) else .ok ⟨⟩,
          db.stored layer (Facts.named facts)) := by
  induction facts generalizing db with
  | nil => rfl
  | cons p facts ih =>
    obtain ⟨name, f⟩ := p
    change (store (.name name) (.fact f) (.named layer) >>= fun _ => facts.forM _).on db = _
    by_cases h : name = ""
    · subst h
      rw [bind_of_error (store_nameless f layer db), if_pos ⟨_, List.mem_cons_self .., rfl⟩]
      rfl
    · rw [bind_of_ok (store_named h f layer db), ih]
      simp [Facts.nameless_cons (p := (name, f)) h, Facts.named, stored, h]

theorem pushScope_on {name : String} (h : name ≠ "") (db : Layered) :
    (pushScope (.text name)).on db = (.ok ⟨⟩, db.pushed name) := by
  simp only [pushScope, Datum.text, Datum.text?, Document.text?, h]
  rfl

end Layered

namespace Engine

variable {η ω : Type}

theorem storeAll_on (facts : List (String × Fact)) (layer : LayerName) (e : Engine η ω) :
    (storeAll facts layer).on e
      = (if Facts.Nameless facts then .error (.mismatch .badKey) else .ok ⟨⟩,
          { e with store := e.store.stored layer (Facts.named facts) }) := by
  unfold storeAll onStore
  rw [on_zoom, Layered.storeAll_on]

/-! ## Loading -/

/-- The layer into which the facts of a rule set go at once when it is loaded. -/
def receiver? (scope : String) (e : Engine η ω) : Option LayerName :=
  if scope = Registry.globalScope then some .global
  else if e.current? = some scope then some .inner
  else none

/-- The engine after facts have been kept for the activations of a scope. -/
def seeded (scope : String) (facts : List (String × Fact)) (e : Engine η ω) : Engine η ω :=
  { e with
    seeds := Document.putField scope
      (facts.foldl (fun kept (name, f) => Document.putField name f kept) (e.seedsOf scope))
      e.seeds }

/-- The engine after the rules of a rule set have been registered, with its
    facts kept for a scope that is not the global one. -/
def admitted (registry : Registry) (scope : String) (facts : List (String × Fact))
    (e : Engine η ω) : Engine η ω :=
  if scope = Registry.globalScope then { e with registry }
  else seeded scope facts { e with registry }

/-- Stores facts in the layer that they go to, if there is one. -/
def receive (facts : List (String × Fact)) : Option LayerName → Attempt (Engine η ω) Unit
  | some layer => storeAll facts layer
  | none => pure ⟨⟩

theorem receive_fails_iff (facts : List (String × Fact)) (layer? : Option LayerName)
    (e e' : Engine η ω) (f : Fault) :
    (receive facts layer?).on e = (.error f, e') ↔
      ∃ layer, layer? = some layer ∧ Facts.Nameless facts ∧ f = .mismatch .badKey ∧
        e' = { e with store := e.store.stored layer (Facts.named facts) } := by
  cases layer? with
  | none => simp [receive]
  | some layer =>
    simp only [receive, storeAll_on, Option.some.injEq, exists_eq_left', Prod.mk.injEq]
    by_cases h : Facts.Nameless facts
    · simp [h, eq_comm]
    · simp [h]

/-- Once the rules are registered, loading receives the facts, notes it and gives the
    names. -/
theorem load_of_registered {e : Engine η ω} {rules : RuleSet} {scope : String}
    {registered : List Rule} {registry : Registry}
    (h : e.registry.registerBatch rules.rules scope e.config.duplicates
      = .ok (registered, registry)) :
    (load rules scope).on e
      = (receive rules.facts (e.receiver? scope) >>= fun _ =>
          note .debug "rule set loaded" [("scope", .str scope), ("rules", .int registered.length),
            ("facts", .int rules.facts.length)] >>= fun _ => pure (registered.map (·.id))).on
        (e.admitted registry scope rules.facts) := by
  unfold load receiver? admitted
  rw [bind_of_ok (on_get e), h, bind_of_ok (on_ofExcept _ _), bind_of_ok (on_set _ _)]
  by_cases isGlobal : scope = Registry.globalScope
  · simp only [if_pos isGlobal]
    rfl
  · simp only [if_neg isGlobal]
    have seeding : (seed scope rules.facts).on { e with registry }
        = (.ok ⟨⟩, seeded scope rules.facts { e with registry }) := rfl
    rw [bind_of_ok seeding]
    by_cases inside : e.current? = some scope
    · simp only [if_pos inside]
      rfl
    · simp only [if_neg inside]
      rfl

/-- Once the rules are registered, loading fails where the facts are received. -/
theorem load_fails_iff_receive {e e' : Engine η ω} {rules : RuleSet} {scope : String} {f : Fault}
    {registered : List Rule} {registry : Registry}
    (h : e.registry.registerBatch rules.rules scope e.config.duplicates
      = .ok (registered, registry)) :
    (load rules scope).on e = (.error f, e') ↔
      (receive rules.facts (e.receiver? scope)).on (e.admitted registry scope rules.facts)
        = (.error f, e') := by
  rw [load_of_registered h]
  exact bind_fails_iff fun _ e₁ => ⟨_, _, rfl⟩

/-- Loading fails in two ways: registering is refused, and nothing has changed;
    or the facts go into a layer at once, and one of them has no name. -/
theorem load_fails_iff (e e' : Engine η ω) (rules : RuleSet) (scope : String) (f : Fault) :
    (load rules scope).on e = (.error f, e') ↔
      (e.registry.registerBatch rules.rules scope e.config.duplicates = .error f ∧ e' = e) ∨
      ∃ registered registry layer,
        e.registry.registerBatch rules.rules scope e.config.duplicates
          = .ok (registered, registry) ∧
        e.receiver? scope = some layer ∧ Facts.Nameless rules.facts ∧ f = .mismatch .badKey ∧
        e' = { e.admitted registry scope rules.facts with
          store := e.store.stored layer (Facts.named rules.facts) } := by
  cases h : e.registry.registerBatch rules.rules scope e.config.duplicates with
  | error f' =>
    have refused : (load rules scope).on e = (.error f', e) := by
      unfold load
      rw [bind_of_ok (on_get e), h, bind_of_error (on_ofExcept _ _)]
    rw [refused]
    simp [eq_comm]
  | ok p =>
    obtain ⟨registered, registry⟩ := p
    have store : (e.admitted registry scope rules.facts).store = e.store := by
      unfold admitted
      split <;> rfl
    rw [load_fails_iff_receive h, receive_fails_iff, store]
    simp

/-! ## Contexts -/

def opened (scope : String) (e : Engine η ω) : Engine η ω :=
  { e with
    store := e.store.pushed scope
    registry := e.registry.activate scope
    entered := scope :: e.entered }

/-- Entering a scope that has a name opens the context and then stores its facts. -/
theorem enterContext_on {scope : String} (h : scope ≠ "") (e : Engine η ω) :
    (enterContext scope).on e
      = (storeAll (e.seedsOf scope) .inner >>= fun _ =>
          get >>= fun e => note .info "context entered" (e.contextFields scope)).on
        (e.opened scope) := by
  have pushing : (onStore (Layered.pushScope (.text scope))).on e
      = (.ok ⟨⟩, { e with store := e.store.pushed scope }) := by
    unfold onStore
    rw [on_zoom, Layered.pushScope_on h]
  unfold enterContext
  rw [bind_of_ok pushing]
  rfl

theorem enterContext_nameless (e : Engine η ω) :
    (enterContext "").on e = (.error (.badArgument .scope), e) := rfl

/-- Entering a context fails in two ways: the scope has no name, and nothing has
    changed; or one of the facts that were loaded for it has none. -/
theorem enterContext_fails_iff (e e' : Engine η ω) (scope : String) (f : Fault) :
    (enterContext scope).on e = (.error f, e') ↔
      (scope = "" ∧ f = .badArgument .scope ∧ e' = e) ∨
      (scope ≠ "" ∧ Facts.Nameless (e.seedsOf scope) ∧ f = .mismatch .badKey ∧
        e' = { e.opened scope with
          store := (e.store.pushed scope).stored .inner (Facts.named (e.seedsOf scope)) }) := by
  by_cases h : scope = ""
  · subst h
    rw [enterContext_nameless]
    simp [eq_comm]
  · rw [enterContext_on h]
    refine (bind_fails_iff fun _ e₁ => ⟨_, _, rfl⟩).trans ?_
    rw [storeAll_on]
    by_cases nameless : Facts.Nameless (e.seedsOf scope)
    · simp [h, nameless, opened, eq_comm]
    · simp [h, nameless]

/-- Leaving a context changes nothing if it fails. -/
theorem cautious_exitContext (scope : String) :
    Cautious (exitContext scope : Attempt (Engine η ω) Unit) := by
  have popping : Cautious (onStore (Layered.popScope (.text scope)) : Attempt (Engine η ω) Facts) :=
    (Layered.cautious_popScope _).zoom fun _ => rfl
  refine .get fun e => ?_
  cases e.entered with
  | nil => exact .throw _
  | cons top rest =>
    dsimp only
    split
    · exact .throw _
    · refine popping.then_returns fun _ e₁ => ?_
      by_cases again : scope ∉ rest
      · simp only [if_pos again]
        exact ⟨_, _, rfl⟩
      · simp only [if_neg again]
        exact ⟨_, _, rfl⟩

/-! ## Failures -/

/-- What has become of an engine when loading, entering or leaving fails. Either
    nothing has; or a fact without a name was to be stored, and then the rules
    are registered or the context is open, and the facts in front of that one
    are stored. -/
theorem engine_of_failed (e e' : Engine η ω) (rules : RuleSet) (scope : String) (f : Fault) :
    ((load rules scope).on e = (.error f, e') ↔
      (e.registry.registerBatch rules.rules scope e.config.duplicates = .error f ∧ e' = e) ∨
      ∃ registered registry layer,
        e.registry.registerBatch rules.rules scope e.config.duplicates
          = .ok (registered, registry) ∧
        e.receiver? scope = some layer ∧ Facts.Nameless rules.facts ∧ f = .mismatch .badKey ∧
        e' = { e.admitted registry scope rules.facts with
          store := e.store.stored layer (Facts.named rules.facts) }) ∧
    ((enterContext scope).on e = (.error f, e') ↔
      (scope = "" ∧ f = .badArgument .scope ∧ e' = e) ∨
      (scope ≠ "" ∧ Facts.Nameless (e.seedsOf scope) ∧ f = .mismatch .badKey ∧
        e' = { e.opened scope with
          store := (e.store.pushed scope).stored .inner (Facts.named (e.seedsOf scope)) })) ∧
    ((exitContext scope).on e = (.error f, e') → e' = e) :=
  ⟨load_fails_iff e e' rules scope f, enterContext_fails_iff e e' scope f,
    (cautious_exitContext scope).unchanged⟩

namespace Stall

/-- Two facts, the second one without a name, and a rule. -/
def goods : Document :=
  .dict
    [ ("facts", .dict [("gold", .int 5), ("", .int 1)]),
      ("rules", .list [.dict [("id", .str "haggle"), ("event", .str "haggle")]]) ]

def closed : Engine Unit Unit := ofConfig .default (.collecting []) ()

/-- The engine after the goods have been loaded into the scope of a stall. -/
def stocked (rules : RuleSet) : Engine Unit Unit := ((load rules "stall").on closed).2

/-- The document is read. Loading it into the global scope fails, with the rule
    registered and the first fact stored. Loading it into another scope succeeds,
    and entering that scope fails, with the context open. -/
theorem goods_half_loaded :
    ∃ rules, RuleSet.ofDocument goods = .ok rules ∧
      ¬((load rules "global").on closed).1.isOk ∧
      closed.registry.size = 0 ∧ ((load rules "global").on closed).2.registry.size = 1 ∧
      closed.store.visible? (.name "gold") = none ∧
      ((load rules "global").on closed).2.store.visible? (.name "gold") = some (.int 5) ∧
      ((load rules "stall").on closed).1.isOk ∧
      ¬((enterContext "stall").on (stocked rules)).1.isOk ∧
      (stocked rules).contexts = [] ∧
      ((enterContext "stall").on (stocked rules)).2.contexts = ["stall"] ∧
      (stocked rules).store.scopes = [] ∧
      ((enterContext "stall").on (stocked rules)).2.store.scopes = ["stall"] := by
  have seen : (RuleSet.ofDocument goods).toOption.map (fun rules => decide (
      ¬((load rules "global").on closed).1.isOk ∧
      closed.registry.size = 0 ∧ ((load rules "global").on closed).2.registry.size = 1 ∧
      closed.store.visible? (.name "gold") = none ∧
      ((load rules "global").on closed).2.store.visible? (.name "gold") = some (.int 5) ∧
      ((load rules "stall").on closed).1.isOk ∧
      ¬((enterContext "stall").on (stocked rules)).1.isOk ∧
      (stocked rules).contexts = [] ∧
      ((enterContext "stall").on (stocked rules)).2.contexts = ["stall"] ∧
      (stocked rules).store.scopes = [] ∧
      ((enterContext "stall").on (stocked rules)).2.store.scopes = ["stall"])) = some true := by
    decide +kernel
  obtain ⟨rules, read, holds⟩ := exists_of_map_toOption seen
  exact ⟨rules, read, of_decide_eq_true holds⟩

/-- What fails there has left the first fact in its layer; leaving a context that
    is not open has left nothing. -/
theorem goods_fail :
    ∃ rules registry, RuleSet.ofDocument goods = .ok rules ∧
      ((load rules "global").on closed).2
        = { closed with registry, store := closed.store.stored .global [("gold", .int 5)] } ∧
      ((enterContext "stall").on (stocked rules)).2
        = { (stocked rules).opened "stall" with
            store := ((stocked rules).store.pushed "stall").stored .inner [("gold", .int 5)] } ∧
      ((exitContext "stall").on (stocked rules)).2 = stocked rules := by
  have seen : (RuleSet.ofDocument goods).toOption.map (fun rules => decide (
      (closed.registry.registerBatch rules.rules "global" closed.config.duplicates).isOk ∧
      Facts.named rules.facts = [("gold", .int 5)] ∧
      Facts.named ((stocked rules).seedsOf "stall") = [("gold", .int 5)] ∧
      ¬((load rules "global").on closed).1.isOk ∧
      ¬((enterContext "stall").on (stocked rules)).1.isOk ∧
      ¬((exitContext "stall").on (stocked rules)).1.isOk)) = some true := by
    decide +kernel
  obtain ⟨rules, read, holds⟩ := exists_of_map_toOption seen
  obtain ⟨registers, facts, seeds, loading, entering, leaving⟩ := of_decide_eq_true holds
  obtain ⟨f, e₁, loaded⟩ := of_not_isOk loading
  obtain ⟨g, e₂, entered⟩ := of_not_isOk entering
  obtain ⟨h, e₃, left⟩ := of_not_isOk leaving
  have load_failed := (engine_of_failed closed e₁ rules "global" f).1.mp loaded
  have enter_failed := (engine_of_failed (stocked rules) e₂ rules "stall" g).2.1.mp entered
  have exit_failed := (engine_of_failed (stocked rules) e₃ rules "stall" h).2.2 left
  obtain ⟨refused, -⟩ | ⟨registered, registry, layer, -, goes, -, -, rfl⟩ := load_failed
  · rw [refused] at registers
    cases registers
  obtain ⟨unnamed, -⟩ | ⟨-, -, -, rfl⟩ := enter_failed
  · exact absurd unnamed (by decide)
  cases goes
  refine ⟨rules, registry, read, ?_, ?_, ?_⟩
  · rw [loaded, facts]
    rfl
  · rw [entered, seeds]
  · rw [left, exit_failed]

end Stall

end Engine

end Cascade
