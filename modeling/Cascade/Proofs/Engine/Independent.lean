-- SUMMARY: Events whose rules have nothing to do with each other: in whichever order they are processed, the same rules fire and the same facts are left.
import Cascade.Proofs.Engine.Dispatches
import Cascade.Proofs.Modification.Footprint

/-! # Independent events

Two events are independent if no rule on the one writes a key to which a rule on
the other refers. The rules on an event see the store only through the keys that
they refer to, so before and after the other event they are given engines that
are **near** each other, and from these they do the same, but for what handlers
are told. As these may answer otherwise then, the other order can fail with a fault
of theirs that cannot be worded, and in no other way. What is left agrees on every
key in either order: on the keys of one event because the other one does not write
them. -/

namespace Cascade

open Attempt

/-! ## Reports without what handlers have to do with -/

/-- A report without the facts that actions were called with and without the
    issues of actions that failed. -/
def Report.outline (r : Report) : Report :=
  { r with
    calls := r.calls.map fun call => { call with facts := ∅ }
    issues := r.issues.filter (·.kind ≠ .actionFailed) }

theorem Report.outline_append (r r' : Report) : (r ++ r').outline = r.outline ++ r'.outline := by
  change outline (append r r') = append r.outline r'.outline
  simp only [outline, append, List.map_append, List.filter_append]

theorem Report.outline_issue {i : Issue} (h : i.kind = .actionFailed) :
    (issue i).outline = .empty := by
  simp [outline, issue, empty, h]

theorem Report.outline_total (rs : List Report) :
    (total rs).outline = total (rs.map outline) := by
  induction rs with
  | nil => rfl
  | cons r rs ih => rw [List.map_cons, total_cons, total_cons, outline_append, ih]

/-- Two reports that differ at most in what handlers have to do with. -/
def Report.Like (r r' : Report) : Prop := r.outline = r'.outline

theorem Report.Like.append {a a' b b' : Report} (h : a.Like a') (h' : b.Like b') :
    (a ++ b).Like (a' ++ b') := by
  unfold Report.Like
  rw [outline_append, outline_append, h, h']

/-! ## The keys of rules -/

def Rule.keysOf (rules : List Rule) : Set Key := {key | ∃ rule ∈ rules, key ∈ rule.keys}

def Rule.writesOf (rules : List Rule) : Set Key := {key | ∃ rule ∈ rules, key ∈ rule.writes}

theorem Rule.writesOf_subset_keysOf (rules : List Rule) : writesOf rules ⊆ keysOf rules := by
  rintro key ⟨rule, member, written⟩
  exact ⟨rule, member, rule.writes_subset_keys written⟩

namespace Engine

variable {η ω : Type}

/-! ## Engines that are near -/

/-- Two engines that treat events alike as far as some keys go: their stores agree
    on these, and rules, handlers and settings are the same. -/
structure Near (keys : Set Key) (e k : Engine η ω) : Prop where
  store : Layered.Agree keys e.store k.store
  config : e.config = k.config
  dispatcher : e.dispatcher = k.dispatcher
  registry : e.registry = k.registry

namespace Near

variable {keys keys' : Set Key} {e e' k : Engine η ω}

theorem refl (keys : Set Key) (e : Engine η ω) : Near keys e e := ⟨.refl _ _, rfl, rfl, rfl⟩

theorem symm (h : Near keys e k) : Near keys k e :=
  ⟨h.store.symm, h.config.symm, h.dispatcher.symm, h.registry.symm⟩

theorem trans (h : Near keys e e') (h' : Near keys e' k) : Near keys e k where
  store := h.store.trans h'.store
  config := h.config.trans h'.config
  dispatcher := h.dispatcher.trans h'.dispatcher
  registry := h.registry.trans h'.registry

theorem mono (h : Near keys e k) (fewer : keys' ⊆ keys) : Near keys' e k :=
  { h with store := h.store.mono fewer }

/-- What engines tell and what their hosts keep has no part in their being near. -/
theorem aside (h : Near keys e k) (sink sink' : Sink) (log log' : List LogEntry)
    (host host' : ω) :
    Near keys { e with sink, log, host } { k with sink := sink', log := log', host := host' } :=
  ⟨h.store, h.config, h.dispatcher, h.registry⟩

end Near

variable {keys : Set Key} {host : Host η ω} {event : Event} {rule : Rule}

/-! ## Calling and putting out -/

theorem near_note (level : LogLevel) (message : String) (fields : List (String × Document)) :
    Respects (Near keys) (note level message fields : Attempt (Engine η ω) Unit) :=
  .modify fun e k h => h.aside e.sink k.sink _ _ e.host k.host

theorem near_raise (i : Issue) :
    Respects (Near keys) (raise i : Attempt (Engine η ω) Report) := by
  intro e k h
  rw [on_raise, on_raise]
  exact ⟨rfl, h.aside _ _ _ _ e.host k.host⟩

theorem near_putOut (ids : List Document) :
    Respects (Near keys) (putOut rule event ids : Attempt (Engine η ω) Report) := by
  induction ids with
  | nil => exact .pure _
  | cons id rest ih =>
    refine (Respects.ofExcept _).seq fun out => ?_
    refine Respects.seq (.modify ?_) fun _ => ih.seq fun _ => .pure _
    intro e k h
    exact ⟨h.store, h.config, h.dispatcher, h.registry⟩

/-- What is reported of actions in order, however their handlers fare. -/
def callsOutline (dispatcher : Dispatcher η) (rule : Rule) (actions : List String) : Report :=
  .total ((actions.filter fun action => (dispatcher.handler? action).isSome).map fun action =>
    .call ⟨action, rule.id, ∅⟩)

theorem outline_dispatchAll (outward : host.IsOutward) {e e' : Engine η ω} {facts : Facts}
    {actions : List String} {r : Report}
    (h : (dispatchAll host rule event facts actions).on e = (.ok r, e')) :
    r.outline = callsOutline e.dispatcher rule actions := by
  have outcome : ((dispatchAll host rule event facts actions).on e).1 = _ :=
    dispatchAll_outcome actions e
  rw [h] at outcome
  obtain ⟨calm, rfl⟩ := outcomeOf_eq_ok.mp outcome.symm
  have told : ∀ d ∈ dispatches host rule event facts actions e,
      (d.report host).outline = .call ⟨d.action, rule.id, ∅⟩ := by
    intro d mem
    obtain ⟨rfl, -⟩ := of_mem_dispatches d mem
    rw [Dispatch.report, Report.outline_append]
    cases failed : d.failure? host with
    | none => rfl
    | some i =>
      rw [Option.map_some, Option.getD_some,
        Report.outline_issue (Dispatch.kind_of_failure? failed)]
      rfl
  obtain ⟨-, all⟩ := actions_dispatches outward facts actions e
  rw [Report.outline_total, List.map_map, callsOutline, ← all calm, List.map_map]
  exact congrArg Report.total (List.map_congr_left told)

theorem mirrors_dispatchAll (outward : host.IsOutward) (facts facts' : Facts)
    (actions : List String) :
    Mirrors (Near keys) host.Lapses Report.Like (dispatchAll host rule event facts actions)
      (dispatchAll host rule event facts' actions) := by
  intro e k near r e' ok
  have left : ∃ sink log state, ((dispatchAll host rule event facts actions).on e).2 = _ :=
    left_dispatchAll outward actions e
  have left' : ∃ sink log state, ((dispatchAll host rule event facts' actions).on k).2 = _ :=
    left_dispatchAll outward actions k
  have outcome' : ((dispatchAll host rule event facts' actions).on k).1 = _ :=
    dispatchAll_outcome actions k
  rcases done : (dispatchAll host rule event facts' actions).on k with ⟨f | r', k'⟩ <;>
    rw [done] at left' outcome'
  · -- told other facts a handler may raise what it did not raise before
    obtain ⟨d, -, lapse⟩ := List.exists_of_findSome?_eq_some (outcomeOf_eq_error.mp outcome'.symm)
    exact .inr ⟨f, rfl, d.lapses lapse⟩
  · rw [ok] at left
    obtain ⟨sink, log, state, rfl⟩ := left
    obtain ⟨sink', log', state', rfl⟩ := left'
    refine .inl ⟨r', _, rfl, ?_, near.aside sink sink' log log' state state'⟩
    rw [Report.Like, outline_dispatchAll outward ok, outline_dispatchAll outward done,
      near.dispatcher]

theorem mirrors_fire (outward : host.IsOutward) (outputs : List Document) :
    Mirrors (Near keys) host.Lapses Report.Like (fire host rule event outputs)
      (fire host rule event outputs) := by
  unfold fire
  refine .after (near_note _ _ _) fun _ => .get fun e k _ => ?_
  refine (mirrors_dispatchAll outward _ _ _).bind fun called called' alike => ?_
  refine .after (near_putOut _) fun put => .pure ?_
  exact (Report.Like.append rfl alike).append rfl

/-! ## Rules -/

theorem near_onStore {α : Type} {a : Attempt Layered α} (ha : Respects (Layered.Agree keys) a) :
    Respects (Near keys) (onStore a : Attempt (Engine η ω) α) := by
  intro e k h
  obtain ⟨same, left⟩ := ha e.store k.store h.store
  exact ⟨same, left, h.config, h.dispatcher, h.registry⟩

/-- The modifications of a rule see the keys that the rule refers to and write the
    keys that it writes. -/
theorem footprint_rule {seen written : Set Key} (event : Event)
    (within : ∀ key ∈ rule.keys, key ∈ seen) (inside : ∀ key ∈ rule.writes, key ∈ written)
    (layer : LayerName) :
    Layered.Footprint seen written
      (transaction (applyAll event.lookup layer rule.modifications)) := by
  have sees : ∀ m ∈ rule.modifications, ∀ key ∈ m.keys, key ∈ seen := by
    intro m hm key hk
    exact within key (List.mem_append_right _ (List.mem_flatMap.mpr ⟨m, hm, hk⟩))
  have writes : ∀ m ∈ rule.modifications, m.key ∈ written := by
    intro m hm
    exact inside m.key (List.mem_map_of_mem hm)
  exact footprint_transaction (writing_applyAll event.blind_lookup layer rule.modifications)
    (footprint_applyAll sees writes layer)

/-- Two outcomes that differ at most in what handlers have to do with. -/
def Outcome.Like (o o' : Outcome) : Prop :=
  o.report.Like o'.report ∧ o.consumed = o'.consumed

/-- On near engines a rule comes to the same. -/
theorem mirrors_applyRule (outward : host.IsOutward) (within : ∀ key ∈ rule.keys, key ∈ keys) :
    Mirrors (Near keys) host.Lapses Outcome.Like (applyRule host event rule)
      (applyRule host event rule) := by
  unfold applyRule
  refine .get fun e k near => ?_
  have holds : rule.condition.check (event.lookup e.store)
      = rule.condition.check (event.lookup k.store) := by
    refine rule.condition.check_congr fun key hk => event.lookup_congr ?_
    exact near.store.read (within key (List.mem_append_left _ hk))
  rw [← holds, ← near.config]
  cases rule.condition.check (event.lookup e.store) with
  | error f =>
    dsimp only
    split
    · exact .after (near_raise _) fun report => .pure ⟨rfl, rfl⟩
    · exact .throw f _
  | ok truth =>
    cases truth with
    | false => exact .pure ⟨rfl, rfl⟩
    | true =>
      have inside : ∀ key ∈ rule.writes, key ∈ keys := fun key hk =>
        within key (rule.writes_subset_keys hk)
      refine .after (near_onStore (footprint_rule event within inside _).sees) fun applied => ?_
      cases applied with
      | error f => exact .after (near_raise _) fun report => .pure ⟨rfl, rfl⟩
      | ok outputs =>
        exact (mirrors_fire outward outputs).bind fun r r' alike => .pure ⟨alike, rfl⟩

theorem mirrors_applyRules (outward : host.IsOutward) (rules : List Rule)
    (within : Rule.keysOf rules ⊆ keys) :
    Mirrors (Near keys) host.Lapses Report.Like (applyRules host event rules)
      (applyRules host event rules) := by
  induction rules with
  | nil => exact .pure rfl
  | cons rule rest ih =>
    have first : ∀ key ∈ rule.keys, key ∈ keys := fun key hk =>
      within ⟨rule, List.mem_cons_self, hk⟩
    have others : Rule.keysOf rest ⊆ keys := by
      rintro key ⟨rule', member, hk⟩
      exact within ⟨rule', List.mem_cons_of_mem _ member, hk⟩
    refine (mirrors_applyRule outward first).bind fun o o' alike => ?_
    obtain ⟨alike, consumed⟩ := alike
    rw [← consumed]
    cases o.consumed with
    | true => exact .pure alike
    | false => exact (ih others).bind fun r r' alike' => .pure (alike.append alike')

/-! ## Events -/

variable {e e' k : Engine η ω} {r : Report} {rules : List Rule}

/-- Processing an event is to apply the rules that match it. -/
theorem process_of_applyRules (matching : e.registry.rulesForEvent event.id = .ok rules)
    (h : (applyRules host event rules).on e = (.ok r, e')) :
    (process host event).on e = (.ok (.event event ++ r), e') := by
  have found : (Attempt.reading (·.registry.rulesForEvent event.id)).on e = (.ok rules, e) :=
    Prod.ext matching rfl
  rw [process, bind_of_ok found, bind_of_ok h]
  rfl

/-- On engines that are near as far as the rules on an event go, processing the
    event comes to the same, or fails as handlers can make it fail. -/
theorem process_near (outward : host.IsOutward)
    (matching : e.registry.rulesForEvent event.id = .ok rules)
    (near : Near (Rule.keysOf rules) e k)
    (h : (process host event).on e = (.ok r, e')) :
    (∀ f, ((process host event).on k).1 = .error f → host.Lapses f) ∧
      ∀ r' k', (process host event).on k = (.ok r', k') →
        r.Like r' ∧ Near (Rule.keysOf rules) e' k' := by
  obtain ⟨rules', e₁, looked, h⟩ := of_bind_ok h
  obtain ⟨applied, e₂, first, h⟩ := of_bind_ok h
  obtain ⟨rfl, rfl⟩ := of_pure_ok h
  obtain ⟨found, rfl⟩ := Prod.mk.inj looked
  obtain rfl : rules = rules' := Except.ok.inj (matching.symm.trans found)
  rw [near.registry] at matching
  have looked' : (Attempt.reading (·.registry.rulesForEvent event.id)).on k = (.ok rules, k) :=
    reading_of matching
  have comes : (process host event).on k = _ := bind_of_ok looked' _
  rw [comes, outcome_then_pure]
  obtain ⟨r', k', second, alike, left⟩ | ⟨f, failed, lapses⟩ :=
    mirrors_applyRules outward rules subset_rfl e k near applied e₂ first
  · rw [bind_of_ok second, second]
    refine ⟨nofun, fun r'' k'' ok => ?_⟩
    obtain ⟨rfl, rfl⟩ := of_pure_ok ok
    exact ⟨Report.Like.append rfl alike, left⟩
  · rw [failed]
    refine ⟨fun g hg => ?_, fun r'' k'' ok => ?_⟩
    · obtain rfl := Except.error.inj hg
      exact lapses
    · have outcome := congrArg Prod.fst ok
      rw [outcome_then_pure, failed] at outcome
      cases outcome

/-! ## What an event leaves as it was -/

/-- An engine is as it was, the journal included, but for some keys and for what
    handlers, sink and queue have to do with. -/
structure Kept (written : Set Key) (e e' : Engine η ω) : Prop extends Near writtenᶜ e e' where
  journal : e.store.journal = e'.store.journal

variable {written : Set Key}

theorem Act.kept (outward : host.IsOutward) (inside : ∀ key ∈ rule.writes, key ∈ written)
    (h : Act host event rule e r e') : Kept written e e' := by
  have near : Near writtenᶜ e e := .refl _ e
  cases h with
  | noted entry => exact ⟨near.aside .., rfl⟩
  | raised i shallow => exact ⟨near.aside .., rfl⟩
  | fired => exact ⟨near, rfl⟩
  | put made => exact ⟨⟨near.store, rfl, rfl, rfl⟩, rfl⟩
  | called call registered named =>
    obtain ⟨state, hs⟩ := outward _ call e
    rw [hs]
    exact ⟨near.aside .., rfl⟩
  | stored committed =>
    have writing := writing_applyAll event.blind_lookup e.config.layer rule.modifications
    have everything : ∀ key ∈ rule.keys, key ∈ Set.univ := fun key _ => Set.mem_univ key
    have changed := (footprint_rule event everything inside e.config.layer).writes e.store
    have journal := journal_transaction writing e.store
    rw [committed] at changed journal
    exact ⟨⟨changed, rfl, rfl, rfl⟩, journal.symm⟩

theorem Trail.kept (outward : host.IsOutward)
    (h : Trail (fun e r e' => ∃ rule ∈ rules, Act host event rule e r e') e r e') :
    Kept (Rule.writesOf rules) e e' := by
  induction h with
  | rest e => exact ⟨.refl _ e, rfl⟩
  | next first _ ih =>
    obtain ⟨rule, member, act⟩ := first
    have kept := act.kept outward fun key hk =>
      (⟨rule, member, hk⟩ : key ∈ Rule.writesOf rules)
    exact ⟨kept.toNear.trans ih.toNear, kept.journal.trans ih.journal⟩

/-- An event changes nothing but what the rules that match it write. -/
theorem process_kept (outward : host.IsOutward)
    (matching : e.registry.rulesForEvent event.id = .ok rules)
    (h : (process host event).on e = (.ok r, e')) : Kept (Rule.writesOf rules) e e' := by
  obtain ⟨rules', r', found, -, trail⟩ := process_trail h
  obtain rfl : rules = rules' := Except.ok.inj (matching.symm.trans found)
  exact trail.kept outward

/-! ## Either order -/

/-- Two events of which neither has a rule that writes a key to which a rule of the
    other one refers can be processed in either order. If one order comes to an
    end so does the other, unless a handler raises a fault in it that cannot be
    worded, and with the same store. Either way an event has the same rules fire, the
    same issues raised but for those of failed actions, the same actions called but
    for the facts that they are told, and the same events put out; these only wait
    in the order in which the two events were processed. -/
theorem process_commutes (outward : host.IsOutward) {event₁ event₂ : Event}
    {rules₁ rules₂ : List Rule} {e mid last : Engine η ω} {r₁ r₂ : Report}
    (matching₁ : e.registry.rulesForEvent event₁.id = .ok rules₁)
    (matching₂ : e.registry.rulesForEvent event₂.id = .ok rules₂)
    (apart₁ : ∀ key ∈ Rule.writesOf rules₁, key ∉ Rule.keysOf rules₂)
    (apart₂ : ∀ key ∈ Rule.writesOf rules₂, key ∉ Rule.keysOf rules₁)
    (first : (process host event₁).on e = (.ok r₁, mid))
    (second : (process host event₂).on mid = (.ok r₂, last)) :
    (∀ f, ((process host event₂).on e).1 = .error f → host.Lapses f) ∧
    ∀ r₂' mid', (process host event₂).on e = (.ok r₂', mid') →
      (∀ f, ((process host event₁).on mid').1 = .error f → host.Lapses f) ∧
      ∀ r₁' last', (process host event₁).on mid' = (.ok r₁', last') →
        last'.store = last.store ∧ r₁'.outline = r₁.outline ∧ r₂'.outline = r₂.outline ∧
        last.queue.pending = e.queue.pending ++ (r₁.enqueued ++ r₂.enqueued) ∧
        last'.queue.pending = e.queue.pending ++ (r₂.enqueued ++ r₁.enqueued) := by
  have free₁ : Rule.keysOf rules₁ ⊆ (Rule.writesOf rules₂)ᶜ := fun key seen written =>
    apart₂ key written seen
  have free₂ : Rule.keysOf rules₂ ⊆ (Rule.writesOf rules₁)ᶜ := fun key seen written =>
    apart₁ key written seen
  have kept₁ := process_kept outward matching₁ first
  have matchingMid : mid.registry.rulesForEvent event₂.id = .ok rules₂ :=
    kept₁.registry ▸ matching₂
  have kept₂ := process_kept outward matchingMid second
  -- the second event finds the engine near to what the first one left
  obtain ⟨excused₂, comes₂⟩ :=
    process_near outward matchingMid (kept₁.toNear.mono free₂).symm second
  refine ⟨excused₂, fun r₂' mid' first' => ?_⟩
  obtain ⟨like₂, left₂⟩ := comes₂ r₂' mid' first'
  have kept₂' := process_kept outward matching₂ first'
  obtain ⟨excused₁, comes₁⟩ :=
    process_near outward matching₁ (kept₂'.toNear.mono free₁) first
  refine ⟨excused₁, fun r₁' last' second' => ?_⟩
  obtain ⟨like₁, left₁⟩ := comes₁ r₁' last' second'
  have matchingMid' : mid'.registry.rulesForEvent event₁.id = .ok rules₁ :=
    kept₂'.registry ▸ matching₁
  have kept₁' := process_kept outward matchingMid' second'
  have agree : Layered.Agree .univ last.store last'.store :=
    .of_either_order (Rule.writesOf_subset_keysOf rules₁) (Rule.writesOf_subset_keysOf rules₂)
      free₁ free₂ kept₁.store kept₂.store kept₂'.store kept₁'.store left₁.store left₂.store
  have same : last.store = last'.store := by
    apply agree.eq
    rw [← kept₂.journal, ← kept₁.journal, kept₂'.journal, kept₁'.journal]
  have enqueued₁ : r₁'.enqueued = r₁.enqueued := (congrArg Report.enqueued like₁).symm
  have enqueued₂ : r₂'.enqueued = r₂.enqueued := (congrArg Report.enqueued like₂).symm
  refine ⟨same.symm, like₁.symm, like₂.symm, ?_, ?_⟩
  · rw [(process_accounts outward second).queue, (process_accounts outward first).queue,
      List.append_assoc]
  · rw [(process_accounts outward second').queue, (process_accounts outward first').queue,
      enqueued₁, enqueued₂, List.append_assoc]

namespace Market

/-- Pays what is offered and then divides what is left by nothing. -/
def haggle : Rule :=
  ⟨"haggle", "bargain", .always,
    [⟨.name "gold", none, .decrement (.computed (.fact (.name "event.offer")))⟩,
      ⟨.name "gold", none, .combine .div (.constant (.int 0))⟩],
    ["shout"], ["anger"], .bool false, .int 1, .bool true⟩

/-- Pays what is offered if there is a stall. -/
def deal : Rule :=
  ⟨"deal", "bargain", .present (.name "stall"),
    [⟨.name "gold", none, .decrement (.computed (.fact (.name "event.offer")))⟩],
    ["nod"], ["sold"], .bool true, .int 0, .bool true⟩

def fill : Rule :=
  ⟨"fill", "rain", .compares .lt (.name "water") (.int 9),
    [⟨.name "water", some (.named .global), .increment (.constant (.int 1))⟩],
    ["run"], ["wet"], .bool false, .int 0, .bool true⟩

/-- An engine with these rules and a handler for every action. -/
def engine : Engine Unit Nat :=
  { (ofConfig .default (.collecting []) 0 : Engine Unit Nat) with
    store := .ofFacts (.ofList [("gold", .int 5), ("stall", .bool true), ("water", .int 1)])
    registry := Registry.empty.append Registry.globalScope [haggle, deal, fill]
    dispatcher := ⟨[], some ()⟩ }

def bargain : Event := ⟨"bargain", .ofList [("offer", .int 2)], "bargain", none⟩

def rain : Event := ⟨"rain", ∅, "rain", none⟩

theorem bargain_rules : engine.registry.rulesForEvent bargain.id = .ok [haggle, deal] :=
  Registry.rulesForEvent_of_falling [1, 0] rfl rfl (by decide)

theorem rain_rules : engine.registry.rulesForEvent rain.id = .ok [fill] :=
  Registry.rulesForEvent_of_falling [0] rfl rfl (by decide)

/-- The rules on the bargain have nothing to do with water. -/
theorem bargain_apart : ∀ key ∈ Rule.writesOf [haggle, deal], key ∉ Rule.keysOf [fill] := by
  rintro key ⟨rule, member, written⟩ ⟨rule', member', seen⟩
  simp only [List.mem_cons, List.not_mem_nil, or_false] at member member'
  subst member'
  have water : key = .name "water" := by
    simpa [fill, Rule.keys, Condition.keys, Modification.keys, Effect.keys, ValueSpec.keys]
      using seen
  obtain rfl | rfl := member <;> simp [water, haggle, deal, Rule.writes] at written

/-- The rule on the rain has nothing to do with gold or stalls. -/
theorem rain_apart : ∀ key ∈ Rule.writesOf [fill], key ∉ Rule.keysOf [haggle, deal] := by
  rintro key ⟨rule, member, written⟩ ⟨rule', member', seen⟩
  simp only [List.mem_cons, List.not_mem_nil, or_false] at member member'
  subst member
  have water : key = .name "water" := by simpa [fill, Rule.writes] using written
  subst water
  obtain rfl | rfl := member' <;>
    simp [haggle, deal, Rule.keys, Condition.keys, Modification.keys, Effect.keys,
      ValueSpec.keys, Expr.keys] at seen

/-- The rules on the bargain first and then the one on the rain. -/
def both : Attempt (Engine Unit Nat) (Report × Report) := do
  let r₁ ← applyRules (.ofReaction .counting) bargain [haggle, deal]
  let r₂ ← applyRules (.ofReaction .counting) rain [fill]
  return (r₁, r₂)

theorem both_on :
    ∃ r₁ r₂ mid last, (applyRules (.ofReaction .counting) bargain [haggle, deal]).on engine
        = (.ok r₁, mid) ∧
      (applyRules (.ofReaction .counting) rain [fill]).on mid = (.ok r₂, last) ∧
      r₁.fired.length = 1 ∧ r₁.issues.length = 1 ∧ r₂.fired.length = 1 ∧
      last.store.visible? (.name "gold") = some (.int 3) ∧
      last.store.visible? (.name "water") = some (.int 2) := by
  have returns : (both.on engine).1.toOption.map
      (fun (r₁, r₂) => (r₁.fired.length, r₁.issues.length, r₂.fired.length)) = some (1, 1, 1) := by
    decide +kernel
  have facts : (both.on engine).2.store.visible? (.name "gold") = some (.int 3) ∧
      (both.on engine).2.store.visible? (.name "water") = some (.int 2) := by
    decide +kernel
  rcases ran : both.on engine with ⟨outcome, last⟩
  rw [ran] at returns facts
  obtain ⟨⟨r₁, r₂⟩, rfl, counts⟩ := exists_of_map_toOption returns
  obtain ⟨fired₁, counts⟩ := Prod.mk.inj counts
  obtain ⟨issues₁, fired₂⟩ := Prod.mk.inj counts
  unfold both at ran
  obtain ⟨first, mid, bargained, ran⟩ := of_bind_ok ran
  obtain ⟨second, last', rained, ran⟩ := of_bind_ok ran
  cases ran
  exact ⟨r₁, r₂, mid, last, bargained, rained, fired₁, issues₁, fired₂, facts⟩

/-- The haggling fails and is undone, the deal is made and the well is filled: in
    either order. -/
theorem bargain_commutes :
    ∃ r₁ r₂ mid last,
      (process (.ofReaction .counting) bargain).on engine = (.ok r₁, mid) ∧
      (process (.ofReaction .counting) rain).on mid = (.ok r₂, last) ∧
      r₁.fired.length = 1 ∧ r₁.issues.length = 1 ∧ r₂.fired.length = 1 ∧
      last.store.visible? (.name "gold") = some (.int 3) ∧
      last.store.visible? (.name "water") = some (.int 2) ∧
      ∃ r₁' r₂' mid' last',
        (process (.ofReaction .counting) rain).on engine = (.ok r₂', mid') ∧
        (process (.ofReaction .counting) bargain).on mid' = (.ok r₁', last') ∧
        last'.store = last.store ∧ r₁'.outline = r₁.outline ∧ r₂'.outline = r₂.outline := by
  let host : Host Unit Nat := .ofReaction Reaction.counting
  have outward : host.IsOutward := Host.isOutward_ofReaction _
  have never : ∀ f, ¬host.Lapses f := Host.not_lapses fun _ _ _ => rfl
  obtain ⟨r₁, r₂, mid, last, first, second, fired₁, issues₁, fired₂, gold, water⟩ := both_on
  have bargained := process_of_applyRules bargain_rules first
  have kept := process_kept outward bargain_rules bargained
  have matching : mid.registry.rulesForEvent rain.id = .ok [fill] := kept.registry ▸ rain_rules
  have rained := process_of_applyRules matching second
  obtain ⟨excused₂, comes⟩ :=
    process_commutes outward bargain_rules rain_rules bargain_apart rain_apart bargained rained
  obtain ⟨r₂', mid', back⟩ := of_not_error fun f failed => never f (excused₂ f failed)
  obtain ⟨excused₁, comes⟩ := comes r₂' mid' back
  obtain ⟨r₁', last', forth⟩ := of_not_error fun f failed => never f (excused₁ f failed)
  obtain ⟨store, outline₁, outline₂, -⟩ := comes r₁' last' forth
  exact ⟨_, _, mid, last, bargained, rained, fired₁, issues₁, fired₂, gold, water, r₁', r₂', mid',
    last', back, forth, store, outline₁, outline₂⟩

end Market

end Engine

end Cascade
