-- SUMMARY: What a modification does to a store: it only writes keys, the journal has no part in what it does, and if it fails it has done nothing.
import Cascade.Event.Basic
import Cascade.Modification.Apply
import Cascade.Proofs.Store.Writing

/-! # Modifications as writes

A modification reaches the store in two ways: it reads keys, and it writes keys
of one slot. So whatever comes of it, the store that it leaves is one that
writes lead to, and a store with another journal would have fared the same. The
write comes last, so a modification that fails has not got to it. -/

namespace Cascade

open Attempt

/-! ## Modifications -/

/-- A look-up to which the journal of a store is nothing. -/
def Lookup.Blind (look : Lookup) : Prop :=
  ∀ db journal, look (db.booked db.births journal) = look db

/-- Events look their payload and the layers up. -/
theorem Event.blind_lookup (event : Event) : event.lookup.Blind := by
  intro db journal
  unfold Event.lookup
  split
  · rfl
  · rfl

namespace Modification

open Layered

variable {look : Lookup}

theorem writing_resolve (blind : look.Blind) (spec : ValueSpec) : Writing (spec.resolve look) := by
  refine .reading fun db journal => ?_
  rw [blind]

theorem writing_overwrite (key : Key) (layer : LayerRef) (visible : Option Fact)
    (new : Except Fault Fact) : Writing (overwrite key layer visible new) := by
  refine (Writing.ofExcept _).seq fun f => Writing.target fun slot => ?_
  exact .setAtIfChanged slot key (.fact f)

theorem writing_count (blind : look.Blind) (op : Arithmetic) (key : Key) (amount : ValueSpec)
    (layer : LayerRef) : Writing (count op key amount look layer) := by
  refine (writing_resolve blind amount).seq fun f => (Writing.read key).seq fun visible => ?_
  exact writing_overwrite key layer visible _

/-- Whatever comes of a modification, it has only written, and the journal was
    nothing to it. -/
theorem writing_apply (blind : look.Blind) (m : Modification) (default : LayerRef) :
    Writing (m.apply look default) := by
  obtain ⟨key, layer, effect⟩ := m
  cases effect with
  | set value =>
    refine (writing_resolve blind value).seq fun new => (Writing.read key).seq fun visible => ?_
    exact writing_overwrite ..
  | setIfChanged value outputs =>
    refine (writing_resolve blind value).seq fun new => (Writing.read key).seq fun visible => ?_
    refine (Writing.ofExcept _).seq fun f => ?_
    cases Fact.isSame? visible f with
    | true => exact .pure false
    | false => exact .setIfChanged ..
  | increment amount => exact writing_count blind ..
  | decrement amount => exact writing_count blind ..
  | combine op operand =>
    refine (Writing.read key).seq fun visible => ?_
    cases visible with
    | none => exact .throw _
    | some f =>
      refine (writing_resolve blind operand).seq fun g => ?_
      exact writing_overwrite ..
  | remove => exact (Writing.remove ..).seq fun stored => .pure _
  | toggle =>
    refine (Writing.read key).seq fun visible => ?_
    cases visible with
    | none => exact Writing.target fun slot => .setAtIfChanged slot ..
    | some f =>
      cases f with
      | bool b => exact Writing.target fun slot => .setAtIfChanged slot ..
      | _ => exact .throw _

theorem cautious_overwrite (key : Key) (layer : LayerRef) (visible : Option Fact)
    (new : Except Fault Fact) : Cautious (overwrite key layer visible new) := by
  refine .after (idle_ofExcept _) fun f => .after (idle_target layer) fun p => ?_
  exact p.cautious_setIfChanged key (.fact f)

theorem cautious_count (op : Arithmetic) (key : Key) (amount : ValueSpec) (layer : LayerRef) :
    Cautious (count op key amount look layer) := by
  refine .after (idle_reading _) fun f => .after (idle_reading _) fun visible => ?_
  exact cautious_overwrite key layer visible _

/-- A modification that fails has not changed the store. -/
theorem cautious_apply (m : Modification) (default : LayerRef) :
    Cautious (m.apply look default) := by
  obtain ⟨key, layer, effect⟩ := m
  cases effect with
  | set value =>
    refine .after (idle_reading _) fun new => .after (idle_reading _) fun visible => ?_
    exact cautious_overwrite ..
  | setIfChanged value outputs =>
    refine .after (idle_reading _) fun new => .after (idle_reading _) fun visible => ?_
    refine .after (idle_ofExcept _) fun f => ?_
    cases Fact.isSame? visible f with
    | true => exact .of_idle fun _ => rfl
    | false => exact cautious_setIfChanged ..
  | increment amount => exact cautious_count ..
  | decrement amount => exact cautious_count ..
  | combine op operand =>
    refine .after (idle_reading _) fun visible => ?_
    cases visible with
    | none => exact .throw _
    | some f =>
      refine .after (idle_reading _) fun g => ?_
      exact cautious_overwrite ..
  | remove => exact (cautious_remove ..).then_pure fun stored => stored.isSome
  | toggle =>
    refine .after (idle_reading _) fun visible => ?_
    cases visible with
    | none => exact .after (idle_target _) fun p => p.cautious_setIfChanged ..
    | some f =>
      cases f with
      | bool b => exact .after (idle_target _) fun p => p.cautious_setIfChanged ..
      | _ => exact .throw _

end Modification

end Cascade
