-- SUMMARY: Readers of expressions, level by level, and that what they read is derived by the grammar from the tokens that they take.
import Cascade.Proofs.Expr.Grammar

/-! # What is read is derived

A reader is sound for a language if the tokens that it takes are always of that
language, as writings of what it read. Every reader is sound for its part of the
grammar, which is shown along its text. -/

namespace Cascade

namespace Expr

open Reader

variable {α : Type} {ℓ : Level}

/-! ## Levels of readers -/

namespace Level

/-- The reader of a level, given that of the expressions in parentheses. -/
def reader (inner : Reader Expr) : Level → Reader Expr
  | disjunction => Reader.disjunction inner
  | conjunction => Reader.conjunction inner
  | negation => Reader.negation inner
  | comparison => compared (Reader.sum inner)
  | sum => Reader.sum inner
  | product => Reader.product inner
  | sign => leading (isToken .operator "-") .neg (Reader.primary inner)
  | primary => Reader.primary inner

theorem reader_of_chains (h : ℓ.chains) (inner : Reader Expr) :
    ℓ.reader inner = chain ℓ.operator? (ℓ.tighter.reader inner) := by
  cases ℓ <;> first | rfl | cases h

end Level

/-! ## Sound readers -/

/-- The tokens in front of a result's rest are of a language. -/
def Took (D : List Token → α → Prop) (ts : List Token) (p : α × List Token) : Prop :=
  ∃ used, ts = used ++ p.2 ∧ D used p.1

/-- A reader takes no tokens but those of a language. -/
def Reader.Sound (D : List Token → α → Prop) (reader : Reader α) : Prop :=
  ∀ ts, Yields (reader ts) (Took D ts)

namespace Reader

variable {operand inner : Reader Expr}

theorem Sound.mono {D D' : List Token → α → Prop} {reader : Reader α} (h : Sound D reader)
    (imp : ∀ ts a, D ts a → D' ts a) : Sound D' reader := by
  intro ts p hp
  obtain ⟨used, split, derived⟩ := h ts p hp
  exact ⟨used, split, imp _ _ derived⟩

theorem Sound.loosen (ℓ : Level) (h : Sound (Derives ℓ.tighter) operand) :
    Sound (Derives ℓ) operand :=
  h.mono fun _ _ => .tighter

theorem sound_expected (D : List Token → α → Prop) (wanted : Expectation) :
    Sound D (expected wanted) := fun _ => .error _

theorem sound_chainAfter (chains : ℓ.chains) (h : Sound (Derives ℓ.tighter) operand) (fuel : Nat)
    {used : List Token} {left : Expr} (hl : Derives ℓ used left) (rest : List Token) :
    Yields (chainAfter ℓ.operator? operand fuel left rest) (Took (Derives ℓ) (used ++ rest)) := by
  fun_induction chainAfter ℓ.operator? operand fuel left rest generalizing used with
  | case1 left rest => exact .ok ⟨used, rfl, hl⟩
  | case2 fuel left => exact .ok ⟨used, rfl, hl⟩
  | case3 fuel left t ts none => exact .ok ⟨used, rfl, hl⟩
  | case4 fuel left t ts op found ih =>
    obtain ⟨rfl, writes⟩ := Level.operator?_eq_some.mp found
    refine (h ts).bind fun (right, rest) ⟨taken, split, hr⟩ => ?_
    have grown := ih right rest (.chained chains writes hl hr)
    simpa [split] using grown

theorem sound_chain (ℓ : Level) (chains : ℓ.chains) (h : Sound (Derives ℓ.tighter) operand) :
    Sound (Derives ℓ) (chain ℓ.operator? operand) := by
  intro ts
  refine (h.loosen ℓ ts).bind fun (left, rest) ⟨used, split, hl⟩ => ?_
  rw [split]
  exact sound_chainAfter chains h _ hl rest

theorem sound_leading {isOp : Token → Bool} (op : UnaryOp) (leads : ∀ t, isOp t → t.Leads op)
    (h : Sound (Derives op.level) operand) :
    Sound (Derives op.level) (leading isOp op operand) := by
  intro ts
  fun_induction leading isOp op operand ts with
  | case1 => exact h []
  | case2 t ts hop ih =>
    refine ih.bind fun (e, rest) ⟨used, split, he⟩ => ?_
    refine .ok ⟨t :: used, ?_, .prefixed (leads t hop) he⟩
    rw [split]
    rfl
  | case3 t ts _ => exact h (t :: ts)

theorem sound_compared (h : Sound (Derives .sum) operand) :
    Sound (Derives .comparison) (compared operand) := by
  intro ts
  refine (h ts).bind fun (left, rest) ⟨used, split, hl⟩ => ?_
  have alone : Took (Derives .comparison) ts (left, rest) := ⟨used, split, .tighter hl⟩
  cases rest with
  | nil => exact .ok alone
  | cons t afterOp =>
    dsimp only
    cases found : comparison? t with
    | none => exact .ok alone
    | some op =>
      obtain ⟨mem, writes⟩ := comparison?_eq_some.mp found
      obtain ⟨c, -, rfl⟩ := List.mem_map.mp mem
      refine (h afterOp).bind fun (right, rest') ⟨used', split', hr⟩ => ?_
      dsimp only
      split
      · exact .error _
      · refine .ok ⟨used ++ t :: used', ?_, .compared writes hl hr⟩
        simp [split, split']

/-! ### Lists -/

theorem sound_listItem : Sound Item listItem := by
  intro ts
  cases ts with
  | nil => exact .error _
  | cons t rest =>
    unfold listItem
    dsimp only
    split
    case isTrue sign =>
      cases rest with
      | nil => exact .error _
      | cons u rest =>
        dsimp only
        split
        case isTrue int => exact .ok ⟨[t, u], rfl, .minus (isToken_iff.mp sign) int⟩
        case isFalse => exact .error _
    case isFalse =>
      split
      case isTrue int => exact .ok ⟨[t], rfl, .int int⟩
      case isFalse =>
        split
        case isTrue string =>
          refine (Yields.self (unquoted t)).bind fun s read => .ok ⟨[t], rfl, .text ?_⟩
          exact (unquoted_eq_ok string).mp read
        case isFalse => exact .error _

/-- The items of a list and its closing bracket. -/
def Closed (ts : List Token) (ds : List Document) : Prop :=
  ∃ us closing, ts = us ++ [closing] ∧ closing.Is .punctuation "]" ∧ Items us ds

theorem sound_listItems (fuel : Nat) : Sound Closed (listItems fuel) := by
  induction fuel with
  | zero => exact sound_expected _ _
  | succ fuel ih =>
    intro ts
    refine (sound_listItem ts).bind fun (d, rest) ⟨used, split, item⟩ => ?_
    cases rest with
    | nil => exact .error _
    | cons t rest =>
      dsimp only
      split
      case isTrue closing =>
        refine .ok ⟨used ++ [t], ?_, used, t, rfl, isToken_iff.mp closing, .one item⟩
        simpa using split
      case isFalse =>
        refine (Yields.self _).bind fun us comma => ?_
        obtain ⟨comma, isComma, split'⟩ := afterMark_eq_ok.mp comma
        refine (ih us).bind fun (ds, rest') read => ?_
        obtain ⟨used', split'', us', closing, ended, isClosing, items⟩ := read
        refine .ok ⟨used ++ comma :: used', ?_, used ++ comma :: us', closing, ?_, isClosing, ?_⟩
        · simp [split, split', split'']
        · simp [ended]
        · exact .more item isComma items

/-- Items between brackets write the list that they are the items of. -/
theorem derives_of_closed {opening : Token} (isOpening : opening.Is .punctuation "[")
    {ts : List Token} {ds : List Document} (h : Closed ts ds) {f : Fact}
    (hf : Fact.ofBare (.list ds) = .ok f) : Derives .primary (opening :: ts) (literal f) := by
  obtain ⟨us, closing, rfl, isClosing, items⟩ := h
  obtain ⟨ns, rfl, rfl⟩ | ⟨ss, rfl, rfl⟩ := Fact.of_ofBare_list hf
  · exact .intList isOpening isClosing items
  · exact .textList isOpening isClosing items

theorem sound_listAfter {opening : Token} (isOpening : opening.Is .punctuation "[")
    (position : Nat) :
    Sound (fun ts e => Derives .primary (opening :: ts) e) (listAfter position) := by
  intro ts
  unfold listAfter
  cases ts with
  | nil =>
    refine (sound_listItems 1 []).bind fun (ds, rest) ⟨used, split, closed⟩ => ?_
    dsimp only
    split
    case h_1 f hf => exact .ok ⟨used, split, derives_of_closed isOpening closed hf⟩
    case h_2 => exact .error _
  | cons t ts =>
    dsimp only
    split
    case isTrue closing =>
      exact .ok ⟨[t], rfl, .emptyList isOpening (isToken_iff.mp closing)⟩
    case isFalse =>
      refine (sound_listItems _ _).bind fun (ds, rest) ⟨used, split, closed⟩ => ?_
      dsimp only
      split
      case h_1 f hf => exact .ok ⟨used, split, derives_of_closed isOpening closed hf⟩
      case h_2 => exact .error _

/-! ### Levels -/

theorem sound_primary (h : Sound (Derives .disjunction) inner) :
    Sound (Derives .primary) (primary inner) := by
  intro ts
  cases ts with
  | nil => exact .error _
  | cons t ts =>
    unfold primary
    dsimp only
    split
    case h_1 int => exact .ok ⟨[t], rfl, .int int⟩
    case h_2 float => exact .ok ⟨[t], rfl, .float float⟩
    case h_3 string =>
      refine (Yields.self (unquoted t)).bind fun s read => .ok ⟨[t], rfl, .text ?_⟩
      exact (unquoted_eq_ok string).mp read
    case h_4 reference => exact .ok ⟨[t], rfl, .reference reference⟩
    case h_5 word => exact .ok ⟨[t], rfl, .word word⟩
    case h_6 keyword =>
      split
      case isTrue text => exact .ok ⟨[t], rfl, .true ⟨keyword, text⟩⟩
      case isFalse =>
        split
        case isTrue text => exact .ok ⟨[t], rfl, .false ⟨keyword, text⟩⟩
        case isFalse => exact .error _
    case h_7 mark =>
      split
      case isTrue text =>
        refine (h ts).bind fun (e, rest) ⟨used, split, he⟩ => ?_
        refine (Yields.self _).bind fun rest' closed => ?_
        obtain ⟨closing, isClosing, rfl⟩ := afterMark_eq_ok.mp closed
        refine .ok ⟨t :: (used ++ [closing]), ?_, .parentheses ⟨mark, text⟩ isClosing he⟩
        simp [split]
      case isFalse =>
        split
        case isTrue text =>
          refine fun p hp => ?_
          obtain ⟨used, split, he⟩ := sound_listAfter ⟨mark, text⟩ t.position ts p hp
          exact ⟨t :: used, congrArg (t :: ·) split, he⟩
        case isFalse => exact .error _
    case h_8 => exact .error _

/-- Each level reads what the grammar derives at that level. -/
theorem sound_reader (h : Sound (Derives .disjunction) inner) (ℓ : Level) :
    Sound (Derives ℓ) (ℓ.reader inner) := by
  have primary : Sound (Derives .primary) (primary inner) := sound_primary h
  have sign : Sound (Derives .sign) (Level.sign.reader inner) :=
    sound_leading .neg (fun _ => isToken_iff.mp) (.loosen .sign primary)
  have product : Sound (Derives .product) (product inner) := sound_chain .product rfl sign
  have sum : Sound (Derives .sum) (sum inner) := sound_chain .sum rfl product
  have comparison : Sound (Derives .comparison) (Level.comparison.reader inner) :=
    sound_compared sum
  have negation : Sound (Derives .negation) (negation inner) :=
    sound_leading .not (fun _ => isToken_iff.mp) (.loosen .negation comparison)
  have conjunction : Sound (Derives .conjunction) (conjunction inner) :=
    sound_chain .conjunction rfl negation
  have disjunction : Sound (Derives .disjunction) (disjunction inner) :=
    sound_chain .disjunction rfl conjunction
  cases ℓ <;> assumption

theorem sound_expression (depth : Nat) : Sound (Derives .disjunction) (expression depth) := by
  induction depth with
  | zero => exact sound_expected _ _
  | succ depth ih => exact sound_reader ih .disjunction

end Reader

end Expr

end Cascade
