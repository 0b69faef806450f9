-- SUMMARY: The reading of a source by index never goes wrong: it gives what the running reader gives, or refuses the source for the same cause at a position within it.
import Mathlib.Data.Set.List
import Cascade.Proofs.Expr.Derived
import Cascade.Proofs.Expr.Lexing
import Cascade.Proofs.Fact.Reading

/-! # Sources are read or refused

The reader by index is compared with the running reader level by level: from an
index on it gives what that one gives of the tokens from there on, and it is at
the index where the tokens begin that are left. It stays within the tokens, since
what it moves over is always a token that it has seen; its loops end, since each
round moves on; and its conversions succeed, since the tokens are genuine. -/

namespace Cascade.Expr

namespace Cursor

/-- Tokens that lie within their source and are like their classes. -/
def Genuine (ts : Tokens) : Prop := ∀ t ∈ ts.body, t.IsGenuine ts.stop

/-! ## Readings that match -/

section Matching

variable {α β γ δ : Type} (ts : Tokens)

/-- One reading gives what corresponds to the result of another one, or refuses the
    source for the same cause at a position within it. -/
def Matches (rel : α → β → Prop) (x : Except Halt α) (y : Except Failure β) : Prop :=
  match y with
  | .ok b => ∃ a, x = .ok a ∧ rel a b
  | .error f =>
    f.position.getD ts.stop ≤ ts.stop ∧ x = .error (.refused f.cause (f.position.getD ts.stop))

/-- What was read is the same, and the index is not before that of the start and is
    where the tokens that are left begin. -/
def After (i : Nat) (p : α × Nat) (q : α × List Token) : Prop :=
  p.1 = q.1 ∧ i ≤ p.2 ∧ p.2 ≤ ts.body.length ∧ q.2 = ts.body.drop p.2

/-- Reading by index from a certain index on gives what reading the tokens gives. -/
def Follows (lowest : Nat) (cursor : Cursor α) (reader : Reader α) : Prop :=
  ∀ i, lowest ≤ i → i ≤ ts.body.length → Matches ts (After ts i) (cursor i) (reader (ts.body.drop i))

variable {ts} {rel : α → β → Prop} {rel' : γ → δ → Prop} {x : Except Halt α} {y : Except Failure β}

theorem Matches.ok {a : α} {b : β} (h : rel a b) : Matches ts rel (.ok a) (.ok b) := ⟨a, rfl, h⟩

theorem Matches.imp {rel' : α → β → Prop} (h : Matches ts rel x y)
    (weaker : ∀ a b, rel a b → rel' a b) : Matches ts rel' x y := by
  cases y with
  | error e => exact h
  | ok b =>
    obtain ⟨a, ok, h⟩ := h
    exact ⟨a, ok, weaker a b h⟩

theorem Matches.bind {f : α → Except Halt γ} {g : β → Except Failure δ} (h : Matches ts rel x y)
    (next : ∀ a b, rel a b → Matches ts rel' (f a) (g b)) : Matches ts rel' (x >>= f) (y >>= g) := by
  cases y with
  | error e =>
    obtain ⟨within, rfl⟩ := h
    exact ⟨within, rfl⟩
  | ok b =>
    obtain ⟨a, rfl, h⟩ := h
    exact next a b h

theorem Matches.map {f : α → γ} {g : β → δ} (h : Matches ts rel x y)
    (next : ∀ a b, rel a b → rel' (f a) (g b)) :
    Matches ts rel' (do return f (← x)) (do return g (← y)) :=
  h.bind fun a b related => .ok (next a b related)

/-- Where a reading is refused nothing that follows matters. -/
theorem Matches.refused {failure : Failure} (h : Matches ts rel x (.error failure))
    (f : α → Except Halt γ) : Matches ts rel' (x >>= f) (.error failure) := by
  obtain ⟨within, rfl⟩ := h
  exact ⟨within, rfl⟩

/-- What every result of the other reading is like. -/
theorem Matches.along {P : β → Prop} (h : Matches ts rel x y) (yields : Yields y P) :
    Matches ts (fun a b => rel a b ∧ P b) x y := by
  cases y with
  | error e => exact h
  | ok b =>
    obtain ⟨a, rfl, h⟩ := h
    exact .ok ⟨h, yields b rfl⟩

end Matching

variable {ts : Tokens} {i : Nat}

/-! ## Conversions -/

theorem matches_unescape {cs : List Char} (paired : Paired cs) {position : Nat}
    (within : position + cs.length ≤ ts.stop) :
    Matches ts Eq (unescape position cs) (Reader.unescape position cs) := by
  induction paired generalizing position with
  | nil => exact .ok rfl
  | @escape c cs _ ih =>
    simp only [List.length_cons] at within
    rw [unescape, Reader.unescape]
    cases Reader.escape? c with
    | none =>
      refine ⟨?_, rfl⟩
      change position + 1 ≤ ts.stop
      omega
    | some e => exact (ih (by omega)).map fun _ _ => congrArg (e :: ·)
  | @plain c cs plain _ ih =>
    simp only [List.length_cons] at within
    have read : Matches ts Eq (do return c :: (← unescape (position + 1) cs))
        (do return c :: (← Reader.unescape (position + 1) cs)) :=
      (ih (by omega)).map fun _ _ => congrArg (c :: ·)
    have lone (h : c = '\\') : cs ≠ [] := absurd h plain
    have pair (d : Char) (ds : List Char) (h : c = '\\') : cs ≠ d :: ds := absurd h plain
    rwa [unescape.eq_4 _ _ _ lone pair, Reader.unescape.eq_4 _ _ _ lone pair]

variable {t : Token}

/-- The body of a quoted text holds no escape that is cut off. -/
theorem matches_unquoted (genuine : t.IsGenuine ts.stop) (string : t.kind = .string) :
    Matches ts Eq (unquoted t) (Reader.unquoted t) := by
  obtain ⟨-, writes, text⟩ := genuine
  rw [string] at writes
  obtain ⟨quote, body, whole, paired⟩ := writes
  have length : t.text.length = body.length + 2 := by
    rw [← String.length_toList, whole]
    simp
  have inside : (t.text.toList.drop 1).dropLast = body := by
    rw [whole, List.drop_one, List.tail_cons, List.dropLast_concat]
  have within := text string
  unfold unquoted Reader.unquoted
  simp only [inside]
  exact (matches_unescape paired (by omega)).map fun _ _ => congrArg String.ofList

theorem integer_of_genuine {stop : Nat} (genuine : t.IsGenuine stop) (int : t.kind = .int) :
    integer t = .ok (Reader.integer t) := by
  have writes := genuine.writes
  rw [int] at writes
  exact if_pos writes

theorem real_of_genuine {stop : Nat} (genuine : t.IsGenuine stop) (float : t.kind = .float) :
    real t = .ok (Reader.real t) := by
  have writes := genuine.writes
  rw [float] at writes
  exact if_pos writes

theorem reference_of_ne {name : String} (h : name ≠ "") : reference name = .ok (fact name) :=
  if_neg h

/-- Items of which some are integers and others are texts are no fact. -/
theorem ofBare_of_mixed {items : List Document} (mixed : isMixed items) :
    ∃ fault, Fact.ofBare (.list items) = .error fault := by
  obtain ⟨⟨a, ha, int⟩, b, hb, text⟩ :
      (∃ d ∈ items, d.int?.isSome) ∧ ∃ d ∈ items, d.text?.isSome := by
    simpa [isMixed] using mixed
  cases made : Fact.ofBare (.list items) with
  | error fault => exact ⟨fault, rfl⟩
  | ok f =>
    obtain ⟨ns, rfl, -⟩ | ⟨ss, rfl, -⟩ := Fact.of_ofBare_list made
    · obtain ⟨n, -, rfl⟩ := List.mem_map.mp hb
      cases text
    · obtain ⟨s, -, rfl⟩ := List.mem_map.mp ha
      cases int

/-- Integers and texts that are not mixed are a fact. -/
theorem exists_ofBare {items : List Document} (kinds : ∀ d ∈ items, d.int?.isSome ∨ d.text?.isSome)
    (uniform : ¬isMixed items) : ∃ f, Fact.ofBare (.list items) = .ok f := by
  have either : (∀ d ∈ items, ∃ n, Document.int n = d) ∨ ∀ d ∈ items, ∃ s, Document.str s = d := by
    by_cases text : ∃ d ∈ items, d.text?.isSome
    · refine .inr fun d hd => ?_
      have noInt : ¬d.int?.isSome := fun int => uniform (by
        simpa [isMixed] using ⟨⟨d, hd, int⟩, text⟩)
      obtain ⟨s, hs⟩ := Option.isSome_iff_exists.mp ((kinds d hd).resolve_left noInt)
      exact ⟨s, ((Document.text?_eq_some d s).mp hs).symm⟩
    · refine .inl fun d hd => ?_
      have noText : ¬d.text?.isSome := fun h => text ⟨d, hd, h⟩
      obtain ⟨n, hn⟩ := Option.isSome_iff_exists.mp ((kinds d hd).resolve_right noText)
      exact ⟨n, ((Document.int?_eq_some d n).mp hn).symm⟩
  rcases either with ints | texts
  · obtain ⟨ns, rfl⟩ : items ∈ Set.range (List.map Document.int) := by
      rw [Set.range_list_map]
      exact ints
    by_cases empty : ns = []
    · subst empty
      exact ⟨_, Fact.ofBare_texts []⟩
    · exact ⟨_, Fact.ofBare_ints empty⟩
  · obtain ⟨ss, rfl⟩ : items ∈ Set.range (List.map Document.str) := by
      rw [Set.range_list_map]
      exact texts
    exact ⟨_, Fact.ofBare_texts ss⟩

/-- The items of a list are integers and texts. -/
theorem kinds_of_items {us : List Token} {items : List Document} (h : Items us items) :
    ∀ d ∈ items, d.int?.isSome ∨ d.text?.isSome := by
  have item {us : List Token} {d : Document} (h : Item us d) : d.int?.isSome ∨ d.text?.isSome := by
    cases h with
    | int | minus => exact .inl rfl
    | text => exact .inr rfl
  induction h with
  | one h => exact List.forall_mem_singleton.mpr (item h)
  | more h _ _ ih => exact List.forall_mem_cons.mpr ⟨item h, ih⟩

/-! ## Single tokens -/

/-- At the end of the source there is no token; anywhere else the token is the first
    of those that are left, and it is genuine. -/
theorem look_drop (genuine : Genuine ts) (within : i ≤ ts.body.length) :
    (ts.body.drop i = [] ∧ look ts i = .ok none) ∨
      ∃ t, ts.body.drop i = t :: ts.body.drop (i + 1) ∧ look ts i = .ok (some t) ∧
        i < ts.body.length ∧ t.IsGenuine ts.stop := by
  unfold look
  rw [if_pos within]
  rcases Nat.lt_or_eq_of_le within with inside | rfl
  · refine .inr ⟨ts.body[i], List.drop_eq_getElem_cons inside, ?_, inside, ?_⟩
    · rw [List.getElem?_eq_getElem inside]
    · exact genuine _ (List.getElem_mem inside)
  · exact .inl ⟨List.drop_length, by rw [List.getElem?_eq_none (Nat.le_refl _)]⟩

theorem look_bind {α : Type} {t? : Option Token} (h : look ts i = .ok t?)
    (f : Option Token → Except Halt α) : (look ts i >>= f) = f t? := by
  rw [h]
  rfl

theorem has_bind {α : Type} {t? : Option Token} (h : look ts i = .ok t?) (sort : Token → Bool)
    (f : Bool → Except Halt α) : (has ts sort i >>= f) = f (t?.any sort) := by
  unfold has
  rw [h]
  rfl

/-- A refusal at an index is that of the tokens from there on. -/
theorem matches_expected {α β : Type} {rel : α → β → Prop} (genuine : Genuine ts)
    (within : i ≤ ts.body.length) (wanted : Expectation) :
    Matches ts rel (expected ts wanted i) (.error (Reader.missing wanted (ts.body.drop i))) := by
  unfold expected
  rcases look_drop genuine within with ⟨none, looked⟩ | ⟨t, some, looked, -, ht⟩
  · rw [none, look_bind looked]
    exact ⟨Nat.le_refl _, rfl⟩
  · rw [some, look_bind looked]
    exact ⟨ht.position, rfl⟩

/-- A mark is found at an index if it is found in front of the tokens from there on. -/
theorem matches_afterMark (genuine : Genuine ts) (within : i ≤ ts.body.length) (mark : String) :
    Matches ts (fun j rest => i < j ∧ j ≤ ts.body.length ∧ rest = ts.body.drop j)
      (afterMark ts mark i) (Reader.afterMark mark (ts.body.drop i)) := by
  have refused : Matches ts (fun j rest => i < j ∧ j ≤ ts.body.length ∧ rest = ts.body.drop j)
      _ _ := matches_expected genuine within (.token mark)
  unfold afterMark
  rcases look_drop genuine within with ⟨none, looked⟩ | ⟨t, some, looked, inside, -⟩
  · rw [none] at refused ⊢
    rw [has_bind looked]
    exact refused
  · rw [some] at refused ⊢
    rw [has_bind looked, Option.any_some, Reader.afterMark]
    split
    · exact .ok ⟨Nat.lt_succ_self i, inside, rfl⟩
    · exact refused

/-! ## Operators -/

variable {lowest : Nat} {operand : Cursor Expr} {operand' : Reader Expr}

theorem After.le {α : Type} {j : Nat} {p : α × Nat} {q : α × List Token} (h : After ts j p q)
    (le : i ≤ j) : After ts i p q := ⟨h.1, le.trans h.2.1, h.2.2⟩

/-- The rounds of a chain end, since each of them moves over an operator. -/
theorem follows_chainAfter (genuine : Genuine ts) (op? : Token → Option BinaryOp)
    (h : Follows ts lowest operand operand') {fuel fuel' : Nat} (left : Expr) (le : lowest ≤ i)
    (within : i ≤ ts.body.length) (enough : ts.body.length < i + fuel)
    (enough' : ts.body.length ≤ i + fuel') :
    Matches ts (After ts i) (chainAfter ts op? operand fuel left i)
      (Reader.chainAfter op? operand' fuel' left (ts.body.drop i)) := by
  induction fuel generalizing i fuel' left with
  | zero => omega
  | succ fuel ih =>
    rw [chainAfter]
    rcases look_drop genuine within with ⟨none, looked⟩ | ⟨t, some, looked, inside, -⟩
    · have ended : Reader.chainAfter op? operand' fuel' left [] = .ok (left, []) := by
        cases fuel' <;> rfl
      rw [none, look_bind looked, ended]
      exact .ok ⟨rfl, Nat.le_refl i, within, none.symm⟩
    · cases fuel' with
      | zero => omega
      | succ fuel' =>
        rw [some, look_bind looked, Reader.chainAfter]
        dsimp only [Option.bind_some]
        cases op? t with
        | none => exact .ok ⟨rfl, Nat.le_refl i, within, some.symm⟩
        | some op =>
          refine (h (i + 1) (by omega) inside).bind fun (right, j) (_, rest) after => ?_
          obtain ⟨rfl, before, within', rfl⟩ := after
          have before : i + 1 ≤ j := before
          exact Matches.imp (ih _ (by omega) within' (by omega) (by omega)) fun _ _ after =>
            after.le (by omega)

theorem follows_chain (genuine : Genuine ts) (op? : Token → Option BinaryOp)
    (h : Follows ts lowest operand operand') :
    Follows ts lowest (chain ts op? operand) (Reader.chain op? operand') := by
  intro i le within
  refine (h i le within).bind fun (left, j) (_, rest) after => ?_
  obtain ⟨rfl, before, within', rfl⟩ := after
  have before : i ≤ j := before
  refine Matches.imp (follows_chainAfter genuine op? h left (by omega) within' (by omega) ?_)
    fun _ _ after => after.le before
  rw [List.length_drop]
  omega

/-- The rounds of a prefix end as well. -/
theorem follows_leadingIn (genuine : Genuine ts) (isOp : Token → Bool) (op : UnaryOp)
    (h : Follows ts lowest operand operand') {fuel : Nat} (le : lowest ≤ i)
    (within : i ≤ ts.body.length) (enough : ts.body.length < i + fuel) :
    Matches ts (After ts i) (leadingIn ts isOp op operand fuel i)
      (Reader.leading isOp op operand' (ts.body.drop i)) := by
  induction fuel generalizing i with
  | zero => omega
  | succ fuel ih =>
    have unled := h i le within
    rw [leadingIn]
    rcases look_drop genuine within with ⟨none, looked⟩ | ⟨t, some, looked, inside, -⟩
    · rw [none] at unled ⊢
      rw [has_bind looked]
      exact unled
    · rw [some] at unled ⊢
      rw [has_bind looked, Option.any_some, Reader.leading]
      split
      · refine (ih (by omega) inside (by omega)).bind fun (e, j) (_, rest) after => ?_
        obtain ⟨rfl, before, within', rfl⟩ := after
        exact .ok ⟨rfl, (Nat.le_succ i).trans before, within', rfl⟩
      · exact unled

theorem follows_leading (genuine : Genuine ts) (isOp : Token → Bool) (op : UnaryOp)
    (h : Follows ts lowest operand operand') :
    Follows ts lowest (leading ts isOp op operand) (Reader.leading isOp op operand') :=
  fun _ le within => follows_leadingIn genuine isOp op h le within (by omega)

theorem follows_compared (genuine : Genuine ts) (h : Follows ts lowest operand operand') :
    Follows ts lowest (compared ts operand) (Reader.compared operand') := by
  intro i le within
  refine (h i le within).bind fun (left, j) (_, rest) after => ?_
  obtain ⟨rfl, before, within', rfl⟩ := after
  have before : i ≤ j := before
  dsimp only
  rcases look_drop genuine within' with ⟨none, looked⟩ | ⟨t, some, looked, inside, -⟩
  · rw [look_bind looked, none]
    exact .ok ⟨rfl, before, within', none.symm⟩
  · rw [look_bind looked, some]
    dsimp only [Option.bind_some]
    cases Reader.comparison? t with
    | none => exact .ok ⟨rfl, before, within', some.symm⟩
    | some op =>
      refine (h (j + 1) (by omega) inside).bind fun (right, k) (_, rest') after => ?_
      obtain ⟨rfl, before', within'', rfl⟩ := after
      have before' : j + 1 ≤ k := before'
      have refused : Matches ts (@After Expr ts i) (expected ts .oneComparison k)
          (Reader.expected .oneComparison (ts.body.drop k)) :=
        matches_expected genuine within'' .oneComparison
      have read : After ts i (binary op left right, k) (binary op left right, ts.body.drop k) :=
        ⟨rfl, by omega, within'', rfl⟩
      dsimp only
      rcases look_drop genuine within'' with ⟨none, looked⟩ | ⟨u, some, looked, -, -⟩
      · rw [has_bind looked, none]
        exact .ok (none ▸ read)
      · rw [has_bind looked]
        rw [some] at refused read ⊢
        rw [Option.any_some, List.head?_cons, Option.any_some]
        split
        · exact refused
        · exact .ok read

/-! ## Lists -/

theorem follows_listItem (genuine : Genuine ts) :
    Follows ts 0 (listItem ts) Reader.listItem := by
  intro i _ within
  have refused : Matches ts (@After Document ts i) (expected ts .listItem i)
      (Reader.expected .listItem (ts.body.drop i)) := matches_expected genuine within .listItem
  unfold listItem
  rcases look_drop genuine within with ⟨none, looked⟩ | ⟨t, some, looked, inside, ht⟩
  · rw [has_bind looked]
    dsimp only [Option.any_none]
    rw [if_neg Bool.false_ne_true, look_bind looked]
    rw [none] at refused ⊢
    exact refused
  rw [has_bind looked, Option.any_some]
  rw [some] at refused ⊢
  unfold Reader.listItem
  dsimp only
  -- after a minus sign the token that decides is the next one, and there may be none
  cases Reader.isToken .operator "-" t with
  | true =>
    have signed : Matches ts (@After Document ts i) (expected ts .listItem (i + 1))
        (Reader.expected .listItem (ts.body.drop (i + 1))) :=
      matches_expected genuine inside .listItem
    rw [if_pos rfl]
    rcases look_drop genuine inside with ⟨none, looked⟩ | ⟨u, some, looked, inside, hu⟩
    · rw [look_bind looked]
      rw [none] at signed ⊢
      exact signed
    · rw [look_bind looked]
      rw [some] at signed ⊢
      dsimp only
      split
      case isTrue int =>
        rw [integer_of_genuine hu int]
        exact .ok ⟨rfl, by omega, inside, rfl⟩
      case isFalse =>
        rw [Bool.not_true, Bool.and_false]
        exact signed
  | false =>
    rw [if_neg Bool.false_ne_true, look_bind looked]
    dsimp only
    rw [if_neg Bool.false_ne_true]
    split
    case isTrue int =>
      rw [integer_of_genuine ht int]
      exact .ok ⟨rfl, Nat.le_succ i, inside, rfl⟩
    case isFalse =>
      by_cases string : t.kind = .string
      · rw [if_pos string, if_pos (by simp [string])]
        exact (matches_unquoted ht string).map fun _ _ same =>
          ⟨congrArg Document.str same, Nat.le_succ i, inside, rfl⟩
      · rw [if_neg string, if_neg (by simp [string])]
        exact refused

/-- The rounds of a list end, since each of them moves over a comma. -/
theorem follows_listItems (genuine : Genuine ts) {fuel fuel' : Nat} (within : i ≤ ts.body.length)
    (enough : ts.body.length < i + fuel) (enough' : ts.body.length ≤ i + fuel') :
    Matches ts (After ts i) (listItems ts fuel i) (Reader.listItems fuel' (ts.body.drop i)) := by
  induction fuel generalizing i fuel' with
  | zero => omega
  | succ fuel ih =>
    have first := follows_listItem genuine i (Nat.zero_le i) within
    cases fuel' with
    | zero =>
      -- no tokens are left, so there is no item, with fuel or without
      have none : ts.body.drop i = [] := List.drop_eq_nil_of_le enough'
      rw [none] at first ⊢
      exact first.refused _
    | succ fuel' =>
      refine first.bind fun (d, j) (_, rest) after => ?_
      obtain ⟨rfl, before, within, rfl⟩ := after
      have before : i ≤ j := before
      have next := matches_afterMark genuine within ","
      dsimp only
      rcases look_drop genuine within with ⟨none, looked⟩ | ⟨t, some, looked, inside, -⟩
      · rw [has_bind looked]
        rw [none] at next ⊢
        exact next.refused _
      · rw [has_bind looked, Option.any_some]
        rw [some] at next ⊢
        dsimp only
        split
        · exact .ok ⟨rfl, by omega, inside, rfl⟩
        · refine next.bind fun k rest ⟨comma, within, same⟩ => ?_
          subst same
          refine (ih within (by omega) (by omega)).bind fun (ds, l) (_, rest) after => ?_
          obtain ⟨rfl, before', within, rfl⟩ := after
          exact .ok ⟨rfl, by omega, within, rfl⟩

/-- Items of both kinds are refused where their list opens, and all others make a fact. -/
theorem matches_listOf {opening : Nat} (inside : opening ≤ ts.stop) {p : List Document × Nat}
    {q : List Document × List Token} (after : After ts i p q)
    (kinds : ∀ d ∈ q.1, d.int?.isSome ∨ d.text?.isSome) :
    Matches ts (After ts i) (do return (← listOf opening p.1, p.2))
      (match Fact.ofBare (.list q.1) with
        | .ok f => .ok (literal f, q.2)
        | .error _ => .error ⟨.mixedItems, some opening⟩) := by
  obtain ⟨same, after⟩ := after
  unfold listOf
  rw [same]
  by_cases mixed : isMixed q.1
  · obtain ⟨fault, refused⟩ := ofBare_of_mixed mixed
    rw [if_pos mixed, refused]
    exact ⟨inside, rfl⟩
  · obtain ⟨f, made⟩ := exists_ofBare kinds mixed
    rw [if_neg mixed, made]
    exact .ok ⟨rfl, after⟩

theorem follows_listAfter (genuine : Genuine ts) {opening : Nat} (inside : opening ≤ ts.stop) :
    Follows ts 0 (listAfter ts opening) (Reader.listAfter opening) := by
  intro i _ within
  have items {fuel' : Nat} (enough : ts.body.length ≤ i + fuel') :
      Matches ts (fun p q => After ts i p q ∧ ∃ used, _ = used ++ q.2 ∧ Reader.Closed used q.1)
        (listItems ts (ts.body.length + 1) i) (Reader.listItems fuel' (ts.body.drop i)) :=
    (follows_listItems genuine within (by omega) enough).along (Reader.sound_listItems fuel' _)
  unfold listAfter
  rcases look_drop genuine within with ⟨none, looked⟩ | ⟨t, some, looked, past, -⟩
  · have ended := items (Nat.le_trans (List.drop_eq_nil_iff.mp none) (Nat.le_add_right i 1))
    rw [has_bind looked]
    rw [none] at ended ⊢
    exact ended.refused _
  · have enough : ts.body.length ≤ i + (ts.body.drop i).length := by
      rw [List.length_drop]
      omega
    have read := items enough
    rw [has_bind looked, Option.any_some]
    rw [some] at read ⊢
    unfold Reader.listAfter
    dsimp only
    split
    · exact .ok ⟨rfl, Nat.le_succ i, past, rfl⟩
    · refine read.bind fun p q ⟨after, used, _, closed⟩ => ?_
      obtain ⟨us, closing, _, _, written⟩ := closed
      exact matches_listOf inside after (kinds_of_items written)

/-! ## Levels -/

/-- A reader with a reader of expressions in parentheses follows if that one does, which
    starts after a token at least. -/
theorem follows_primary (genuine : Genuine ts) {inner : Cursor Expr} {inner' : Reader Expr}
    (h : Follows ts (lowest + 1) inner inner') :
    Follows ts lowest (primary ts inner) (Reader.primary inner') := by
  intro i le within
  have refused : Matches ts (@After Expr ts i) (expected ts .value i)
      (Reader.expected .value (ts.body.drop i)) := matches_expected genuine within .value
  unfold primary
  rcases look_drop genuine within with ⟨none, looked⟩ | ⟨t, some, looked, inside, ht⟩
  · rw [look_bind looked]
    rw [none] at refused ⊢
    exact refused
  rw [look_bind looked]
  rw [some] at refused ⊢
  have taken (e : Expr) : After ts i (e, i + 1) (e, ts.body.drop (i + 1)) :=
    ⟨rfl, Nat.le_succ i, inside, rfl⟩
  unfold Reader.primary
  dsimp only
  cases kind : t.kind with
  | int =>
    rw [integer_of_genuine ht kind]
    exact .ok (taken _)
  | float =>
    rw [real_of_genuine ht kind]
    exact .ok (taken _)
  | string =>
    exact (matches_unquoted ht kind).map fun _ _ same => same ▸ taken _
  | reference =>
    have length : 2 ≤ t.text.toList.length := by
      have writes := ht.writes
      rwa [kind] at writes
    have named : String.ofList (t.text.toList.drop 1) ≠ "" := by
      rw [Ne, String.ofList_eq_empty_iff, List.drop_eq_nil_iff]
      omega
    dsimp only
    rw [reference_of_ne named]
    exact .ok (taken _)
  | word =>
    have named : t.text ≠ "" := fun h => by
      have writes := ht.writes
      rw [kind, h] at writes
      exact writes rfl
    dsimp only
    rw [reference_of_ne named]
    exact .ok (taken _)
  | keyword =>
    dsimp only
    split
    · exact .ok (taken _)
    split
    · exact .ok (taken _)
    · exact refused
  | punctuation =>
    dsimp only
    split
    · refine (h (i + 1) (by omega) inside).bind fun (e, j) (_, rest) after => ?_
      obtain ⟨rfl, before, within, rfl⟩ := after
      refine (matches_afterMark genuine within ")").bind fun k rest ⟨past, within, same⟩ => ?_
      exact .ok ⟨rfl, by omega, within, same⟩
    split
    · refine Matches.imp (follows_listAfter genuine ht.position (i + 1) (Nat.zero_le _) inside)
        fun _ _ after => after.le (Nat.le_succ i)
    · exact refused
  | operator => exact refused

section Levels

variable {inner : Cursor Expr} {inner' : Reader Expr}

theorem follows_product (genuine : Genuine ts) (h : Follows ts (lowest + 1) inner inner') :
    Follows ts lowest (product ts inner) (Reader.product inner') :=
  follows_chain genuine _ (follows_leading genuine _ .neg (follows_primary genuine h))

theorem follows_sum (genuine : Genuine ts) (h : Follows ts (lowest + 1) inner inner') :
    Follows ts lowest (sum ts inner) (Reader.sum inner') :=
  follows_chain genuine _ (follows_product genuine h)

theorem follows_negation (genuine : Genuine ts) (h : Follows ts (lowest + 1) inner inner') :
    Follows ts lowest (negation ts inner) (Reader.negation inner') :=
  follows_leading genuine _ .not (follows_compared genuine (follows_sum genuine h))

theorem follows_disjunction (genuine : Genuine ts) (h : Follows ts (lowest + 1) inner inner') :
    Follows ts lowest (disjunction ts inner) (Reader.disjunction inner') :=
  follows_chain genuine _ (follows_chain genuine _ (follows_negation genuine h))

end Levels

/-- Every pair of parentheses takes a token, so there is fuel left when the tokens end. -/
theorem follows_expression (genuine : Genuine ts) (depth : Nat) :
    Follows ts (ts.body.length + 1 - depth) (expression ts depth) (Reader.expression depth) := by
  induction depth with
  | zero =>
    intro i le within
    omega
  | succ depth ih =>
    refine follows_disjunction genuine fun i le within => ih i (by omega) within

/-! ## Sources -/

theorem matches_whole (genuine : Genuine ts) : Matches ts Eq (whole ts) (ofTokens ts.body) := by
  have read := follows_expression genuine (ts.body.length + 1) 0 (by omega) (Nat.zero_le _)
  have missing : Matches ts Eq (expected ts .anything 0)
      (.error (Reader.missing .anything (ts.body.drop 0)) : Except Failure Expr) :=
    matches_expected genuine (Nat.zero_le _) .anything
  unfold whole ofTokens
  rw [List.drop_zero] at read missing
  rcases look_drop genuine (Nat.zero_le _) with ⟨none, looked⟩ | ⟨t, some, looked, -⟩
  · rw [look_bind looked]
    rw [List.drop_zero] at none
    rw [none] at missing ⊢
    exact missing
  rw [look_bind looked]
  rw [List.drop_zero] at some
  have nonempty : ts.body.isEmpty = false := by rw [some]; rfl
  rw [nonempty]
  refine read.bind fun (e, i) (_, rest) after => ?_
  obtain ⟨rfl, -, within, rfl⟩ := after
  have left : Matches ts Eq (expected ts .nothingMore i)
      (.error (Reader.missing .nothingMore (ts.body.drop i)) : Except Failure Expr) :=
    matches_expected genuine within .nothingMore
  dsimp only
  rcases look_drop genuine within with ⟨none, looked⟩ | ⟨u, some, looked, -⟩
  · rw [look_bind looked, none]
    exact .ok rfl
  · rw [look_bind looked]
    rw [some] at left ⊢
    exact left

end Cursor

/-- Every source is read or refused, by the running reader and by the one that trusts
    nothing alike: nothing else can happen, and what is refused is refused for a cause
    at a position within the source. -/
theorem parse_total (source : String) :
    (∃ e, Cursor.parse source = .ok e ∧ parse source = .ok e) ∨
      ∃ cause position, position ≤ source.length ∧
        Cursor.parse source = .error (.refused cause position) ∧
        parse source = .error (.malformed cause (.str source) position) := by
  have tokens := Tokens.genuine_ofChars source.toList
  unfold Cursor.parse parse Tokens.ofSource
  cases scanned : Tokens.ofChars source.toList with
  | error e =>
    obtain ⟨cause, position⟩ := e
    rw [scanned] at tokens
    exact .inr ⟨cause, position, tokens, rfl, rfl⟩
  | ok ts =>
    rw [scanned] at tokens
    obtain ⟨stop, genuine⟩ := tokens
    have read := Cursor.matches_whole genuine
    dsimp only
    cases ends : ofTokens ts.body with
    | ok e =>
      rw [ends] at read
      obtain ⟨_, ok, rfl⟩ := read
      refine .inl ⟨_, ok, ?_⟩
      change ((ofTokens ts.body).mapError _) = _
      rw [ends]
      rfl
    | error f =>
      rw [ends] at read
      obtain ⟨within, refused⟩ := read
      refine .inr ⟨_, _, ?_, refused, ?_⟩
      · exact within.trans_eq (stop.trans source.length_toList)
      · change ((ofTokens ts.body).mapError _) = _
        rw [ends]
        rfl

end Cascade.Expr
