-- SUMMARY: What the grammar derives is read, so that reading accepts exactly the grammar and each sequence of tokens writes one expression at most.
import Cascade.Proofs.Expr.Derived

/-! # What is derived is read

Where an expression ends depends on what follows it: an operand ends in front of
every token that writes no operator of its level or of a tighter one. A chain
of operators is read from the left, so a derivation of its first part tells only
where the reader has got to; it then goes on with that part as its left operand.
Which way a reader turns at a token is decided by the token alone, and what
starts an expression of a level can be told from the operators of looser ones. -/

namespace Cascade

namespace Expr

open Reader

variable {ℓ : Level}

/-! ## Where expressions start and stop -/

/-- A token writes one binary operator at most. -/
theorem writes_unique {t : Token} {op op' : BinaryOp} (h : t.Writes op) (h' : t.Writes op') :
    op = op' := BinaryOp.symbol_injective (h.2.symm.trans h'.2)

/-- A token leads with one unary operator at most. -/
theorem leads_unique {t : Token} {op op' : UnaryOp} (h : t.Leads op) (h' : t.Leads op') :
    op = op' := by
  cases op <;> cases op'
  case neg.not => cases h.1.symm.trans h'.1
  case not.neg => cases h.1.symm.trans h'.1
  all_goals rfl

theorem not_leads {t : Token} {op : UnaryOp}
    (h : t.kind ≠ .operator ∧ (t.kind = .keyword → t.text ≠ "not")) : ¬t.Leads op := by
  intro leads
  cases op with
  | neg => exact h.1 leads.1
  | not => exact h.2 leads.1 leads.2

namespace Level

/-- No operator of a level, or of a tighter one, is in front of the tokens. -/
def Stops (ℓ : Level) (rest : List Token) : Prop :=
  ∀ t ∈ rest.head?, ∀ op, t.Writes op → op.level.rank < ℓ.rank

theorem rank_le_tighter (ℓ : Level) : ℓ.rank ≤ ℓ.tighter.rank := by cases ℓ <;> decide

theorem rank_lt_tighter (h : ℓ.chains) : ℓ.rank < ℓ.tighter.rank := by
  cases ℓ <;> first | decide | cases h

variable {rest : List Token} {t : Token} {op : BinaryOp}

theorem Stops.tighter (h : ℓ.Stops rest) : ℓ.tighter.Stops rest :=
  fun t ht op writes => Nat.lt_of_lt_of_le (h t ht op writes) ℓ.rank_le_tighter

theorem stops_nil : ℓ.Stops [] := nofun

/-- A mark or a bracket stops every operand. -/
theorem stops_mark (h : t.kind = .punctuation) : ℓ.Stops (t :: rest) := by
  intro u hu op writes
  cases hu
  have kind := writes.1
  rw [h] at kind
  cases op <;> cases kind

/-- An operator stops the operands that are tighter than it. -/
theorem stops_operator (writes : t.Writes op) (h : op.level.rank < ℓ.rank) :
    ℓ.Stops (t :: rest) := by
  intro u hu op' writes'
  cases hu
  rw [← writes_unique writes writes']
  exact h

theorem Stops.operator? (h : ℓ.Stops (t :: rest)) : ℓ.operator? t = none := by
  cases found : ℓ.operator? t with
  | none => rfl
  | some op =>
    obtain ⟨rfl, writes⟩ := operator?_eq_some.mp found
    exact absurd (h t rfl op writes) (Nat.lt_irrefl _)

end Level

/-- What starts an expression of a level is no unary operator of a looser one. -/
theorem Derives.head {ts : List Token} {e : Expr} (h : Derives ℓ ts e) :
    ∃ t us, ts = t :: us ∧ ∀ op : UnaryOp, t.Leads op → ℓ.rank ≤ op.level.rank := by
  induction h with
  | @tighter ℓ ts e _ ih =>
    obtain ⟨t, us, rfl, leads⟩ := ih
    exact ⟨t, us, rfl, fun op h => Nat.le_trans ℓ.rank_le_tighter (leads op h)⟩
  | chained _ _ _ _ ihl _ =>
    obtain ⟨t, us, rfl, leads⟩ := ihl
    exact ⟨t, _, rfl, leads⟩
  | compared _ _ _ ihl _ =>
    obtain ⟨t, us, rfl, leads⟩ := ihl
    exact ⟨t, _, rfl, fun op h => Nat.le_trans (by decide) (leads op h)⟩
  | prefixed leads _ _ =>
    refine ⟨_, _, rfl, fun op h => ?_⟩
    exact Nat.le_of_eq (congrArg (fun op : UnaryOp => op.level.rank) (leads_unique leads h))
  | int kind | float kind | reference kind | word kind =>
    exact ⟨_, _, rfl, fun op h => absurd h (not_leads (by simp [kind]))⟩
  | text quotes => exact ⟨_, _, rfl, fun op h => absurd h (not_leads (by simp [quotes.1]))⟩
  | true keyword | false keyword =>
    exact ⟨_, _, rfl, fun op h => absurd h (not_leads (by simp [keyword.1, keyword.2]))⟩
  | parentheses opening _ _ _ | emptyList opening _ | intList opening _ _ | textList opening _ _ =>
    exact ⟨_, _, rfl, fun op h => absurd h (not_leads (by simp [opening.1]))⟩

theorem Items.head {ts : List Token} {ds : List Document} (h : Items ts ds) :
    ∃ t us, ts = t :: us ∧ t.kind ≠ .punctuation := by
  have item : ∀ {ts d}, Item ts d → ∃ t us, ts = t :: us ∧ t.kind ≠ .punctuation := by
    intro ts d h
    cases h with
    | int kind => exact ⟨_, _, rfl, by simp [kind]⟩
    | minus sign _ => exact ⟨_, _, rfl, by simp [sign.1]⟩
    | text quotes => exact ⟨_, _, rfl, by simp [quotes.1]⟩
  cases h with
  | one h => exact item h
  | more h _ _ =>
    obtain ⟨t, us, rfl, kind⟩ := item h
    exact ⟨t, _, rfl, kind⟩

theorem Items.nonempty {ts : List Token} {ds : List Document} (h : Items ts ds) : ds ≠ [] := by
  cases h <;> exact List.cons_ne_nil _ _

namespace Reader

variable {ts us rest : List Token} {d : Document} {ds : List Document} {closing : Token}

theorem listItem_of_item (h : Item ts d) (rest : List Token) :
    listItem (ts ++ rest) = .ok (d, rest) := by
  cases h with
  | int kind => simp [listItem, isToken, kind]
  | minus sign kind => simp [listItem, isToken_iff.mpr sign, kind]
  | text quotes =>
    have read := (unquoted_eq_ok quotes.1).mpr quotes
    simp [listItem, isToken, quotes.1, read, bind, Except.bind, pure, Except.pure]

theorem listItems_of_items (h : Items ts ds) (isClosing : closing.Is .punctuation "]")
    (rest : List Token) {fuel : Nat} (enough : ts.length ≤ fuel) :
    listItems fuel (ts ++ closing :: rest) = .ok (ds, rest) := by
  induction h generalizing fuel with
  | one item =>
    obtain ⟨t, us, rfl, -⟩ := (Items.one item).head
    cases fuel with
    | zero => cases enough
    | succ fuel =>
      rw [listItems, listItem_of_item item]
      simp [bind, Except.bind, pure, Except.pure, isToken_iff.mpr isClosing]
  | @more ts us comma d ds item isComma items ih =>
    simp only [List.length_append, List.length_cons] at enough
    cases fuel with
    | zero => omega
    | succ fuel =>
      have goesOn : isToken .punctuation "]" comma = false := by simp [isToken, isComma.2]
      have next : afterMark "," (comma :: (us ++ closing :: rest)) = .ok (us ++ closing :: rest) :=
        afterMark_eq_ok.mpr ⟨comma, isComma, rfl⟩
      rw [List.append_assoc, List.cons_append, listItems, listItem_of_item item]
      simp [bind, Except.bind, pure, Except.pure, goesOn, next, @ih fuel (by omega)]

theorem listAfter_of_items (h : Items ts ds) (isClosing : closing.Is .punctuation "]")
    (rest : List Token) {f : Fact} (hf : Fact.ofBare (.list ds) = .ok f) (position : Nat) :
    listAfter position (ts ++ closing :: rest) = .ok (literal f, rest) := by
  have read : listItems (ts ++ closing :: rest).length (ts ++ closing :: rest) = .ok (ds, rest) :=
    listItems_of_items h isClosing rest (by simp)
  obtain ⟨t, us, rfl, kind⟩ := h.head
  unfold listAfter
  simp only [List.cons_append] at read ⊢
  have notClosed : ¬isToken .punctuation "]" t := fun h => kind (isToken_iff.mp h).1
  rw [if_neg notClosed, read]
  simp [bind, Except.bind, hf, pure, Except.pure]

theorem leading_of_leads {isOp : Token → Bool} {op : UnaryOp} {operand : Reader Expr} {t : Token}
    {e : Expr} (h : isOp t) (read : leading isOp op operand ts = .ok (e, rest)) :
    leading isOp op operand (t :: ts) = .ok (unary op e, rest) := by
  rw [leading, if_pos h, read]
  rfl

theorem leading_of_not {isOp : Token → Bool} {op : UnaryOp} {operand : Reader Expr} {t : Token}
    (h : ¬isOp t) : leading isOp op operand (t :: ts) = operand (t :: ts) := by
  rw [leading, if_neg h]

/-- Nothing is compared where no comparison follows. -/
theorem compared_of_stops {operand : Reader Expr} {e : Expr} (read : operand ts = .ok (e, rest))
    (stops : Level.comparison.Stops rest) : compared operand ts = .ok (e, rest) := by
  unfold compared
  rw [read]
  cases rest with
  | nil => rfl
  | cons t rest =>
    have none : comparison? t = none := stops.operator?
    simp [none, bind, Except.bind, pure, Except.pure]

theorem compared_of_writes {operand : Reader Expr} {op : Comparison} {t : Token} {l r : Expr}
    (left : operand ts = .ok (l, t :: us)) (writes : t.Writes (.comparison op))
    (right : operand us = .ok (r, rest)) (stops : Level.comparison.Stops rest) :
    compared operand ts = .ok (binary (.comparison op) l r, rest) := by
  have found : Level.comparison.operator? t = some (.comparison op) :=
    Level.operator?_eq_some.mpr ⟨rfl, writes⟩
  simp only [Level.operator?] at found
  have last : (rest.head?.any fun u => (comparison? u).isSome) = false := by
    cases rest with
    | nil => rfl
    | cons u rest =>
      have none : comparison? u = none := stops.operator?
      simp [none]
  unfold compared
  simp [left, found, right, last, bind, Except.bind, pure, Except.pure]

end Reader

/-! ### Levels -/

/-- A reader of a level reads an expression from the tokens that write it, in
    front of tokens that stop it. -/
def Found (ℓ : Level) (ts : List Token) (e : Expr) : Prop :=
  ∀ depth, ts.length ≤ depth → ∀ rest, ℓ.Stops rest →
    ℓ.reader (expression depth) (ts ++ rest) = .ok (e, rest)

/-- A reader of a chain reads an expression from the tokens that write it, and
    goes on with it as its left operand. -/
def Begun (ℓ : Level) (ts : List Token) (e : Expr) : Prop :=
  ∀ depth, ts.length ≤ depth → ∀ rest, ℓ.tighter.Stops rest → ∃ fuel, rest.length ≤ fuel ∧
    ℓ.reader (expression depth) (ts ++ rest) =
      chainAfter ℓ.operator? (ℓ.tighter.reader (expression depth)) fuel e rest

variable {ts us rest : List Token} {e l r : Expr}

theorem chainAfter_of_stops {operand : Reader Expr} (h : ℓ.Stops rest) (fuel : Nat) (e : Expr) :
    chainAfter ℓ.operator? operand fuel e rest = .ok (e, rest) := by
  cases fuel with
  | zero => rfl
  | succ fuel =>
    cases rest with
    | nil => rfl
    | cons t rest =>
      unfold chainAfter
      rw [h.operator?]

theorem Begun.found (h : Begun ℓ ts e) : Found ℓ ts e := by
  intro depth deep rest stops
  obtain ⟨fuel, -, read⟩ := h depth deep rest stops.tighter
  rw [read, chainAfter_of_stops stops]

theorem Found.begun (chains : ℓ.chains) (h : Found ℓ.tighter ts e) : Begun ℓ ts e := by
  intro depth deep rest stops
  refine ⟨rest.length, Nat.le_refl _, ?_⟩
  rw [Level.reader_of_chains chains]
  unfold chain
  rw [h depth deep rest stops]
  rfl

theorem Begun.chained {op : BinaryOp} {t : Token} (chains : op.level.chains) (writes : t.Writes op)
    (hl : Begun op.level ts l) (hr : Found op.level.tighter us r) :
    Begun op.level (ts ++ t :: us) (binary op l r) := by
  intro depth deep rest stops
  simp only [List.length_append, List.length_cons] at deep
  have next : op.level.tighter.Stops (t :: (us ++ rest)) :=
    Level.stops_operator writes (Level.rank_lt_tighter chains)
  -- the reader has got to the operator, with the left operand in hand
  obtain ⟨fuel, enough, read⟩ := hl depth (by omega) _ next
  simp only [List.length_append, List.length_cons] at enough
  obtain ⟨fuel, rfl⟩ : ∃ n, fuel = n + 1 := ⟨fuel - 1, by omega⟩
  refine ⟨fuel, by omega, ?_⟩
  rw [List.append_assoc, List.cons_append, read, chainAfter,
    Level.operator?_eq_some.mpr ⟨rfl, writes⟩]
  dsimp only
  rw [hr depth (by omega) rest stops]
  rfl

theorem Found.compared {op : Comparison} {t : Token} (writes : t.Writes (.comparison op))
    (hl : Found .sum ts l) (hr : Found .sum us r) :
    Found .comparison (ts ++ t :: us) (binary (.comparison op) l r) := by
  intro depth deep rest stops
  simp only [List.length_append, List.length_cons] at deep
  have next : Level.sum.Stops (t :: (us ++ rest)) :=
    Level.stops_operator writes (show 3 < 4 by decide)
  have left := hl depth (by omega) _ next
  have right := hr depth (by omega) rest stops.tighter
  rw [List.append_assoc, List.cons_append]
  exact compared_of_writes left writes right stops

theorem Found.prefixed {op : UnaryOp} {t : Token} (leads : t.Leads op) (h : Found op.level ts e) :
    Found op.level (t :: ts) (unary op e) := by
  intro depth deep rest stops
  have read := h depth (Nat.le_of_succ_le deep) rest stops
  cases op with
  | neg => exact leading_of_leads (isToken_iff.mpr leads) read
  | not => exact leading_of_leads (isToken_iff.mpr leads) read

/-- A level that is no chain reads what a tighter one reads, as it looks for none
    of its operators there. -/
theorem Found.tighter (derives : Derives ℓ.tighter ts e) (h : Found ℓ.tighter ts e)
    (single : ¬ℓ.chains) : Found ℓ ts e := by
  intro depth deep rest stops
  have read := h depth deep rest stops.tighter
  obtain ⟨t, us, rfl, leads⟩ := derives.head
  cases ℓ with
  | disjunction | conjunction | sum | product => exact absurd rfl single
  | primary => exact read
  | sign =>
    have none : ¬isToken .operator "-" t := fun h =>
      absurd (leads .neg (isToken_iff.mp h)) (by decide)
    exact (leading_of_not none).trans read
  | negation =>
    have none : ¬isToken .keyword "not" t := fun h =>
      absurd (leads .not (isToken_iff.mp h)) (by decide)
    exact (leading_of_not none).trans read
  | comparison => exact compared_of_stops read stops

theorem Found.parentheses {opening closing : Token} (isOpening : opening.Is .punctuation "(")
    (isClosing : closing.Is .punctuation ")") (h : Found .disjunction ts e) :
    Found .primary (opening :: (ts ++ [closing])) e := by
  intro depth deep rest _
  simp only [List.length_append, List.length_cons] at deep
  cases depth with
  | zero => omega
  | succ depth =>
    have inside := h depth (by omega) (closing :: rest) (Level.stops_mark isClosing.1)
    have close : afterMark ")" (closing :: rest) = .ok rest :=
      afterMark_eq_ok.mpr ⟨closing, isClosing, rfl⟩
    rw [List.cons_append, List.append_assoc, List.singleton_append]
    simp only [Level.reader] at inside ⊢
    simp [primary, isOpening.1, isOpening.2, expression, inside, close, bind, Except.bind, pure,
      Except.pure]

theorem Found.list {opening closing : Token} (isOpening : opening.Is .punctuation "[")
    (isClosing : closing.Is .punctuation "]") {ds : List Document} (items : Items ts ds) {f : Fact}
    (hf : Fact.ofBare (.list ds) = .ok f) :
    Found .primary (opening :: (ts ++ [closing])) (literal f) := by
  intro depth _ rest _
  have read := listAfter_of_items items isClosing rest hf opening.position
  simp [Level.reader, primary, isOpening.1, isOpening.2, read]

/-- What the grammar derives at a level is read at that level; at that of a
    chain it is read as a left operand too. -/
theorem found_of_derives (h : Derives ℓ ts e) : Found ℓ ts e ∧ (ℓ.chains → Begun ℓ ts e) := by
  -- `Begun` carries the left operand of a chain, where `Found` says nothing since it does not stop
  induction h with
  | @tighter ℓ ts e h ih =>
    by_cases chains : ℓ.chains
    · have begun := ih.1.begun chains
      exact ⟨begun.found, fun _ => begun⟩
    · exact ⟨ih.1.tighter h chains, fun h => absurd h chains⟩
  | chained chains writes _ _ ihl ihr =>
    have begun := (ihl.2 chains).chained chains writes ihr.1
    exact ⟨begun.found, fun _ => begun⟩
  | compared writes _ _ ihl ihr => exact ⟨ihl.1.compared writes ihr.1, nofun⟩
  | @prefixed op t ts e leads _ ih =>
    refine ⟨ih.1.prefixed leads, fun chains => ?_⟩
    cases op <;> cases chains
  | int kind | float kind | reference kind | word kind =>
    exact ⟨fun _ _ _ _ => by simp [Level.reader, primary, kind], nofun⟩
  | text quotes =>
    have read := (unquoted_eq_ok quotes.1).mpr quotes
    refine ⟨fun _ _ _ _ => ?_, nofun⟩
    simp [Level.reader, primary, quotes.1, read, bind, Except.bind, pure, Except.pure]
  | true keyword | false keyword =>
    exact ⟨fun _ _ _ _ => by simp [Level.reader, primary, keyword.1, keyword.2], nofun⟩
  | parentheses isOpening isClosing _ ih => exact ⟨ih.1.parentheses isOpening isClosing, nofun⟩
  | @emptyList opening closing isOpening isClosing =>
    refine ⟨fun _ _ rest _ => ?_, nofun⟩
    have read : listAfter opening.position (closing :: rest) =
        .ok (literal (.stringList []), rest) := by
      unfold listAfter
      dsimp only
      rw [if_pos (isToken_iff.mpr isClosing)]
      rfl
    simp [Level.reader, primary, isOpening.1, isOpening.2, read]
  | @intList _ _ _ ns isOpening isClosing items =>
    have nonempty : ns ≠ [] := by
      rintro rfl
      exact items.nonempty rfl
    exact ⟨.list isOpening isClosing items (Fact.ofBare_ints nonempty), nofun⟩
  | textList isOpening isClosing items =>
    exact ⟨.list isOpening isClosing items (Fact.ofBare_texts _), nofun⟩

/-! ## Whole expressions -/

/-- What is read from a whole sequence of tokens is derived from it. -/
theorem derives_ofTokens (ts : List Token) : Yields (ofTokens ts) (Derives .disjunction ts) := by
  unfold ofTokens
  split
  · exact .error _
  · refine (sound_expression _ ts).bind fun (e, rest) ⟨used, split, derived⟩ => ?_
    cases rest with
    | nil =>
      rw [List.append_nil] at split
      exact .ok (split ▸ derived)
    | cons t rest => exact .error _

theorem ofTokens_of_derives (h : Derives .disjunction ts e) : ofTokens ts = .ok e := by
  have read := (found_of_derives h).1 ts.length (Nat.le_refl _) [] Level.stops_nil
  rw [List.append_nil] at read
  have whole : expression (ts.length + 1) ts = .ok (e, []) := read
  obtain ⟨t, us, rfl, -⟩ := h.head
  unfold ofTokens
  rw [whole]
  rfl

/-- Reading accepts exactly the grammar: the expression that a sequence of tokens
    writes is read from it, no sequence writes two expressions, and one that
    writes none is refused. -/
theorem ofTokens_exact (ts : List Token) :
    (∀ e, ofTokens ts = .ok e ↔ Derives .disjunction ts e) ∧
      (∀ e e', Derives .disjunction ts e → Derives .disjunction ts e' → e = e') ∧
      ((∃ failure, ofTokens ts = .error failure) ↔ ∀ e, ¬Derives .disjunction ts e) := by
  have exact : ∀ e, ofTokens ts = .ok e ↔ Derives .disjunction ts e :=
    fun e => ⟨derives_ofTokens ts e, ofTokens_of_derives⟩
  refine ⟨exact, fun e e' h h' => ?_, ⟨?_, fun none => ?_⟩⟩
  · have same := (ofTokens_of_derives h).symm.trans (ofTokens_of_derives h')
    exact Except.ok.inj same
  · rintro ⟨failure, refused⟩ e h
    rw [(exact e).mpr h] at refused
    cases refused
  · cases read : ofTokens ts with
    | error failure => exact ⟨failure, rfl⟩
    | ok e => exact absurd ((exact e).mp read) (none e)

end Expr

end Cascade
