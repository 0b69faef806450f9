-- SUMMARY: Printed expressions read again: when the text of an expression that was read gives it back, and what it gives otherwise.
import Mathlib.Data.List.Chain
import Cascade.Proofs.Expr.Parsing
import Cascade.Proofs.Expr.Words

/-! # Printed expressions

The text of an expression has parentheses around every binary operation and around the
operand of a unary one, but a negation itself has none. Next to an operator that is
tighter than `not` it needs them. On the right of one a bare `not` is refused; on the
left it takes the whole operation for its operand. Everywhere else the text gives the
expression back. -/

namespace Cascade

open Token (word mark)

/-- Whether a binary operator takes its operands before `not` takes its own. -/
def BinaryOp.IsTight (op : BinaryOp) : Prop := UnaryOp.not.level.rank < op.level.rank

instance (op : BinaryOp) : Decidable op.IsTight := inferInstanceAs (Decidable (_ < _))

namespace Expr

def IsNegation : Expr → Prop
  | unary .not _ => True
  | _ => False

theorem isNegation_iff {e : Expr} : e.IsNegation ↔ ∃ x, e = unary .not x := by
  unfold IsNegation
  split <;> simp_all

theorem not_isNegation {e : Expr} (h : ∀ x, e ≠ unary .not x) : ¬e.IsNegation :=
  fun negation => (isNegation_iff.mp negation).elim h

/-- All binary operations in an expression, with their operands, are of some sort. -/
def Everywhere (P : BinaryOp → Expr → Expr → Prop) (e : Expr) : Prop :=
  ∀ op l r, binary op l r ∈ e.parts → P op l r

/-- No negation stands next to an operator that is tighter. -/
def Unmixed : Expr → Prop :=
  Everywhere fun op l r => op.IsTight → ¬l.IsNegation ∧ ¬r.IsNegation

/-- What the text of an expression is read as, if it is: a negation that stands on the
    left of a tighter operator is one of the whole operation. -/
def reread : Expr → Expr
  | binary op (unary .not x) r =>
    if op.IsTight then unary .not (binary op x.reread r.reread)
    else binary op (unary .not x.reread) r.reread
  | binary op l r => binary op l.reread r.reread
  | unary op e => unary op e.reread
  | e => e

section Everywhere

variable {P : BinaryOp → Expr → Expr → Prop}

theorem everywhere_literal {v : Fact} : Everywhere P (literal v) := by
  simp [Everywhere, parts]

theorem everywhere_fact {k : Key} : Everywhere P (fact k) := by
  simp [Everywhere, parts]

theorem everywhere_unary {op : UnaryOp} {e : Expr} :
    Everywhere P (unary op e) ↔ Everywhere P e := by
  simp [Everywhere, parts]

theorem everywhere_binary {op : BinaryOp} {l r : Expr} :
    Everywhere P (binary op l r) ↔ P op l r ∧ Everywhere P l ∧ Everywhere P r := by
  simp only [Everywhere, parts, List.mem_cons, List.mem_append, binary.injEq]
  constructor
  · intro h
    exact ⟨h op l r (.inl ⟨rfl, rfl, rfl⟩), fun _ _ _ mem => h _ _ _ (.inr (.inl mem)),
      fun _ _ _ mem => h _ _ _ (.inr (.inr mem))⟩
  · rintro ⟨here, left, right⟩ op' l' r' (⟨rfl, rfl, rfl⟩ | mem | mem)
    · exact here
    · exact left _ _ _ mem
    · exact right _ _ _ mem

end Everywhere

/-! ## Words are read -/

section Derived

variable {ts us : List Token} {t : Token} {l r e : Expr}

/-- What needs no parentheses next to a tight operator needs none at a looser level. -/
theorem Derives.ofSign (h : Derives .sign ts e) : Derives .negation ts e :=
  .tighter (.tighter (.tighter (.tighter h)))

theorem Derives.ofNegation (h : Derives .negation ts e) : Derives .disjunction ts e :=
  .tighter (.tighter h)

theorem derives_tight {op : BinaryOp} (tight : op.IsTight) (writes : t.Writes op)
    (left : Derives .sign ts l) (right : Derives .sign us r) :
    Derives .comparison (ts ++ t :: us) (binary op l r) := by
  have sum {ts : List Token} {e : Expr} (h : Derives .sign ts e) : Derives .sum ts e :=
    .tighter (.tighter h)
  cases op with
  | connective op => cases op <;> exact absurd tight (by decide)
  | comparison op => exact .compared writes (sum left) (sum right)
  | arithmetic op =>
    cases op with
    | add | sub => exact .tighter (.chained rfl writes (sum left) (.tighter right))
    | mul | div | mod =>
      exact .tighter (.tighter (.chained rfl writes (.tighter left) right))

theorem derives_loose {op : BinaryOp} (loose : ¬op.IsTight) (writes : t.Writes op)
    (left : Derives .negation ts l) (right : Derives .negation us r) :
    Derives .disjunction (ts ++ t :: us) (binary op l r) := by
  cases op with
  | connective op =>
    cases op with
    | and => exact .tighter (.chained rfl writes (.tighter left) right)
    | or => exact .chained rfl writes left.ofNegation (.tighter right)
  | comparison op => cases op <;> exact absurd (by decide) loose
  | arithmetic op => cases op <;> exact absurd (by decide) loose

theorem derives_bracketed (h : Derives .disjunction ts e) :
    Derives .sign (mark "(" :: (ts ++ [mark ")"])) e :=
  .tighter (.parentheses ⟨rfl, rfl⟩ ⟨rfl, rfl⟩ h)

theorem writes_word (op : BinaryOp) : (word op.tokenKind op.symbol).Writes op := ⟨rfl, rfl⟩

theorem leads_neg : (word .operator "-").Leads .neg := ⟨rfl, rfl⟩

theorem leads_not : (word .keyword "not").Leads .not := ⟨rfl, rfl⟩

theorem item_number (n : Int) : Item (Fact.numberWords n) (.int n) := by
  have digits : Reader.integer (word .int (toString n.natAbs)) = n.natAbs :=
    congrArg Nat.cast (Fact.digitsValue_toString n.natAbs)
  unfold Fact.numberWords
  dsimp only
  split
  · have negative : n = -(n.natAbs : Int) := by omega
    have sign : (word .operator "-").Is .operator "-" := ⟨rfl, rfl⟩
    have item := Item.minus sign (show (word .int (toString n.natAbs)).kind = .int from rfl)
    rwa [digits, ← negative] at item
  · have positive : (n.natAbs : Int) = n := by omega
    have item := Item.int (show (word .int (toString n.natAbs)).kind = .int from rfl)
    rwa [digits, positive] at item

theorem items_words {ns : List Int} (nonempty : ns ≠ []) :
    Items (Fact.itemWords ns) (ns.map .int) := by
  induction ns with
  | nil => exact absurd rfl nonempty
  | cons n ns ih =>
    cases ns with
    | nil => exact .one (item_number n)
    | cons m ns => exact .more (item_number n) ⟨rfl, rfl⟩ (ih nofun)

theorem derives_literal {v : Fact} (h : v.IsLegible) : Derives .primary v.words (literal v) := by
  cases v with
  | int n =>
    have nonnegative : ¬n < 0 := Int.not_lt.mpr h
    have value : Reader.integer (word .int (toString n.natAbs)) = n := by
      rw [Reader.integer, word, Fact.digitsValue_toString]
      omega
    have derived := Derives.int (show (word .int (toString n.natAbs)).kind = .int from rfl)
    rw [value] at derived
    simpa [Fact.words, Fact.numberWords, nonnegative] using derived
  | bool b =>
    cases b with
    | true => exact .true ⟨rfl, rfl⟩
    | false => exact .false ⟨rfl, rfl⟩
  | intList ns => exact .intList ⟨rfl, rfl⟩ ⟨rfl, rfl⟩ (items_words h)
  | stringList ss =>
    cases h
    exact .emptyList ⟨rfl, rfl⟩ ⟨rfl, rfl⟩
  | float | indeterminate | string => cases h

/-- The words of an expression without a bare `not` on the right of a tighter operator
    are read as the expression that takes others with it. -/
theorem derives_words (legible : e.IsLegible)
    (right : Everywhere (fun op _ r => op.IsTight → ¬r.IsNegation) e) :
    Derives .negation e.words e.reread ∧ (¬e.IsNegation → Derives .sign e.words e.reread) := by
  have ofSign {ts : List Token} {e e' : Expr} (h : Derives .sign ts e) :
      Derives .negation ts e ∧ (¬e'.IsNegation → Derives .sign ts e) :=
    ⟨h.ofSign, fun _ => h⟩
  fun_induction reread e with
  | case1 op x r tight ihx ihr =>
    obtain ⟨bare, inside, others⟩ := everywhere_binary.mp right
    have left := derives_bracketed (ihx legible.1 (everywhere_unary.mp inside)).1.ofNegation
    have operation :=
      derives_tight tight (writes_word op) left ((ihr legible.2 others).2 (bare tight))
    have negated : Derives .negation _ (unary .not (binary op x.reread r.reread)) :=
      .prefixed leads_not (.tighter operation)
    refine ofSign ?_
    simpa [words] using derives_bracketed negated.ofNegation
  | case2 op x r loose ihx ihr =>
    obtain ⟨-, inside, others⟩ := everywhere_binary.mp right
    have inner := derives_bracketed (ihx legible.1 (everywhere_unary.mp inside)).1.ofNegation
    have left : Derives .negation _ (unary .not x.reread) := .prefixed leads_not inner.ofSign
    have operation := derives_loose loose (writes_word op) left (ihr legible.2 others).1
    refine ofSign ?_
    simpa [words] using derives_bracketed operation
  | case3 op l r noNegation ihl ihr =>
    obtain ⟨bare, inside, others⟩ := everywhere_binary.mp right
    obtain ⟨left, left'⟩ := ihl legible.1 inside
    obtain ⟨right, right'⟩ := ihr legible.2 others
    have operation : Derives .disjunction (l.words ++ word op.tokenKind op.symbol :: r.words)
        (binary op l.reread r.reread) := by
      by_cases tight : op.IsTight
      · have tightly := derives_tight tight (writes_word op) (left' (not_isNegation noNegation))
          (right' (bare tight))
        exact .tighter (.tighter (.tighter tightly))
      · exact derives_loose tight (writes_word op) left right
    refine ofSign ?_
    simpa [words] using derives_bracketed operation
  | case4 op e ih =>
    have inner := derives_bracketed (ih legible (everywhere_unary.mp right)).1.ofNegation
    cases op with
    | neg => exact ofSign (.prefixed leads_neg inner)
    | not => exact ⟨.prefixed leads_not inner.ofSign, fun single => absurd trivial single⟩
  | case5 e _ noBinary noUnary =>
    cases e with
    | literal v => exact ofSign (.tighter (derives_literal legible))
    | fact k =>
      obtain ⟨name, rfl, -⟩ := legible
      have reference : Derives .primary [word .reference ("$" ++ name)]
          (fact (String.ofList (("$" ++ name).toList.drop 1))) := .reference rfl
      have same : String.ofList (("$" ++ name).toList.drop 1) = name := by
        rw [String.toList_append]
        exact String.ofList_toList
      rw [same] at reference
      exact ofSign (.tighter reference)
    | unary op e => exact (noUnary op e rfl).elim
    | binary op l r => exact (noBinary op l r rfl).elim

end Derived

/-! ## No tighter operator in front of `not` -/

/-- No operator other than a connective stands in front of `not`. -/
abbrev Clear (ts : List Token) : Prop :=
  ts.IsChain fun t u => t.kind = .operator → ¬u.Is .keyword "not"

section Clear

variable {ts us : List Token} {t : Token} {e : Expr} {ℓ : Level}

theorem clear_between (left : Clear ts) (right : Clear us) (single : ¬t.Is .keyword "not")
    (next : t.kind = .operator → ∀ u ∈ us.head?, ¬u.Is .keyword "not") :
    Clear (ts ++ t :: us) := by
  have after : Clear (t :: us) :=
    List.isChain_cons.mpr ⟨fun u mem kind => next kind u mem, right⟩
  refine List.isChain_append.mpr ⟨left, after, ?_⟩
  rintro _ _ _ ⟨⟩ _
  exact single

theorem clear_of_none (none : ∀ t ∈ ts, ¬t.Is .keyword "not") : Clear ts := by
  refine List.isChain_iff_forall_rel_of_append_cons_cons.mpr ?_
  rintro t u before after rfl _
  exact none u (by simp)

theorem clear_within (h : Clear ts) (part : us <:+: ts) : Clear us := List.IsChain.infix h part

theorem not_of_kind (h : t.kind ≠ .keyword) : ¬t.Is .keyword "not" := fun negation => h negation.1

theorem clear_bracketed {opening closing : Token} (isOpening : opening.kind = .punctuation)
    (isClosing : closing.kind = .punctuation) (h : Clear ts) :
    Clear (opening :: (ts ++ [closing])) := by
  have last : ¬closing.Is .keyword "not" := not_of_kind (by simp [isClosing])
  have inside : Clear (ts ++ [closing]) := clear_between h .nil last fun _ => nofun
  exact List.isChain_cons.mpr ⟨fun _ _ kind => by simp [isOpening] at kind, inside⟩

theorem Items.none {ds : List Document} (h : Items ts ds) : ∀ t ∈ ts, ¬t.Is .keyword "not" := by
  have item {ts : List Token} {d : Document} (h : Item ts d) :
      ∀ t ∈ ts, ¬t.Is .keyword "not" := by
    cases h with
    | int kind => exact List.forall_mem_singleton.mpr (not_of_kind (by simp [kind]))
    | minus sign kind =>
      exact List.forall_mem_cons.mpr ⟨not_of_kind (by simp [sign.1]),
        List.forall_mem_singleton.mpr (not_of_kind (by simp [kind]))⟩
    | text quotes => exact List.forall_mem_singleton.mpr (not_of_kind (by simp [quotes.1]))
  induction h with
  | one h => exact item h
  | more h comma _ ih =>
    refine List.forall_mem_append.mpr ⟨item h, List.forall_mem_cons.mpr ⟨?_, ih⟩⟩
    exact not_of_kind (by simp [comma.1])

theorem not_of_writes {op : BinaryOp} (h : t.Writes op) : ¬t.Is .keyword "not" := by
  rintro ⟨-, negation⟩
  have other : ∀ op ∈ BinaryOp.all, op.symbol ≠ "not" := by decide
  exact other op op.mem_all (h.2.symm.trans negation)

theorem tight_of_writes {op : BinaryOp} (h : t.Writes op) (kind : t.kind = .operator) :
    op.IsTight := by
  rw [h.1] at kind
  cases op with
  | connective op => cases kind
  | arithmetic op => cases op <;> decide
  | comparison op => cases op <;> decide

/-- What is written at a level tighter than `not` does not start with it. -/
theorem Derives.not_not (h : Derives ℓ ts e) (tight : UnaryOp.not.level.rank < ℓ.rank) :
    ∀ u ∈ ts.head?, ¬u.Is .keyword "not" := by
  obtain ⟨t, us, rfl, leads⟩ := h.head
  rintro _ ⟨⟩ negation
  exact absurd (leads .not negation) (Nat.not_le_of_lt tight)

/-- Where tokens write an expression no tighter operator stands in front of `not`. -/
theorem Derives.clear (h : Derives ℓ ts e) : Clear ts := by
  induction h with
  | tighter _ ih => exact ih
  | @chained op _ _ _ _ _ _ writes _ right ihl ihr =>
    refine clear_between ihl ihr (not_of_writes writes) fun kind => right.not_not ?_
    exact Nat.lt_of_lt_of_le (tight_of_writes writes kind) op.level.rank_le_tighter
  | compared writes _ right ihl ihr =>
    exact clear_between ihl ihr (not_of_writes writes) fun _ => right.not_not (by decide)
  | @prefixed op t ts e leads operand ih =>
    refine List.isChain_cons.mpr ⟨fun u mem kind => ?_, ih⟩
    cases op with
    | neg => exact operand.not_not (by decide) u mem
    | not => simp [leads.1] at kind
  | parentheses opening closing _ ih => exact clear_bracketed opening.1 closing.1 ih
  | emptyList opening closing => exact clear_bracketed opening.1 closing.1 .nil
  | intList opening closing items | textList opening closing items =>
    exact clear_bracketed opening.1 closing.1 (clear_of_none items.none)
  | _ => exact List.isChain_singleton _

/-- An expression whose words are clear has no bare `not` on the right of a tighter
    operator. -/
theorem right_of_clear (h : Clear e.words) :
    Everywhere (fun op _ r => op.IsTight → ¬r.IsNegation) e := by
  induction e with
  | literal => exact everywhere_literal
  | fact => exact everywhere_fact
  | unary op e ih =>
    refine everywhere_unary.mpr (ih (clear_within h ?_))
    cases op with
    | neg => exact ⟨[word .operator "-", mark "("], [mark ")"], by simp [words]⟩
    | not => exact ⟨[word .keyword "not", mark "("], [mark ")"], by simp [words]⟩
  | binary op l r ihl ihr =>
    refine everywhere_binary.mpr
      ⟨fun tight negation => ?_, ihl (clear_within h ?_), ihr (clear_within h ?_)⟩
    · obtain ⟨x, rfl⟩ := isNegation_iff.mp negation
      have kind : op.tokenKind = .operator := by
        cases op with
        | connective op => cases op <;> exact absurd tight (by decide)
        | arithmetic | comparison => rfl
      have next : Clear [word op.tokenKind op.symbol, word .keyword "not"] := by
        refine clear_within h
          ⟨mark "(" :: l.words, mark "(" :: (x.words ++ [mark ")", mark ")"]), ?_⟩
        simp [words]
      exact List.isChain_pair.mp next kind ⟨rfl, rfl⟩
    · exact ⟨[mark "("], word op.tokenKind op.symbol :: r.words ++ [mark ")"], by simp [words]⟩
    · exact ⟨mark "(" :: (l.words ++ [word op.tokenKind op.symbol]), [mark ")"], by simp [words]⟩

end Clear

/-! ## Expressions that are read -/

/-- An expression is what its text is read as unless a bare `not` stands on the left of
    a tighter operator. -/
theorem reread_eq_iff {e : Expr} :
    e.reread = e ↔ Everywhere (fun op l _ => op.IsTight → ¬l.IsNegation) e := by
  fun_induction reread e with
  | case1 op x r tight _ _ =>
    refine iff_of_false nofun fun h => ?_
    exact (everywhere_binary.mp h).1 tight trivial
  | case2 op x r loose ihx ihr =>
    simp [everywhere_binary, everywhere_unary, loose, ihx, ihr]
  | case3 op l r noNegation ihl ihr =>
    simp [everywhere_binary, not_isNegation noNegation, ihl, ihr]
  | case4 op e ih => simp [everywhere_unary, ih]
  | case5 e _ noBinary noUnary =>
    refine iff_of_true rfl ?_
    cases e with
    | literal => exact everywhere_literal
    | fact => exact everywhere_fact
    | unary op e => exact (noUnary op e rfl).elim
    | binary op l r => exact (noBinary op l r rfl).elim

theorem unmixed_iff {e : Expr} : e.Unmixed ↔
    Everywhere (fun op _ r => op.IsTight → ¬r.IsNegation) e ∧
      Everywhere (fun op l _ => op.IsTight → ¬l.IsNegation) e := by
  constructor
  · intro h
    exact ⟨fun op l r mem tight => (h op l r mem tight).2,
      fun op l r mem tight => (h op l r mem tight).1⟩
  · rintro ⟨right, left⟩ op l r mem tight
    exact ⟨left op l r mem tight, right op l r mem tight⟩

end Expr

/-- An integer, a truth value or a list of integers; the empty list of a source is one
    of texts. -/
def Fact.IsSimple (v : Fact) : Prop :=
  v.kind = .int ∨ v.kind = .bool ∨ v.kind = .intList ∨ v = .stringList []

namespace Expr

/-- A token that a slice becomes. -/
def IsFair (t : Token) : Prop := ∃ slice, Becomes slice t.kind t.text

theorem IsFair.slice {t : Token} (fair : IsFair t) (other : t.kind ≠ .keyword) :
    Slice t.kind t.text.toList := by
  obtain ⟨slice, becomes⟩ := fair
  obtain ⟨text, sliced⟩ := becomes.sliced other
  rwa [text, String.toList_ofList]

theorem name_of_reference {t : Token} (fair : IsFair t) (kind : t.kind = .reference) :
    IsName (t.text.toList.drop 1) := by
  have sliced := fair.slice (by simp [kind])
  generalize t.text.toList = text at sliced
  rw [kind] at sliced
  cases sliced with
  | reference named => exact named

theorem name_of_word {t : Token} (fair : IsFair t) (kind : t.kind = .word) :
    IsName t.text.toList := by
  have sliced := fair.slice (by simp [kind])
  rw [kind] at sliced
  cases sliced with
  | word named => exact named

/-- The literals of an expression that is read are legible if they are simple, and its
    references are names. -/
theorem Derives.legible {ℓ : Level} {ts : List Token} {e : Expr} (h : Derives ℓ ts e)
    (fair : ∀ t ∈ ts, IsFair t) (simple : ∀ v, literal v ∈ e.parts → v.IsSimple) :
    e.IsLegible := by
  have inside {op : BinaryOp} {l r : Expr}
      (simple : ∀ v, literal v ∈ (binary op l r).parts → v.IsSimple) :
      (∀ v, literal v ∈ l.parts → v.IsSimple) ∧ ∀ v, literal v ∈ r.parts → v.IsSimple :=
    ⟨fun v mem => simple v (List.mem_cons_of_mem _ (List.mem_append_left _ mem)),
      fun v mem => simple v (List.mem_cons_of_mem _ (List.mem_append_right _ mem))⟩
  induction h with
  | tighter _ ih => exact ih fair simple
  | chained _ _ _ _ ihl ihr | compared _ _ _ ihl ihr =>
    obtain ⟨left, right⟩ := List.forall_mem_append.mp fair
    exact ⟨ihl left (inside simple).1, ihr (List.forall_mem_cons.mp right).2 (inside simple).2⟩
  | prefixed _ _ ih =>
    exact ih (List.forall_mem_cons.mp fair).2 fun v mem => simple v (List.mem_cons_of_mem _ mem)
  | parentheses _ _ _ ih =>
    obtain ⟨-, rest⟩ := List.forall_mem_cons.mp fair
    exact ih (List.forall_mem_append.mp rest).1 simple
  | int => exact Int.natCast_nonneg _
  | true | false => exact trivial
  | reference kind =>
    refine ⟨_, rfl, ?_⟩
    rw [String.toList_ofList]
    exact name_of_reference (fair _ (List.mem_cons_self ..)) kind
  | word kind => exact ⟨_, rfl, name_of_word (fair _ (List.mem_cons_self ..)) kind⟩
  | emptyList => exact rfl
  | intList _ _ items =>
    rintro rfl
    exact items.nonempty rfl
  | @textList _ _ _ ss _ _ items =>
    have single := simple (.stringList ss) (List.mem_cons_self ..)
    simpa [Fact.IsSimple, Fact.kind, IsLegible, Fact.IsLegible] using single
  | float =>
    have single := simple _ (List.mem_cons_self ..)
    simp [Fact.IsSimple, Fact.kind] at single
  | text =>
    have single := simple _ (List.mem_cons_self ..)
    simp [Fact.IsSimple, Fact.kind] at single

/-! ## The text read again -/

theorem Agree.iff {α : Type} {meets : Nat → Nat → Prop} {x y : Except Failure α}
    (h : Agree meets Eq x y) (a : α) : x = .ok a ↔ y = .ok a := by
  cases h with
  | ok same => rw [same]
  | refused => exact iff_of_false nofun nofun

theorem parse_eq_ok {source : String} {ts : Tokens} (h : Tokens.ofSource source = .ok ts)
    (e : Expr) : parse source = .ok e ↔ ofTokens ts.body = .ok e := by
  rw [parse_of_ofSource h]
  cases ofTokens ts.body with
  | ok => simp [Except.mapError]
  | error => exact iff_of_false nofun nofun

/-- Where the tokens of a source were seen the expression is read from them. -/
theorem parse_of_seen {source : String} {ts : Tokens} {e : Expr}
    (seen : (Tokens.ofSource source).toOption.map id = some ts)
    (read : ofTokens ts.body = .ok e) : parse source = .ok e := by
  obtain ⟨_, scanned, rfl⟩ := exists_of_map_toOption seen
  exact (parse_eq_ok scanned e).mpr read

/-- What the text of a legible expression is read as is what its words write. -/
theorem parse_text {e : Expr} (legible : e.IsLegible) (e' : Expr) :
    parse e.text = .ok e' ↔ Derives .disjunction e.words e' := by
  obtain ⟨ts, like, scanned⟩ := scans_words legible 0 [] [] nofun (Token.scan_nil _)
  have found : Tokens.ofSource e.text = .ok ⟨ts, e.text.toList.length⟩ := by
    rw [List.append_nil, List.append_nil] at scanned
    rw [Tokens.ofSource, Tokens.ofChars, scanned]
    rfl
  rw [parse_eq_ok found, (agree_ofTokens like).iff, (ofTokens_exact e.words).1]

/-- What is read of a source is legible where its literals are simple. -/
theorem legible_of_parse {source : String} {e : Expr} (h : parse source = .ok e)
    (simple : ∀ v, literal v ∈ e.parts → v.IsSimple) : e.IsLegible := by
  cases found : Tokens.ofSource source with
  | error fault =>
    rw [parse, found] at h
    cases h
  | ok ts =>
    obtain ⟨-, cuts, laid, body⟩ := Tokens.layout_ofSource found
    have derived := (ofTokens_exact ts.body).1 e |>.mp ((parse_eq_ok found e).mp h)
    refine derived.legible ?_ simple
    rw [← body]
    exact List.forall_mem_map.mpr fun cut mem => ⟨_, laid.becomes cut mem⟩

/-- The text of an expression that was read gives it back exactly if no negation stands
    next to an operator that is tighter. -/
theorem parse_text_iff {source : String} {e : Expr} (h : parse source = .ok e)
    (simple : ∀ v, literal v ∈ e.parts → v.IsSimple) : parse e.text = .ok e ↔ e.Unmixed := by
  have legible := legible_of_parse h simple
  rw [parse_text legible, unmixed_iff]
  constructor
  · intro derived
    have right := right_of_clear derived.clear
    have again := (derives_words legible right).1.ofNegation
    exact ⟨right, reread_eq_iff.mp ((ofTokens_exact e.words).2.1 _ _ again derived)⟩
  · rintro ⟨right, left⟩
    have again := (derives_words legible right).1.ofNegation
    rwa [reread_eq_iff.mpr left] at again

namespace Tavern

/-- Guests are served who are not late and whose tab is not deep in the red. -/
def served : Expr :=
  .binary (.connective .and) (.unary .not (.fact (.name "late")))
    (.binary (.comparison .lt)
      (.binary (.arithmetic .mul) (.fact (.name "tab")) (.unary .neg (.literal (.int 2))))
      (.literal (.int 5)))

/-- The text of the rule gives it back: the negation in it stands next to `and`. -/
theorem served_restored :
    parse "not late and tab * -2 < 5" = .ok served ∧
      (∀ v, literal v ∈ served.parts → v.IsSimple) ∧ served.Unmixed ∧
      served.text = "(not ($late) and (($tab * -(2)) < 5))" ∧ parse served.text = .ok served := by
  have seen : (Tokens.ofSource "not late and tab * -2 < 5").toOption.map id =
      some ⟨[⟨.keyword, "not", 0⟩, ⟨.word, "late", 4⟩, ⟨.keyword, "and", 9⟩, ⟨.word, "tab", 13⟩,
        ⟨.operator, "*", 17⟩, ⟨.operator, "-", 19⟩, ⟨.int, "2", 20⟩, ⟨.operator, "<", 22⟩,
        ⟨.int, "5", 24⟩], 25⟩ := by decide +kernel
  have read : parse "not late and tab * -2 < 5" = .ok served := parse_of_seen seen rfl
  have simple : ∀ v, literal v ∈ served.parts → v.IsSimple := by
    simp [served, parts, Fact.IsSimple, Fact.kind]
  have unmixed : served.Unmixed := by
    simp [Unmixed, served, everywhere_unary, everywhere_binary, everywhere_literal,
      everywhere_fact, IsNegation, BinaryOp.IsTight, BinaryOp.level, UnaryOp.level, Level.rank]
  exact ⟨read, simple, unmixed, rfl, (parse_text_iff read simple).mpr unmixed⟩

/-- A negation on the right of a comparison is printed as what is refused, and one on
    the left as the negation of the whole comparison. -/
theorem closed_misprinted :
    ∃ right left : Expr, (∀ e ∈ [right, left], ∀ v, literal v ∈ e.parts → v.IsSimple) ∧
      parse "closed == (not late)" = .ok right ∧ right.text = "($closed == not ($late))" ∧
      parse right.text = .error (.malformed (.unexpected .value (some "not"))
        (.str right.text) 12) ∧
      parse "(not late) == closed" = .ok left ∧ left.text = "(not ($late) == $closed)" ∧
      ∃ other, parse left.text = .ok other ∧ other ≠ left := by
  have onTheRight : (Tokens.ofSource "closed == (not late)").toOption.map id =
      some ⟨[⟨.word, "closed", 0⟩, ⟨.operator, "==", 7⟩, ⟨.punctuation, "(", 10⟩,
        ⟨.keyword, "not", 11⟩, ⟨.word, "late", 15⟩, ⟨.punctuation, ")", 19⟩], 20⟩ := by
    decide +kernel
  have refused : (Tokens.ofSource "($closed == not ($late))").toOption.map id =
      some ⟨[⟨.punctuation, "(", 0⟩, ⟨.reference, "$closed", 1⟩, ⟨.operator, "==", 9⟩,
        ⟨.keyword, "not", 12⟩, ⟨.punctuation, "(", 16⟩, ⟨.reference, "$late", 17⟩,
        ⟨.punctuation, ")", 22⟩, ⟨.punctuation, ")", 23⟩], 24⟩ := by
    decide +kernel
  have onTheLeft : (Tokens.ofSource "(not late) == closed").toOption.map id =
      some ⟨[⟨.punctuation, "(", 0⟩, ⟨.keyword, "not", 1⟩, ⟨.word, "late", 5⟩,
        ⟨.punctuation, ")", 9⟩, ⟨.operator, "==", 11⟩, ⟨.word, "closed", 14⟩], 20⟩ := by
    decide +kernel
  have regrouped : (Tokens.ofSource "(not ($late) == $closed)").toOption.map id =
      some ⟨[⟨.punctuation, "(", 0⟩, ⟨.keyword, "not", 1⟩, ⟨.punctuation, "(", 5⟩,
        ⟨.reference, "$late", 6⟩, ⟨.punctuation, ")", 11⟩, ⟨.operator, "==", 13⟩,
        ⟨.reference, "$closed", 16⟩, ⟨.punctuation, ")", 23⟩], 24⟩ := by
    decide +kernel
  refine ⟨.binary (.comparison .eq) (.fact (.name "closed")) (.unary .not (.fact (.name "late"))),
    .binary (.comparison .eq) (.unary .not (.fact (.name "late"))) (.fact (.name "closed")),
    by simp [parts], parse_of_seen onTheRight rfl, rfl, ?_, parse_of_seen onTheLeft rfl, rfl, _,
    parse_of_seen regrouped rfl, nofun⟩
  obtain ⟨_, scanned, rfl⟩ := exists_of_map_toOption refused
  exact parse_of_ofSource scanned

end Tavern

end Expr

end Cascade
