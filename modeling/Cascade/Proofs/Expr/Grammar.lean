-- SUMMARY: The grammar of expressions over tokens, level by level, with the readers of quoted texts and of operators as the grammar has them.
import Mathlib.Data.List.Basic
import Cascade.Expr.Parse
import Cascade.Proofs.Fact.Reading
import Cascade.Proofs.Outcome

/-! # The grammar of expressions

The grammar says which sequences of tokens write which expressions. It has one
level for each level of precedence. A binary operator of a level takes an
operand of its own level on the left and a tighter one on the right, so it
groups to the left; a unary one takes an operand of its own level, so it may be
repeated; a comparison takes tighter operands on both sides, so it does not
chain.

The grammar knows nothing of readers: its rules are tried in no order, and no
token is looked at before it is taken. At the bottom the two agree at once:
what is read between quotes is what is spelled there, and an operator is looked
up at its own level only. -/

namespace Cascade

/-! ## Tokens -/

/-- A token is of a class and has a text. -/
def Token.Is (t : Token) (kind : TokenKind) (text : String) : Prop :=
  t.kind = kind ∧ t.text = text

def BinaryOp.tokenKind : BinaryOp → TokenKind
  | connective _ => .keyword
  | _ => .operator

/-- A token writes a binary operator. -/
def Token.Writes (t : Token) (op : BinaryOp) : Prop := t.Is op.tokenKind op.symbol

/-- A token writes a unary operator. -/
def Token.Leads (t : Token) : UnaryOp → Prop
  | .neg => t.Is .operator "-"
  | .not => t.Is .keyword "not"

namespace Expr

/-- The characters that may stand after a backslash, with those that they stand
    for there. -/
def escapes : List (Char × Char) :=
  [('n', '\n'), ('t', '\t'), ('\\', '\\'), ('"', '"'), ('\'', '\'')]

/-- What the characters between two quotes spell: a backslash and the character
    after it are an escape, every other character is itself. -/
inductive Spells : List Char → List Char → Prop
  | nil : Spells [] []
  | plain {c : Char} {cs s : List Char} : c ≠ '\\' → Spells cs s → Spells (c :: cs) (c :: s)
  | escape {c d : Char} {cs s : List Char} :
      (c, d) ∈ escapes → Spells cs s → Spells ('\\' :: c :: cs) (d :: s)

end Expr

/-- A token quotes a text: what stands between its quotes spells it. -/
def Token.Quotes (t : Token) (s : String) : Prop :=
  t.kind = .string ∧ Expr.Spells (t.text.toList.drop 1).dropLast s.toList

/-! ## Levels -/

/-- The levels of precedence, the loosest first. -/
inductive Expr.Level where
  | disjunction | conjunction | negation | comparison | sum | product | sign | primary
  deriving DecidableEq, Repr

namespace Expr.Level

/-- The next tighter level; there is none beyond that of primaries. -/
def tighter : Level → Level
  | disjunction => conjunction
  | conjunction => negation
  | negation => comparison
  | comparison => sum
  | sum => product
  | product => sign
  | sign | primary => primary

/-- How tight a level is. -/
def rank : Level → Nat
  | disjunction => 0
  | conjunction => 1
  | negation => 2
  | comparison => 3
  | sum => 4
  | product => 5
  | sign => 6
  | primary => 7

/-- Whether the operators of a level may follow each other. -/
def chains : Level → Bool
  | disjunction | conjunction | sum | product => true
  | negation | comparison | sign | primary => false

end Expr.Level

def BinaryOp.level : BinaryOp → Expr.Level
  | connective .or => .disjunction
  | connective .and => .conjunction
  | comparison _ => .comparison
  | arithmetic .add | arithmetic .sub => .sum
  | arithmetic .mul | arithmetic .div | arithmetic .mod => .product

def UnaryOp.level : UnaryOp → Expr.Level
  | not => .negation
  | neg => .sign

/-! ## Derivations -/

namespace Expr

inductive Item : List Token → Document → Prop
  | int {t : Token} : t.kind = .int → Item [t] (.int (Reader.integer t))
  | minus {sign t : Token} :
      sign.Is .operator "-" → t.kind = .int → Item [sign, t] (.int (-(Reader.integer t)))
  | text {t : Token} {s : String} : t.Quotes s → Item [t] (.str s)

/-- The items of a list, one at least, with commas between them. -/
inductive Items : List Token → List Document → Prop
  | one {ts : List Token} {d : Document} : Item ts d → Items ts [d]
  | more {ts us : List Token} {comma : Token} {d : Document} {ds : List Document} :
      Item ts d → comma.Is .punctuation "," → Items us ds → Items (ts ++ comma :: us) (d :: ds)

/-- A sequence of tokens writes an expression of a level. -/
inductive Derives : Level → List Token → Expr → Prop
  | tighter {ℓ : Level} {ts : List Token} {e : Expr} : Derives ℓ.tighter ts e → Derives ℓ ts e
  | chained {op : BinaryOp} {t : Token} {ts us : List Token} {l r : Expr} :
      op.level.chains → t.Writes op → Derives op.level ts l → Derives op.level.tighter us r →
      Derives op.level (ts ++ t :: us) (binary op l r)
  | compared {op : Comparison} {t : Token} {ts us : List Token} {l r : Expr} :
      t.Writes (.comparison op) → Derives .sum ts l → Derives .sum us r →
      Derives .comparison (ts ++ t :: us) (binary (.comparison op) l r)
  | prefixed {op : UnaryOp} {t : Token} {ts : List Token} {e : Expr} :
      t.Leads op → Derives op.level ts e → Derives op.level (t :: ts) (unary op e)
  | int {t : Token} : t.kind = .int → Derives .primary [t] (literal (.int (Reader.integer t)))
  | float {t : Token} : t.kind = .float → Derives .primary [t] (literal (.float (Reader.real t)))
  | text {t : Token} {s : String} : t.Quotes s → Derives .primary [t] (literal (.string s))
  | true {t : Token} : t.Is .keyword "true" → Derives .primary [t] (literal (.bool .true))
  | false {t : Token} : t.Is .keyword "false" → Derives .primary [t] (literal (.bool .false))
  | reference {t : Token} :
      t.kind = .reference → Derives .primary [t] (fact (String.ofList (t.text.toList.drop 1)))
  | word {t : Token} : t.kind = .word → Derives .primary [t] (fact t.text)
  | parentheses {opening closing : Token} {ts : List Token} {e : Expr} :
      opening.Is .punctuation "(" → closing.Is .punctuation ")" → Derives .disjunction ts e →
      Derives .primary (opening :: (ts ++ [closing])) e
  | emptyList {opening closing : Token} :
      opening.Is .punctuation "[" → closing.Is .punctuation "]" →
      Derives .primary [opening, closing] (literal (.stringList []))
  | intList {opening closing : Token} {ts : List Token} {ns : List Int} :
      opening.Is .punctuation "[" → closing.Is .punctuation "]" → Items ts (ns.map .int) →
      Derives .primary (opening :: (ts ++ [closing])) (literal (.intList ns))
  | textList {opening closing : Token} {ts : List Token} {ss : List String} :
      opening.Is .punctuation "[" → closing.Is .punctuation "]" → Items ts (ss.map .str) →
      Derives .primary (opening :: (ts ++ [closing])) (literal (.stringList ss))

/-! ## Tokens and texts as they are read -/

namespace Reader

theorem isToken_iff {kind : TokenKind} {text : String} {t : Token} :
    isToken kind text t ↔ t.Is kind text := by
  unfold isToken Token.Is
  simp

theorem afterMark_eq_ok {mark : String} {ts rest : List Token} :
    afterMark mark ts = .ok rest ↔ ∃ t, t.Is .punctuation mark ∧ ts = t :: rest := by
  cases ts with
  | nil => simp [afterMark]
  | cons t ts =>
    unfold afterMark
    by_cases h : isToken .punctuation mark t
    · simp [h, isToken_iff.mp h]
    · simp [h, mt isToken_iff.mpr h]

theorem escape?_eq_some {c d : Char} : escape? c = some d ↔ (c, d) ∈ escapes := by
  unfold escape? escapes
  split <;> simp_all [eq_comm]

/-- What is read of the characters between two quotes is what they spell. -/
theorem spells_unescape (position : Nat) (cs : List Char) :
    Yields (unescape position cs) (Spells cs) := by
  fun_induction unescape position cs with
  | case1 => exact .ok .nil
  | case2 => exact .error _
  | case3 position c cs d hd ih =>
    exact ih.bind fun s hs => .ok (.escape (escape?_eq_some.mp hd) hs)
  | case4 => exact .error _
  | case5 position c cs lone escape ih =>
    have plain : c ≠ '\\' := by
      intro hc
      cases cs with
      | nil => exact lone hc rfl
      | cons d cs => exact escape d cs hc rfl
    exact ih.bind fun s hs => .ok (.plain plain hs)

theorem unescape_of_spells {cs s : List Char} (h : Spells cs s) (position : Nat) :
    unescape position cs = .ok s := by
  induction h generalizing position with
  | nil => rfl
  | plain hc _ ih =>
    rw [unescape, ih]
    · rfl
    · exact fun h _ => hc h
    · exact fun _ _ h _ => hc h
  | escape hd _ ih =>
    rw [unescape, escape?_eq_some.mpr hd]
    dsimp only
    rw [ih]
    rfl

theorem unquoted_eq_ok {t : Token} (ht : t.kind = .string) {s : String} :
    unquoted t = .ok s ↔ t.Quotes s := by
  unfold unquoted
  dsimp only
  constructor
  · refine (spells_unescape _ _).bind (fun cs spelled => .ok ⟨ht, ?_⟩) s
    simpa using spelled
  · rintro ⟨-, spelled⟩
    rw [unescape_of_spells spelled]
    exact congrArg Except.ok String.ofList_toList

end Reader

end Expr

/-! ## Operators as they are read -/

namespace BinaryOp

/-- An operator is found by its symbol, so no two have the same one. -/
theorem find?_symbol (op : BinaryOp) : all.find? (·.symbol = op.symbol) = some op := by
  cases op with
  | arithmetic op => cases op <;> decide
  | comparison op => cases op <;> decide
  | connective op => cases op <;> decide

theorem mem_all (op : BinaryOp) : op ∈ all := List.mem_of_find?_eq_some (find?_symbol op)

theorem symbol_injective : Function.Injective symbol := by
  intro op op' h
  have same := find?_symbol op
  rw [h, find?_symbol op'] at same
  exact (Option.some.inj same).symm

theorem find?_eq_some {ops : List BinaryOp} {text : String} {op : BinaryOp} :
    ops.find? (·.symbol = text) = some op ↔ op ∈ ops ∧ op.symbol = text := by
  constructor
  · intro h
    exact ⟨List.mem_of_find?_eq_some h, by simpa using List.find?_some h⟩
  · rintro ⟨mem, rfl⟩
    cases found : ops.find? (·.symbol = op.symbol) with
    | none => simpa using List.find?_eq_none.mp found op mem
    | some op' =>
      have same : op'.symbol = op.symbol := by simpa using List.find?_some found
      rw [symbol_injective same]

end BinaryOp

namespace Expr

namespace Reader

theorem connective?_eq_some {c : Connective} {t : Token} {op : BinaryOp} :
    connective? c t = some op ↔ .connective c = op ∧ t.Writes op := by
  have symbol : (BinaryOp.connective c).symbol = c.name := by cases c <;> rfl
  have written : t.Writes (.connective c) ↔ isToken .keyword c.name t := by
    rw [isToken_iff, ← symbol]
    rfl
  unfold connective?
  by_cases h : isToken .keyword c.name t
  · rw [if_pos h]
    constructor
    · intro found
      cases found
      exact ⟨rfl, written.mpr h⟩
    · rintro ⟨rfl, -⟩
      rfl
  · rw [if_neg h]
    refine ⟨nofun, ?_⟩
    rintro ⟨rfl, writes⟩
    exact absurd (written.mp writes) h

/-- Operators that are looked up by their symbols. -/
theorem operatorIn_eq_some {ops : List BinaryOp} (operators : ∀ op ∈ ops, op.tokenKind = .operator)
    {t : Token} {op : BinaryOp} :
    (if t.kind = .operator then ops.find? (·.symbol = t.text) else none) = some op ↔
      op ∈ ops ∧ t.Writes op := by
  by_cases ht : t.kind = .operator
  · rw [if_pos ht, BinaryOp.find?_eq_some]
    refine and_congr_right fun mem => ?_
    unfold Token.Writes Token.Is
    rw [operators op mem, ht, eq_comm]
    simp
  · rw [if_neg ht]
    refine ⟨nofun, fun ⟨mem, kind, _⟩ => ?_⟩
    exact absurd (kind.trans (operators op mem)) ht

theorem arithmetic?_eq_some {among : List Arithmetic} {t : Token} {op : BinaryOp} :
    arithmetic? among t = some op ↔ op ∈ among.map .arithmetic ∧ t.Writes op := by
  refine operatorIn_eq_some fun op mem => ?_
  obtain ⟨a, -, rfl⟩ := List.mem_map.mp mem
  rfl

theorem comparison?_eq_some {t : Token} {op : BinaryOp} :
    comparison? t = some op ↔ op ∈ Comparison.all.map .comparison ∧ t.Writes op := by
  refine operatorIn_eq_some fun op mem => ?_
  obtain ⟨c, -, rfl⟩ := List.mem_map.mp mem
  rfl

end Reader

namespace Level

/-- The operators of a level, as they are looked for. -/
def operator? : Level → Token → Option BinaryOp
  | disjunction => Reader.connective? .or
  | conjunction => Reader.connective? .and
  | comparison => Reader.comparison?
  | sum => Reader.arithmetic? [.add, .sub]
  | product => Reader.arithmetic? [.mul, .div, .mod]
  | negation | sign | primary => fun _ => none

theorem operator?_eq_some {ℓ : Level} {t : Token} {op : BinaryOp} :
    ℓ.operator? t = some op ↔ op.level = ℓ ∧ t.Writes op := by
  have mem := op.mem_all
  cases ℓ with
  | disjunction =>
    have level : ∀ op ∈ BinaryOp.all, .connective .or = op ↔ op.level = disjunction := by decide
    exact Reader.connective?_eq_some.trans (and_congr_left' (level op mem))
  | conjunction =>
    have level : ∀ op ∈ BinaryOp.all, .connective .and = op ↔ op.level = conjunction := by decide
    exact Reader.connective?_eq_some.trans (and_congr_left' (level op mem))
  | comparison =>
    have level : ∀ op ∈ BinaryOp.all,
        op ∈ Comparison.all.map .comparison ↔ op.level = comparison := by decide
    exact Reader.comparison?_eq_some.trans (and_congr_left' (level op mem))
  | sum =>
    have level : ∀ op ∈ BinaryOp.all,
        op ∈ [Arithmetic.add, .sub].map .arithmetic ↔ op.level = sum := by decide
    exact Reader.arithmetic?_eq_some.trans (and_congr_left' (level op mem))
  | product =>
    have level : ∀ op ∈ BinaryOp.all,
        op ∈ [Arithmetic.mul, .div, .mod].map .arithmetic ↔ op.level = product := by decide
    exact Reader.arithmetic?_eq_some.trans (and_congr_left' (level op mem))
  | negation | sign | primary =>
    have level : ∀ op ∈ BinaryOp.all,
        op.level ≠ negation ∧ op.level ≠ sign ∧ op.level ≠ primary := by
      decide
    simp [operator?, level op mem]

end Level

end Expr

end Cascade
