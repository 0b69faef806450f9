-- SUMMARY: The text of an expression is cut into the tokens that are expected of it: brackets around operands, operators between them, and literals and references.
import Cascade.Proofs.Expr.Grammar
import Cascade.Proofs.Expr.References
import Cascade.Proofs.Expr.Spacing

/-! # The words of an expression

What the text of an expression is meant to be read as is a sequence of tokens, its
**words**. The text has blanks and brackets where two words could run together, so
cut into tokens it gives the words back. This needs literals and names that can be
told apart from each other in a source: no negative number outside of a list, and
references that are names. -/

namespace Cascade

open Lexeme (Apart separates)

namespace Token

/-- A token that stands anywhere. -/
def word (kind : TokenKind) (text : String) : Token := ⟨kind, text, 0⟩

/-- A bracket, a brace or a comma. -/
def mark (text : String) : Token := word .punctuation text

/-- Tokens of one class with one text, wherever they stand. -/
abbrev Like : Token → Token → Prop := Expr.Displaced fun _ _ => True

theorem like_word (kind : TokenKind) (text : String) (position : Nat) :
    Like ⟨kind, text, position⟩ (word kind text) :=
  ⟨rfl, rfl, trivial, fun _ _ _ => trivial⟩

/-- A text is cut into tokens like some words, wherever it stands, if what follows
    stands apart from it. -/
def Scans (cs : List Char) (words : List Token) : Prop :=
  ∀ position rest more, Apart rest → scan (position + cs.length) rest = .ok more →
    ∃ ts, List.Forall₂ Like ts words ∧ scan position (cs ++ rest) = .ok (ts ++ more)

namespace Scans

variable {cs ds : List Char} {words others : List Token}

theorem nil : Scans [] [] := fun _ _ _ _ scanned => ⟨[], .nil, scanned⟩

theorem slice {kind : TokenKind} {text : String} (becomes : Becomes cs kind text) :
    Scans cs [word kind text] := by
  intro position rest more apart scanned
  refine ⟨[⟨kind, text, position⟩], .cons (like_word ..) .nil, ?_⟩
  rw [scan_slice becomes apart, scanned]
  rfl

/-- One text after another, with a blank or a mark in front of the second one. -/
theorem append (h : Scans cs words) (h' : Scans ds others)
    (first : ∃ c rest, ds = c :: rest ∧ separates c) : Scans (cs ++ ds) (words ++ others) := by
  intro position rest more apart scanned
  rw [List.length_append, ← Nat.add_assoc] at scanned
  obtain ⟨us, like', scanned⟩ := h' _ _ _ apart scanned
  have between : Apart (ds ++ rest) := by
    obtain ⟨c, ds, rfl, separate⟩ := first
    rintro _ ⟨⟩
    exact separate
  obtain ⟨ts, like, scanned⟩ := h _ _ _ between scanned
  refine ⟨ts ++ us, List.rel_append like like', ?_⟩
  rw [List.append_assoc, List.append_assoc, scanned]

/-- What is found by its first character whatever follows. -/
theorem found {c : Char} {kind : TokenKind} {text : String}
    (found : ∀ cs, Lexeme.first? c cs = some ⟨some kind, 0⟩)
    (same : ∀ position, ofSlice kind (String.ofList [c]) position = ⟨kind, text, position⟩)
    (h : Scans cs words) : Scans (c :: cs) (word kind text :: words) := by
  intro position rest more apart scanned
  rw [List.length_cons, Nat.add_comm cs.length, ← Nat.add_assoc] at scanned
  obtain ⟨ts, like, scanned⟩ := h _ _ _ apart scanned
  refine ⟨⟨kind, text, position⟩ :: ts, .cons (like_word ..) like, ?_⟩
  rw [List.cons_append, scan, found]
  simp only [List.drop_zero, List.take_zero, Nat.add_zero, scanned, same]
  rfl

theorem mark {c : Char} (mem : c ∈ "()[],".toList) (h : Scans cs words) :
    Scans (c :: cs) (.mark (String.ofList [c]) :: words) :=
  h.found (Lexeme.first?_of_mark mem) fun _ => rfl

theorem minus (h : Scans cs words) : Scans ('-' :: cs) (word .operator "-" :: words) := by
  refine h.found (fun cs => ?_) fun _ => rfl
  have single : Lexeme.isSingle '-' := by decide
  have pair : Lexeme.isPair '-' = fun _ => false := by
    funext d
    simp [Lexeme.isPair]
  rw [Lexeme.first?_of_operator (by decide), Lexeme.operator?, pair]
  simp [single]

theorem blank (h : Scans cs words) : Scans (' ' :: cs) words := by
  intro position rest more apart scanned
  rw [List.length_cons, Nat.add_comm cs.length, ← Nat.add_assoc] at scanned
  obtain ⟨ts, like, scanned⟩ := h _ _ _ apart scanned
  refine ⟨ts, like, ?_⟩
  rw [List.cons_append, scan_blank (by decide), scanned]

/-- A text in parentheses. -/
theorem bracketed (h : Scans cs words) :
    Scans ('(' :: (cs ++ [')'])) (.mark "(" :: (words ++ [.mark ")"])) :=
  (h.append (nil.mark (by decide)) ⟨')', [], rfl, by decide⟩).mark (by decide)

end Scans

end Token

/-! ## Literals -/

open Token (word Scans)

/-- The words of a number, which has its sign apart. -/
def Fact.numberWords (n : Int) : List Token :=
  let digits := word .int (toString n.natAbs)
  if n < 0 then [word .operator "-", digits] else [digits]

/-- The words of the items of a list, with commas between them. -/
def Fact.itemWords : List Int → List Token
  | [] => []
  | [n] => numberWords n
  | n :: ns => numberWords n ++ .mark "," :: itemWords ns

/-- The words of a fact that can be written. -/
def Fact.words : Fact → List Token
  | int n => numberWords n
  | bool b => [word .keyword (if b then "true" else "false")]
  | intList ns => .mark "[" :: (itemWords ns ++ [.mark "]"])
  | _ => [.mark "[", .mark "]"]

/-- The facts that the literals of a source may stand for, among integers, truth values
    and lists of integers; the empty list is one of texts. -/
def Fact.IsLegible : Fact → Prop
  | int n => 0 ≤ n
  | bool _ => True
  | intList ns => ns ≠ []
  | stringList ss => ss = []
  | _ => False

namespace Fact

/-- The value of an ASCII digit. -/
theorem digitValue?_of_ascii {c : Char} (h : c.isDigit) :
    Text.digitValue? c = some (c.toNat - '0'.toNat) := by
  simp only [Char.isDigit, Bool.and_eq_true, decide_eq_true_eq, ge_iff_le, UInt32.le_iff_toNat_le,
    Char.toNat_val] at h
  have low : 48 ≤ c.toNat := h.1
  have high : c.toNat ≤ 57 := h.2
  obtain ⟨others, table⟩ : ∃ others, Text.zeroDigits = 0x0030 :: others := ⟨_, rfl⟩
  have found : (Text.zeroDigits.find? fun first => first ≤ c.toNat && c.toNat < first + 10)
      = some 0x0030 := by
    rw [table]
    refine List.find?_cons_of_pos ?_
    simp only [Bool.and_eq_true, decide_eq_true_eq]
    omega
  unfold Text.digitValue?
  dsimp only
  rw [found]
  rfl

theorem isDigit_of_ascii {c : Char} (h : c.isDigit) : Text.isDigit c := by
  rw [Text.isDigit, digitValue?_of_ascii h]
  rfl

theorem toList_toString (n : Nat) : (toString n).toList = Nat.toDigits 10 n := by
  rw [Nat.toString_eq_repr, Nat.toList_repr]

theorem ascii_of_mem {n : Nat} {c : Char} (h : c ∈ Nat.toDigits 10 n) : c.isDigit :=
  Nat.isDigit_of_mem_toDigits (by decide) (by decide) h

/-- The digits of a number have it as their value. -/
theorem digitsValue_toString (n : Nat) : Text.digitsValue (toString n).toList = n := by
  have same (start : Nat) (cs : List Char) (ascii : ∀ c ∈ cs, c.isDigit) :
      cs.foldl (fun n c => 10 * n + (Text.digitValue? c).getD 0) start
        = Nat.ofDigitChars 10 cs start := by
    induction cs generalizing start with
    | nil => rfl
    | cons c cs ih =>
      obtain ⟨first, others⟩ := List.forall_mem_cons.mp ascii
      rw [List.foldl_cons, digitValue?_of_ascii first, ih _ others]
      rfl
  rw [toList_toString, Text.digitsValue, same _ _ fun _ => ascii_of_mem,
    Nat.ofDigitChars_toDigits (by decide) (by decide)]

theorem slice_toString (n : Nat) : Slice .int (toString n).toList := by
  refine .int (Lexeme.writesInteger_iff.mpr ?_)
  rw [toList_toString]
  exact ⟨Nat.toDigits_ne_nil, fun c mem => isDigit_of_ascii (ascii_of_mem mem)⟩

theorem scans_digits (n : Nat) : Scans (toString n).toList [word .int (toString n)] :=
  .slice (.of_text (slice_toString n) nofun nofun)

theorem scans_number (n : Int) : Scans (integerText n).toList (numberWords n) := by
  unfold integerText numberWords
  dsimp only
  split
  · rw [String.toList_append]
    exact (scans_digits _).minus
  · exact scans_digits _

theorem scans_items (ns : List Int) :
    Scans (", ".intercalate (Document.literals (ns.map .int))).toList (itemWords ns) := by
  induction ns with
  | nil => exact .nil
  | cons n ns ih =>
    cases ns with
    | nil => exact scans_number n
    | cons m ns =>
      simp only [List.map_cons, Document.literals, String.intercalate_cons_cons,
        String.toList_append, List.append_assoc] at ih ⊢
      exact (scans_number n).append ((Scans.blank ih).mark (by decide)) ⟨',', _, rfl, by decide⟩

theorem scans_truth (b : Bool) : Scans (if b then "true" else "false").toList
    [word .keyword (if b then "true" else "false")] := by
  have named : ∀ b : Bool, IsName (if b then "true" else "false").toList := by decide
  have lowered : ∀ b : Bool, (if b then "true" else "false").toLower
      = if b then "true" else "false" := by decide +kernel
  have keyword : ∀ b : Bool, (if b then "true" else "false") ∈ Token.keywords := by decide
  exact .slice (.of_keyword (named b) (lowered b) (keyword b))

theorem scans_words {v : Fact} (h : v.IsLegible) : Scans v.text.toList v.words := by
  have list {cs : List Char} {words : List Token} (inside : Scans cs words) :
      Scans ('[' :: (cs ++ [']'])) (.mark "[" :: (words ++ [.mark "]"])) :=
    (inside.append (Scans.nil.mark (by decide)) ⟨']', [], rfl, by decide⟩).mark (by decide)
  cases v with
  | int n => exact scans_number n
  | bool b => exact scans_truth b
  | intList ns =>
    simp only [text, payload, Document.literal, String.toList_append]
    exact list (scans_items ns)
  | stringList ss =>
    cases h
    exact list .nil
  | float | indeterminate | string => cases h

end Fact

/-! ## Expressions -/

namespace Expr

def words : Expr → List Token
  | literal v => v.words
  | fact k => [word .reference ("$" ++ k.plain)]
  | unary .neg e => word .operator "-" :: .mark "(" :: (e.words ++ [.mark ")"])
  | unary .not e => word .keyword "not" :: .mark "(" :: (e.words ++ [.mark ")"])
  | binary op l r =>
    .mark "(" :: (l.words ++ word op.tokenKind op.symbol :: r.words ++ [.mark ")"])

/-- The literals of an expression are legible, and its references are names. -/
def IsLegible : Expr → Prop
  | literal v => v.IsLegible
  | fact k => ∃ name, k = .name name ∧ IsName name.toList
  | unary _ e => e.IsLegible
  | binary _ l r => l.IsLegible ∧ r.IsLegible

/-- A binary operator is read as the token that writes it. -/
theorem becomes_symbol (op : BinaryOp) : Becomes op.symbol.toList op.tokenKind op.symbol := by
  cases op with
  | connective op => cases op <;> exact .of_keyword (by decide) (by decide +kernel) (by decide)
  | arithmetic op => cases op <;> exact .of_text (.operator (by decide)) nofun fun _ => by decide
  | comparison op => cases op <;> exact .of_text (.operator (by decide)) nofun fun _ => by decide

theorem scans_reference {name : String} (named : IsName name.toList) :
    Scans ("$" ++ name).toList [word .reference ("$" ++ name)] := by
  refine .slice (.of_text ?_ nofun nofun)
  rw [String.toList_append]
  exact .reference named

/-- The text of an expression is cut into its words. -/
theorem scans_words {e : Expr} (h : e.IsLegible) : Scans e.text.toList e.words := by
  induction e with
  | literal v => exact v.scans_words h
  | fact k =>
    obtain ⟨name, rfl, named⟩ := h
    exact scans_reference named
  | unary op e ih =>
    have bracketed := (ih h).bracketed
    cases op with
    | neg => simpa [text, words, UnaryOp.symbol] using bracketed.minus
    | not =>
      have notWord : Scans "not".toList [word .keyword "not"] :=
        .slice (.of_keyword (by decide) (by decide +kernel) (by decide))
      simpa [text, words, UnaryOp.symbol] using
        notWord.append bracketed.blank ⟨' ', _, rfl, by decide⟩
  | binary op l r ihl ihr =>
    have right := (Scans.slice (becomes_symbol op)).append (ihr h.2).blank ⟨' ', _, rfl, by decide⟩
    have both := (ihl h.1).append right.blank ⟨' ', _, rfl, by decide⟩
    simpa [text, words] using both.bracketed

end Expr

end Cascade
