-- SUMMARY: Reading tokens that stand elsewhere: the readers give the same, or refuse for the same cause at places that belong together.
import Mathlib.Data.List.Forall2
import Cascade.Expr.Parse

/-! # Displaced tokens

A reader looks at the classes and the texts of tokens. Their positions are for
refusals only, so from tokens that differ in nothing else it reads the same, and what
it refuses is refused for the same cause, at places that **meet**: the starts of two
tokens that stand for each other, or places within two such texts. -/

namespace Cascade.Expr

open Reader

variable (meets : Nat → Nat → Prop)

/-- Two tokens that differ in their positions only, which meet; within a text every
    place does. -/
structure Displaced (t u : Token) : Prop where
  kind : t.kind = u.kind
  text : t.text = u.text
  start : meets t.position u.position
  inside : t.kind = .string → ∀ k < t.text.length, meets (t.position + k) (u.position + k)

/-- Results that correspond, or refusals for one cause at places that meet. -/
inductive Agree {α : Type} (rel : α → α → Prop) : Except Failure α → Except Failure α → Prop
  | ok {a b : α} : rel a b → Agree rel (.ok a) (.ok b)
  | refused {f g : Failure} : f.cause = g.cause → Option.Rel meets f.position g.position →
    Agree rel (.error f) (.error g)

/-- What was read is the same, and the tokens that are left are displaced. -/
def Alongside {α : Type} (p q : α × List Token) : Prop :=
  p.1 = q.1 ∧ List.Forall₂ (Displaced meets) p.2 q.2

/-- A reader that reads the same from displaced tokens. -/
def Steady {α : Type} (read : Reader α) : Prop :=
  ∀ {ts us : List Token}, List.Forall₂ (Displaced meets) ts us →
    Agree meets (Alongside meets) (read ts) (read us)

variable {meets} {α β : Type}

theorem Agree.bind {rel : α → α → Prop} {rel' : β → β → Prop} {x y : Except Failure α}
    {f g : α → Except Failure β} (h : Agree meets rel x y)
    (next : ∀ a b, rel a b → Agree meets rel' (f a) (g b)) :
    Agree meets rel' (x >>= f) (y >>= g) := by
  cases h with
  | ok related => exact next _ _ related
  | refused cause place => exact .refused cause place

theorem Agree.map {rel : α → α → Prop} {rel' : β → β → Prop} {x y : Except Failure α}
    {f g : α → β} (h : Agree meets rel x y) (next : ∀ a b, rel a b → rel' (f a) (g b)) :
    Agree meets rel' (do return f (← x)) (do return g (← y)) :=
  h.bind fun a b related => .ok (next a b related)

/-! ## Single tokens -/

variable {t u : Token} {ts us : List Token}

theorem Displaced.isToken (h : Displaced meets t u) (kind : TokenKind) (text : String) :
    isToken kind text t = isToken kind text u := by
  simp only [Reader.isToken, h.kind, h.text]

theorem agree_missing {rel : α → α → Prop} (h : List.Forall₂ (Displaced meets) ts us)
    (wanted : Expectation) :
    Agree meets rel (.error (missing wanted ts)) (.error (missing wanted us)) := by
  cases h with
  | nil => exact .refused rfl .none
  | cons first _ =>
    refine .refused ?_ (.some first.start)
    simp only [missing, List.head?_cons, Option.map_some, first.text]

theorem agree_afterMark (h : List.Forall₂ (Displaced meets) ts us) (mark : String) :
    Agree meets (List.Forall₂ (Displaced meets)) (afterMark mark ts) (afterMark mark us) := by
  cases h with
  | nil => exact agree_missing .nil _
  | cons first rest =>
    simp only [afterMark, first.isToken]
    split
    · exact .ok rest
    · exact agree_missing (.cons first rest) _

/-! ## Literals -/

theorem agree_unescape {p q : Nat} {cs : List Char} (h : ∀ k < cs.length, meets (p + k) (q + k)) :
    Agree meets Eq (unescape p cs) (unescape q cs) := by
  fun_induction unescape p cs generalizing q with
  | case1 => exact .ok rfl
  | case2 => exact .refused rfl (.some (h 0 Nat.zero_lt_one))
  | case3 p c cs e he ih =>
    rw [unescape, he]
    refine (ih fun k hk => ?_).map fun _ _ => congrArg (e :: ·)
    have place := h (k + 2) (Nat.add_lt_add_right hk 2)
    rwa [← Nat.add_assoc, ← Nat.add_assoc, Nat.add_right_comm, Nat.add_right_comm q] at place
  | case4 p c cs he =>
    rw [unescape, he]
    exact .refused rfl (.some (h 1 (Nat.lt_add_of_pos_left (Nat.succ_pos _))))
  | case5 p c cs lone pair ih =>
    rw [unescape.eq_4 _ _ _ lone pair]
    refine (ih fun k hk => ?_).map fun _ _ => congrArg (c :: ·)
    have place := h (k + 1) (Nat.add_lt_add_right hk 1)
    rwa [← Nat.add_assoc, ← Nat.add_assoc, Nat.add_right_comm, Nat.add_right_comm q] at place

theorem Displaced.unquoted (h : Displaced meets t u) (string : t.kind = .string) :
    Agree meets Eq (unquoted t) (unquoted u) := by
  unfold Reader.unquoted
  rw [← h.text]
  refine (agree_unescape fun k hk => ?_).map fun _ _ => congrArg String.ofList
  have within : 1 + k < t.text.length := by
    simp only [List.length_dropLast, List.length_drop, String.length_toList] at hk
    omega
  simpa only [Nat.add_assoc] using h.inside string (1 + k) within

theorem Displaced.integer (h : Displaced meets t u) : integer t = integer u := by
  rw [Reader.integer, Reader.integer, h.text]

theorem Displaced.real (h : Displaced meets t u) : real t = real u := by
  rw [Reader.real, Reader.real, h.text]

theorem steady_expected (wanted : Expectation) : Steady meets (expected (α := α) wanted) :=
  fun h => agree_missing h wanted

theorem steady_listItem : Steady meets listItem := by
  intro ts us h
  cases h with
  | nil => exact steady_expected _ .nil
  | @cons t u ts us first rest =>
    simp only [listItem, first.isToken, first.integer, ← first.kind]
    split
    · cases rest with
      | nil => exact steady_expected _ .nil
      | cons second rest =>
        simp only [second.integer, ← second.kind]
        split
        · exact .ok ⟨rfl, rest⟩
        · exact steady_expected _ (.cons second rest)
    split
    · exact .ok ⟨rfl, rest⟩
    split
    · exact (first.unquoted ‹_›).map fun _ _ same => ⟨congrArg Document.str same, rest⟩
    · exact steady_expected _ (.cons first rest)

theorem steady_listItems (fuel : Nat) : Steady meets (listItems fuel) := by
  induction fuel with
  | zero => exact steady_expected _
  | succ fuel ih =>
    intro ts us h
    refine (steady_listItem h).bind ?_
    rintro ⟨item, rest⟩ ⟨_, rest'⟩ ⟨rfl, beside⟩
    cases beside with
    | nil => exact agree_missing .nil _
    | cons first beside =>
      simp only [first.isToken]
      split
      · exact .ok ⟨rfl, beside⟩
      refine (agree_afterMark (.cons first beside) ",").bind fun _ _ beside => ?_
      exact (ih beside).map fun _ _ same => ⟨congrArg (item :: ·) same.1, same.2⟩

/-- The literal of a list whose items are read. -/
def collected (opening : Nat) (p : List Document × List Token) :
    Except Failure (Expr × List Token) :=
  match Fact.ofBare (.list p.1) with
  | .ok f => .ok (literal f, p.2)
  | .error _ => .error ⟨.mixedItems, some opening⟩

theorem agree_collected {opening opening' : Nat} (start : meets opening opening')
    (p q : List Document × List Token) (h : Alongside meets p q) :
    Agree meets (Alongside meets) (collected opening p) (collected opening' q) := by
  obtain ⟨items, rest⟩ := p
  obtain ⟨_, rest'⟩ := q
  obtain ⟨rfl, beside⟩ := h
  unfold collected
  dsimp only
  cases Fact.ofBare (.list items) with
  | ok f => exact .ok ⟨rfl, beside⟩
  | error => exact .refused rfl (.some start)

theorem agree_listAfter {opening opening' : Nat} (start : meets opening opening')
    (h : List.Forall₂ (Displaced meets) ts us) :
    Agree meets (Alongside meets) (listAfter opening ts) (listAfter opening' us) := by
  cases h with
  | nil => exact (steady_listItems 1 .nil).bind (agree_collected start)
  | cons first rest =>
    simp only [listAfter, first.isToken, List.length_cons, rest.length_eq]
    split
    · exact agree_collected start ([], _) ([], _) ⟨rfl, rest⟩
    · exact (steady_listItems _ (.cons first rest)).bind (agree_collected start)

/-! ## Operators -/

section Operators

variable {op? : Token → Option BinaryOp} {operand : Reader Expr}

theorem steady_chainAfter (same : ∀ {t u}, Displaced meets t u → op? t = op? u)
    (steady : Steady meets operand) (fuel : Nat) (left : Expr) :
    Steady meets (chainAfter op? operand fuel left) := by
  induction fuel generalizing left with
  | zero => exact fun h => .ok ⟨rfl, h⟩
  | succ fuel ih =>
    intro ts us h
    cases h with
    | nil => exact .ok ⟨rfl, .nil⟩
    | cons first rest =>
      simp only [chainAfter, same first]
      split
      · exact .ok ⟨rfl, .cons first rest⟩
      · refine (steady rest).bind ?_
        rintro ⟨right, rest⟩ ⟨_, rest'⟩ ⟨rfl, beside⟩
        exact ih _ beside

theorem steady_chain (same : ∀ {t u}, Displaced meets t u → op? t = op? u)
    (steady : Steady meets operand) : Steady meets (chain op? operand) := by
  intro ts us h
  refine (steady h).bind ?_
  rintro ⟨left, rest⟩ ⟨_, rest'⟩ ⟨rfl, beside⟩
  simp only [beside.length_eq]
  exact steady_chainAfter same steady _ _ beside

theorem steady_leading {isOp : Token → Bool} (same : ∀ {t u}, Displaced meets t u → isOp t = isOp u)
    (op : UnaryOp) (steady : Steady meets operand) : Steady meets (leading isOp op operand) := by
  intro ts us h
  induction h with
  | nil => exact steady .nil
  | cons first rest ih =>
    simp only [leading, same first]
    split
    · exact ih.map fun _ _ same => ⟨congrArg (unary op) same.1, same.2⟩
    · exact steady (.cons first rest)

theorem Displaced.comparison? (h : Displaced meets t u) : comparison? t = comparison? u := by
  simp only [Reader.comparison?, h.kind, h.text]

theorem Displaced.arithmetic? (h : Displaced meets t u) (among : List Arithmetic) :
    arithmetic? among t = arithmetic? among u := by
  simp only [Reader.arithmetic?, h.kind, h.text]

theorem Displaced.connective? (h : Displaced meets t u) (op : Connective) :
    connective? op t = connective? op u := by
  simp only [Reader.connective?, h.isToken]

theorem steady_compared (steady : Steady meets operand) : Steady meets (compared operand) := by
  intro ts us h
  refine (steady h).bind ?_
  rintro ⟨left, rest⟩ ⟨_, rest'⟩ ⟨rfl, beside⟩
  cases beside with
  | nil => exact .ok ⟨rfl, .nil⟩
  | cons first beside =>
    simp only [first.comparison?]
    split
    · exact .ok ⟨rfl, .cons first beside⟩
    refine (steady beside).bind ?_
    rintro ⟨right, rest⟩ ⟨_, rest'⟩ ⟨rfl, beside⟩
    have last : (rest.head?.any fun t => (Reader.comparison? t).isSome)
        = rest'.head?.any fun t => (Reader.comparison? t).isSome := by
      cases beside with
      | nil => rfl
      | cons next _ => simp only [List.head?_cons, Option.any_some, next.comparison?]
    simp only [last]
    split
    · exact agree_missing beside _
    · exact .ok ⟨rfl, beside⟩

end Operators

/-! ## Levels -/

section Levels

variable {inner : Reader Expr}

theorem steady_primary (steady : Steady meets inner) : Steady meets (primary inner) := by
  intro ts us h
  cases h with
  | nil => exact steady_expected _ .nil
  | @cons t u ts us first rest =>
    simp only [primary, first.integer, first.real, ← first.kind, ← first.text]
    split
    · exact .ok ⟨rfl, rest⟩
    · exact .ok ⟨rfl, rest⟩
    · exact (first.unquoted ‹_›).map fun _ _ same =>
        ⟨congrArg (fun s => literal (.string s)) same, rest⟩
    · exact .ok ⟨rfl, rest⟩
    · exact .ok ⟨rfl, rest⟩
    · split
      · exact .ok ⟨rfl, rest⟩
      split
      · exact .ok ⟨rfl, rest⟩
      · exact steady_expected _ (.cons first rest)
    · split
      · refine (steady rest).bind ?_
        rintro ⟨e, rest⟩ ⟨_, rest'⟩ ⟨rfl, beside⟩
        exact (agree_afterMark beside ")").map fun _ _ left => ⟨rfl, left⟩
      split
      · exact agree_listAfter first.start rest
      · exact steady_expected _ (.cons first rest)
    · exact steady_expected _ (.cons first rest)

theorem steady_disjunction (steady : Steady meets inner) : Steady meets (disjunction inner) := by
  have product : Steady meets (product inner) :=
    steady_chain (fun h => h.arithmetic? _)
      (steady_leading (fun h => h.isToken ..) .neg (steady_primary steady))
  have sum : Steady meets (sum inner) := steady_chain (fun h => h.arithmetic? _) product
  have negation : Steady meets (negation inner) :=
    steady_leading (fun h => h.isToken ..) .not (steady_compared sum)
  have conjunction : Steady meets (conjunction inner) :=
    steady_chain (fun h => h.connective? _) negation
  intro ts us h
  exact steady_chain (fun h => h.connective? _) conjunction h

theorem steady_expression (depth : Nat) : Steady meets (expression depth) := by
  induction depth with
  | zero => exact steady_expected _
  | succ depth ih => exact steady_disjunction ih

end Levels

/-- Displaced tokens write the same expression, or are refused for the same cause at
    places that meet. -/
theorem agree_ofTokens (h : List.Forall₂ (Displaced meets) ts us) :
    Agree meets Eq (ofTokens ts) (ofTokens us) := by
  cases h with
  | nil => exact agree_missing .nil _
  | cons first rest =>
    have all := List.Forall₂.cons first rest
    unfold ofTokens
    simp only [List.isEmpty_cons, Bool.false_eq_true, if_false, all.length_eq]
    refine (steady_expression _ all).bind ?_
    rintro ⟨e, left⟩ ⟨_, left'⟩ ⟨rfl, beside⟩
    cases beside with
    | nil => exact .ok rfl
    | cons next beside => exact agree_missing (.cons next beside) _

end Cascade.Expr
