-- SUMMARY: The slices that tokens are cut from: what the characters of each class look like, that a lexeme is found exactly in front of them, and that it is found again wherever they are kept apart from what follows.
import Mathlib.Data.Bool.AllAny
import Mathlib.Data.List.TakeWhile
import Cascade.Proofs.Expr.Cursor

/-! # Slices of a source

The characters that a token is cut from are its **slice**. Each class has slices of
its own: runs of digits, names with or without a dollar sign in front, quotes around
a body, and a few marks and operators. A lexeme that is found in front of a text
reaches over a slice of its class, and where none is found no slice of any class
starts. How far a lexeme reaches is counted on the text that follows; a blank or a
bracket ends each, so what was cut out as a lexeme is found as the same one again in
front of those. -/

namespace Cascade

open Expr.Cursor (writesInteger writesPower)

/-! ## The classes of slices -/

/-- What may stand between two quotes: no such quote, and a backslash only in front of
    a character that it takes along, which is no line feed. -/
inductive Quotable (quote : Char) : List Char → Prop
  | nil : Quotable quote []
  | plain {c : Char} {cs : List Char} :
    c ≠ quote → c ≠ '\\' → Quotable quote cs → Quotable quote (c :: cs)
  | escape {c : Char} {cs : List Char} :
    c ≠ '\n' → Quotable quote cs → Quotable quote ('\\' :: c :: cs)

/-- A name: a letter or an underscore, and what may stand inside names. -/
def IsName : List Char → Prop
  | [] => False
  | c :: cs => Lexeme.startsName c ∧ ∀ d ∈ cs, Lexeme.insideName d

instance : DecidablePred IsName
  | [] => inferInstanceAs (Decidable False)
  | c :: cs =>
    decidable_of_iff (Lexeme.startsName c ∧ cs.all Lexeme.insideName)
      (and_congr_right' List.all_eq_true)

def operatorTexts : List String :=
  ["<=", ">=", "==", "!=", "&&", "||", "-", "+", "*", "/", "%", "<", ">", "!"]

/-- The slices of a class. -/
inductive Slice : TokenKind → List Char → Prop
  | int {ds : List Char} : writesInteger ds → Slice .int ds
  | point {ds fs es : List Char} : (∀ c ∈ ds, Text.isDigit c) → (∀ c ∈ fs, Text.isDigit c) →
    ds ≠ [] ∨ fs ≠ [] → writesPower es → Slice .float (ds ++ '.' :: (fs ++ es))
  | power {ds es : List Char} :
    writesInteger ds → writesPower es → es ≠ [] → Slice .float (ds ++ es)
  | quoted {quote : Char} {body : List Char} :
    quote = '"' ∨ quote = '\'' → Quotable quote body → Slice .string (quote :: (body ++ [quote]))
  | reference {name : List Char} : IsName name → Slice .reference ('$' :: name)
  | word {name : List Char} : IsName name → Slice .word name
  | operator {cs : List Char} : String.ofList cs ∈ operatorTexts → Slice .operator cs
  | mark {c : Char} : c ∈ "()[],".toList → Slice .punctuation [c]

theorem Slice.ne_nil {kind : TokenKind} {cs : List Char} (h : Slice kind cs) : cs ≠ [] := by
  cases h with
  | int digits =>
    rintro rfl
    cases digits
  | word named =>
    rintro rfl
    cases named
  | operator known =>
    rintro rfl
    exact absurd known (by decide)
  | power digits =>
    intro none
    rw [(List.append_eq_nil_iff.mp none).1] at digits
    cases digits
  | point => simp
  | quoted | reference | mark => exact nofun

/-! ## Characters -/

namespace Text

/-- The range of code points that a blank is of. -/
theorem exists_range {c : Char} (h : isBlank c) :
    ∃ range ∈ (0x1c, 0x1f) :: spaceRanges, range.1 ≤ c.toNat ∧ c.toNat ≤ range.2 := by
  simpa [isBlank, isSpace, or_comm] using h

theorem isBlank_bounds {c : Char} (h : isBlank c) : c.toNat ≤ 32 ∨ 133 ≤ c.toNat := by
  have outside : ∀ range ∈ (0x1c, 0x1f) :: spaceRanges, range.2 ≤ 32 ∨ 133 ≤ range.1 := by decide
  obtain ⟨range, found, first, last⟩ := exists_range h
  rcases outside range found with before | behind <;> omega

/-- The code point of the digit zero of a digit's script. -/
theorem exists_script {c : Char} (h : isDigit c) :
    ∃ start ∈ zeroDigits, start ≤ c.toNat ∧ c.toNat < start + 10 := by
  simp only [isDigit, digitValue?, Option.isSome_map, List.find?_isSome] at h
  simpa using h

theorem not_isDigit_of_isBlank {c : Char} (h : isBlank c) : isDigit c = false := by
  by_contra digit
  obtain ⟨start, mem, low, high⟩ := exists_script (by simpa using digit)
  obtain ⟨range, found, first, last⟩ := exists_range h
  have apart : ∀ start ∈ zeroDigits, ∀ range ∈ (0x1c, 0x1f) :: spaceRanges,
      range.2 < start ∨ start + 10 ≤ range.1 := by decide
  rcases apart start mem range found with before | behind <;> omega

/-- Between the ASCII digits and those of the next script there are none. -/
theorem not_isDigit_of_bounds {c : Char} (low : 58 ≤ c.toNat) (high : c.toNat < 1632) :
    isDigit c = false := by
  by_contra digit
  obtain ⟨start, mem, first, last⟩ := exists_script (by simpa using digit)
  have gap : ∀ start ∈ zeroDigits, start = 48 ∨ 1632 ≤ start := by decide
  rcases gap start mem with rfl | far <;> omega

end Text

namespace Lexeme

theorem isAlpha_bounds {c : Char} (h : c.isAlpha) : 65 ≤ c.toNat ∧ c.toNat ≤ 122 := by
  have spelled : c.isAlpha =
      (decide (65 ≤ c.val ∧ c.val ≤ 90) || decide (97 ≤ c.val) && decide (c.val ≤ 122)) := rfl
  simp only [spelled, Bool.or_eq_true, Bool.and_eq_true, decide_eq_true_eq,
    UInt32.le_iff_toNat_le, Char.toNat_val] at h
  rcases h with upper | lower
  · exact ⟨upper.1, Nat.le_trans upper.2 (by decide)⟩
  · exact ⟨Nat.le_trans (by decide) lower.1, lower.2⟩

/-- Letters, digits and the marks of names are of ASCII. -/
theorem insideName_bounds {c : Char} (h : insideName c) : 46 ≤ c.toNat ∧ c.toNat ≤ 122 := by
  simp only [insideName, Char.isAlphanum, Bool.or_eq_true, decide_eq_true_eq] at h
  rcases h with (((letter | digit) | rfl) | rfl) | rfl
  · exact ⟨Nat.le_trans (by decide) (isAlpha_bounds letter).1, (isAlpha_bounds letter).2⟩
  · simp only [Char.isDigit, Bool.and_eq_true, decide_eq_true_eq, ge_iff_le,
      UInt32.le_iff_toNat_le, Char.toNat_val] at digit
    exact ⟨Nat.le_trans (by decide) digit.1, Nat.le_trans digit.2 (by decide)⟩
  all_goals decide

theorem startsName_bounds {c : Char} (h : startsName c) : 65 ≤ c.toNat ∧ c.toNat ≤ 122 := by
  simp only [startsName, Bool.or_eq_true, decide_eq_true_eq] at h
  rcases h with letter | rfl
  · exact isAlpha_bounds letter
  · decide

/-! ### What keeps slices apart -/

/-- Whether a character ends every slice in front of it. -/
def separates (c : Char) : Bool := Text.isBlank c || "()[],".toList.contains c

/-- A text that ends every slice in front of it. -/
def Apart (rest : List Char) : Prop := ∀ c, rest.head? = some c → separates c

theorem not_isDigit_of_separates {c : Char} (h : separates c) : Text.isDigit c = false := by
  simp only [separates, Bool.or_eq_true, List.contains_iff_mem] at h
  rcases h with blank | mark
  · exact Text.not_isDigit_of_isBlank blank
  · have none : ∀ c ∈ "()[],".toList, Text.isDigit c = false :=
      List.all_iff_forall_prop.mp (by decide)
    exact none c mark

theorem not_insideName_of_separates {c : Char} (h : separates c) : insideName c = false := by
  simp only [separates, Bool.or_eq_true, List.contains_iff_mem] at h
  rcases h with blank | mark
  · by_contra inside
    have ascii := insideName_bounds (by simpa using inside)
    rcases Text.isBlank_bounds blank with low | high <;> omega
  · have none : ∀ c ∈ "()[],".toList, insideName c = false :=
      List.all_iff_forall_prop.mp (by decide)
    exact none c mark

theorem not_isPair_of_separates {c d : Char} (h : separates d) : isPair c d = false := by
  have second : ∀ e ∈ ['=', '&', '|'], separates e = false :=
    List.all_iff_forall_prop.mp (by decide)
  have differs : ∀ e ∈ ['=', '&', '|'], d ≠ e := by
    rintro e mem rfl
    rw [second d mem] at h
    cases h
  simp [isPair, differs]

/-! ## Runs -/

theorem run_le (p : Char → Bool) (cs : List Char) : run p cs ≤ cs.length :=
  (List.takeWhile_prefix p).length_le

/-- A text is the run in front of it and what follows. -/
theorem run_split (p : Char → Bool) (cs : List Char) :
    cs.take (run p cs) = cs.takeWhile p ∧ cs.drop (run p cs) = cs.dropWhile p := by
  have whole : cs.takeWhile p ++ cs.dropWhile p = cs := List.takeWhile_append_dropWhile
  exact List.append_inj ((List.take_append_drop _ cs).trans whole.symm)
    (List.length_take_of_le (run_le p cs))

/-- A run goes on to where it has to stop. -/
theorem run_append {p : Char → Bool} {ds rest : List Char} (all : ∀ c ∈ ds, p c)
    (stops : ∀ c, rest.head? = some c → p c = false) : run p (ds ++ rest) = ds.length := by
  have stopped : rest.takeWhile p = [] := by
    cases rest with
    | nil => rfl
    | cons c cs => exact List.takeWhile_cons_of_neg (by simp [stops c rfl])
  rw [run, List.takeWhile_append_of_pos all, stopped, List.append_nil]

theorem writesInteger_iff {ds : List Char} :
    writesInteger ds ↔ ds ≠ [] ∧ ∀ c ∈ ds, Text.isDigit c := by
  simp [writesInteger]

theorem writesInteger_run {cs : List Char} (h : 0 < run Text.isDigit cs) :
    writesInteger (cs.takeWhile Text.isDigit) :=
  writesInteger_iff.mpr ⟨List.ne_nil_of_length_pos h, fun _ hc => List.mem_takeWhile_imp hc⟩

/-! ## Exponents -/

/-- An exponent is nothing, or a letter, a sign or none, and digits. -/
theorem writesPower_iff {es : List Char} : writesPower es ↔ es = [] ∨
    ∃ letter ds, (letter = 'e' ∨ letter = 'E') ∧ writesInteger ds ∧
      (es = letter :: '+' :: ds ∨ es = letter :: '-' :: ds ∨ es = letter :: ds) := by
  constructor
  · intro h
    unfold writesPower at h
    split at h
    · exact .inl rfl
    all_goals
      simp only [Bool.and_eq_true, Bool.or_eq_true, decide_eq_true_eq] at h
      exact .inr ⟨_, _, h.1, h.2, by simp⟩
  · rintro (rfl | ⟨letter, ds, which, digits, rfl | rfl | rfl⟩)
    · rfl
    · simp [writesPower, which, digits]
    · simp [writesPower, which, digits]
    · -- a sign in front is no digit, so it is not taken for one
      unfold writesPower
      split
      · cases ‹_ = [] ›
      · cases ‹letter :: ds = _›
        simp [writesInteger, show Text.isDigit '+' = false by decide] at digits
      · cases ‹letter :: ds = _›
        simp [writesInteger, show Text.isDigit '-' = false by decide] at digits
      · cases ‹letter :: ds = _›
        simp [which, digits]

/-- The exponent in front of a text writes an exponent. -/
theorem exists_power (cs : List Char) :
    ∃ es rest, cs = es ++ rest ∧ es.length = exponent cs ∧ writesPower es := by
  have none (cs : List Char) : ∃ es rest, cs = es ++ rest ∧ es.length = 0 ∧ writesPower es :=
    ⟨[], cs, rfl, rfl, rfl⟩
  have digits (cs : List Char) : cs = cs.takeWhile Text.isDigit ++ cs.dropWhile Text.isDigit :=
    List.takeWhile_append_dropWhile.symm
  fun_cases exponent cs with
  | case1 c ds n h =>
    obtain ⟨letter, some⟩ : (c = 'e' ∨ c = 'E') ∧ 0 < n := by simpa using h
    refine ⟨c :: '+' :: ds.takeWhile Text.isDigit, _, congrArg (c :: '+' :: ·) (digits ds), rfl, ?_⟩
    exact writesPower_iff.mpr (.inr ⟨c, _, letter, writesInteger_run some, .inl rfl⟩)
  | case3 c ds n h =>
    obtain ⟨letter, some⟩ : (c = 'e' ∨ c = 'E') ∧ 0 < n := by simpa using h
    refine ⟨c :: '-' :: ds.takeWhile Text.isDigit, _, congrArg (c :: '-' :: ·) (digits ds), rfl, ?_⟩
    exact writesPower_iff.mpr (.inr ⟨c, _, letter, writesInteger_run some, .inr (.inl rfl)⟩)
  | case5 c ds _ _ n h =>
    obtain ⟨letter, some⟩ : (c = 'e' ∨ c = 'E') ∧ 0 < n := by simpa using h
    refine ⟨c :: ds.takeWhile Text.isDigit, _, congrArg (c :: ·) (digits ds), rfl, ?_⟩
    exact writesPower_iff.mpr (.inr ⟨c, _, letter, writesInteger_run some, .inr (.inr rfl)⟩)
  | _ => exact none _

/-- No letter of an exponent is in front of a text that keeps apart. -/
theorem exponent_of_apart {rest : List Char} (h : Apart rest) : exponent rest = 0 := by
  have letter {c : Char} {cs : List Char} (hc : rest = c :: cs) : c ≠ 'e' ∧ c ≠ 'E' := by
    have outside := not_insideName_of_separates (h c (by rw [hc]; rfl))
    constructor <;> rintro rfl <;> cases outside
  fun_cases exponent rest with
  | case1 c cs n found | case3 c cs n found | case5 c cs _ _ n found =>
    simp [letter rfl] at found
  | _ => rfl

/-- What stands apart from an exponent is not counted to it. -/
theorem exponent_append {es rest : List Char} (power : writesPower es) (apart : Apart rest) :
    exponent (es ++ rest) = es.length := by
  have stops : ∀ c, rest.head? = some c → Text.isDigit c = false :=
    fun c hc => not_isDigit_of_separates (apart c hc)
  obtain rfl | ⟨letter, ds, which, digits, written⟩ := writesPower_iff.mp power
  · exact exponent_of_apart apart
  obtain ⟨nonempty, all⟩ := writesInteger_iff.mp digits
  have counted : run Text.isDigit (ds ++ rest) = ds.length := run_append all stops
  have some : 0 < ds.length := List.length_pos_iff.mpr nonempty
  rcases written with rfl | rfl | rfl
  · simp [exponent, counted, which, some]
  · simp [exponent, counted, which, some]
  · obtain ⟨d, ds, rfl⟩ := List.exists_cons_of_ne_nil nonempty
    have digit : Text.isDigit d := all d (List.mem_cons_self ..)
    have plus : d ≠ '+' := by rintro rfl; exact absurd digit (by decide)
    have minus : d ≠ '-' := by rintro rfl; exact absurd digit (by decide)
    simp only [List.cons_append] at counted ⊢
    rw [exponent]
    · simp [counted, which]
    · simp [plus]
    · simp [minus]

/-! ## What is found is a slice -/

/-- A lexeme whose first character is given lies within the text after it, and its
    characters are a slice of its class, or blanks. -/
def Cuts (l : Lexeme) (c : Char) (cs : List Char) : Prop :=
  ∃ front rest, cs = front ++ rest ∧ l.tail = front.length ∧
    match l.kind with
    | some kind => Slice kind (c :: front)
    | none => ∀ d ∈ c :: front, Text.isBlank d

variable {c : Char} {cs : List Char}

/-- What a lexeme takes of a text. -/
theorem Cuts.taken {l : Lexeme} (h : l.Cuts c cs) : l.tail ≤ cs.length ∧
    (∀ kind, l.kind = some kind → Slice kind (c :: cs.take l.tail)) ∧
    (l.kind = none → ∀ d ∈ c :: cs.take l.tail, Text.isBlank d) := by
  obtain ⟨front, rest, rfl, length, taken⟩ := h
  rw [length, List.take_left, List.length_append]
  refine ⟨Nat.le_add_right .., ?_, ?_⟩
  · intro kind hk
    simpa only [hk] using taken
  · intro none
    simpa only [none] using taken

theorem cuts_number (digit : Text.isDigit c) (cs : List Char) : (number cs).Cuts c cs := by
  obtain ⟨-, dropped⟩ := run_split Text.isDigit cs
  have whole (cs : List Char) : cs = cs.takeWhile Text.isDigit ++ cs.dropWhile Text.isDigit :=
    List.takeWhile_append_dropWhile.symm
  have digits : ∀ d ∈ c :: cs.takeWhile Text.isDigit, Text.isDigit d :=
    List.forall_mem_cons.mpr ⟨digit, fun d hd => List.mem_takeWhile_imp hd⟩
  simp only [number, dropped]
  split
  · rename_i rest hr
    obtain ⟨es, tail, hp, length, power⟩ := exists_power (rest.dropWhile Text.isDigit)
    refine ⟨cs.takeWhile Text.isDigit ++ '.' :: (rest.takeWhile Text.isDigit ++ es), tail, ?_, ?_,
      ?_⟩
    · calc cs
        _ = cs.takeWhile Text.isDigit ++ '.' :: rest := by rw [← hr, ← whole]
        _ = cs.takeWhile Text.isDigit ++ '.' :: (rest.takeWhile Text.isDigit ++ (es ++ tail)) := by
          rw [← hp, ← whole]
        _ = _ := by simp
    · rw [(run_split Text.isDigit rest).2, ← length]
      simp only [run, List.length_append, List.length_cons]
      omega
    · exact .point digits (fun f hf => List.mem_takeWhile_imp hf) (.inl nofun) power
  · obtain ⟨es, tail, hp, length, power⟩ := exists_power (cs.dropWhile Text.isDigit)
    refine ⟨cs.takeWhile Text.isDigit ++ es, tail, ?_, ?_, ?_⟩
    · rw [List.append_assoc, ← hp, ← whole]
    · rw [← length, List.length_append, run]
    · have integer : writesInteger (c :: cs.takeWhile Text.isDigit) :=
        writesInteger_iff.mpr ⟨nofun, digits⟩
      by_cases some : 0 < exponent (cs.dropWhile Text.isDigit)
      · have nonempty : es ≠ [] := List.ne_nil_of_length_pos (length ▸ some)
        simpa [some] using Slice.power integer power nonempty
      · have none : es = [] := List.length_eq_zero_iff.mp (by omega)
        simpa [some, none] using Slice.int integer

theorem cuts_fraction {l : Lexeme} (h : fraction? cs = some l) : l.Cuts '.' cs := by
  unfold fraction? at h
  dsimp only at h
  split at h
  · rename_i some
    cases h
    obtain ⟨es, tail, hp, length, power⟩ := exists_power (cs.dropWhile Text.isDigit)
    refine ⟨cs.takeWhile Text.isDigit ++ es, tail, ?_, ?_, ?_⟩
    · rw [List.append_assoc, ← hp, List.takeWhile_append_dropWhile]
    · rw [(run_split Text.isDigit cs).2, ← length, List.length_append, run]
    · have nonempty : cs.takeWhile Text.isDigit ≠ [] := List.ne_nil_of_length_pos some
      have point : Slice .float ([] ++ '.' :: (cs.takeWhile Text.isDigit ++ es)) :=
        .point nofun (fun f hf => List.mem_takeWhile_imp hf) (.inr nonempty) power
      exact point
  · cases h

/-- What a quoted text has after its first quote is a body and the quote again. -/
theorem of_quotedTail? {quote : Char} {n : Nat} (h : quotedTail? quote cs = some n) :
    ∃ body rest, cs = (body ++ [quote]) ++ rest ∧ n = (body ++ [quote]).length ∧
      Quotable quote body := by
  fun_induction quotedTail? quote cs generalizing n with
  | case3 c cs fits ih =>
    obtain ⟨m, hm, rfl⟩ := Option.map_eq_some_iff.mp h
    obtain ⟨body, rest, rfl, rfl, quotable⟩ := ih hm
    exact ⟨'\\' :: c :: body, rest, rfl, rfl, .escape fits quotable⟩
  | case4 cs =>
    cases h
    exact ⟨[], cs, rfl, rfl, .nil⟩
  | case6 c cs _ other plain ih =>
    obtain ⟨m, hm, rfl⟩ := Option.map_eq_some_iff.mp h
    obtain ⟨body, rest, rfl, rfl, quotable⟩ := ih hm
    exact ⟨c :: body, rest, rfl, rfl, .plain other plain quotable⟩
  | _ => cases h

theorem cuts_quoted (quote : c = '"' ∨ c = '\'') {n : Nat} (h : quotedTail? c cs = some n) :
    (⟨some .string, n⟩ : Lexeme).Cuts c cs := by
  obtain ⟨body, rest, whole, length, quotable⟩ := of_quotedTail? h
  exact ⟨body ++ [c], rest, whole, length, .quoted quote quotable⟩

theorem cuts_reference {l : Lexeme} (h : reference? cs = some l) : l.Cuts '$' cs := by
  unfold reference? at h
  split at h
  · rename_i d ds
    split at h
    · rename_i starts
      cases h
      refine ⟨d :: ds.takeWhile insideName, ds.dropWhile insideName, ?_, ?_, ?_⟩
      · rw [List.cons_append, List.takeWhile_append_dropWhile]
      · simp only [run, List.length_cons]
        omega
      · exact .reference ⟨starts, fun e he => List.mem_takeWhile_imp he⟩
    · cases h
  · cases h

/-- The characters of the operators that have two. -/
def pairs : List (Char × Char) :=
  [('<', '='), ('>', '='), ('=', '='), ('!', '='), ('&', '&'), ('|', '|')]

theorem isPair_iff {c d : Char} : isPair c d ↔ (c, d) ∈ pairs := by
  simp only [isPair, pairs, Bool.or_eq_true, Bool.and_eq_true, decide_eq_true_eq, List.mem_cons,
    Prod.mk.injEq, List.not_mem_nil]
  grind

theorem cuts_operator {l : Lexeme} (h : operator? c cs = some l) : l.Cuts c cs := by
  unfold operator? at h
  split at h
  · rename_i pair
    cases h
    cases cs with
    | nil => cases pair
    | cons d rest =>
      have texts : ∀ p ∈ pairs, String.ofList [p.1, p.2] ∈ operatorTexts := by decide
      exact ⟨[d], rest, rfl, rfl, .operator (texts (c, d) (isPair_iff.mp pair))⟩
  · split at h
    · rename_i single
      cases h
      have texts : ∀ c ∈ "-+*/%<>!".toList, String.ofList [c] ∈ operatorTexts :=
        List.all_iff_forall_prop.mp (by decide)
      exact ⟨[], cs, rfl, rfl, .operator (texts c (by simpa [isSingle] using single))⟩
    · cases h

/-- The lexeme in front of a text lies within it and is a slice of its class. -/
theorem cuts_first {l : Lexeme} (h : first? c cs = some l) : l.Cuts c cs := by
  unfold first? at h
  split at h
  · rename_i blank
    cases h
    refine ⟨cs.takeWhile Text.isBlank, cs.dropWhile Text.isBlank,
      List.takeWhile_append_dropWhile.symm, rfl, ?_⟩
    exact List.forall_mem_cons.mpr ⟨blank, fun d hd => List.mem_takeWhile_imp hd⟩
  split at h
  · cases h
    exact cuts_number ‹_› cs
  split at h
  · subst c
    exact cuts_fraction h
  split at h
  · rename_i quote
    obtain ⟨n, hn, rfl⟩ := Option.map_eq_some_iff.mp h
    exact cuts_quoted (by simpa using quote) hn
  split at h
  · subst c
    exact cuts_reference h
  split at h
  · rename_i starts
    cases h
    refine ⟨cs.takeWhile insideName, cs.dropWhile insideName,
      List.takeWhile_append_dropWhile.symm, rfl, ?_⟩
    exact .word ⟨starts, fun d hd => List.mem_takeWhile_imp hd⟩
  split at h
  · rename_i mark
    cases h
    exact ⟨[], cs, rfl, rfl, .mark (by simpa using mark)⟩
  · exact cuts_operator h

/-! ## Slices are found -/

section Found

variable {front rest : List Char}

theorem number_of_int (all : ∀ d ∈ front, Text.isDigit d) (apart : Apart rest) :
    number (front ++ rest) = ⟨some .int, front.length⟩ := by
  have stops : ∀ d, rest.head? = some d → Text.isDigit d = false :=
    fun d hd => not_isDigit_of_separates (apart d hd)
  have point (others : List Char) : rest ≠ '.' :: others := by
    rintro rfl
    exact absurd (apart '.' rfl) (by decide)
  unfold number
  simp [run_append all stops, exponent_of_apart apart]

/-- No digit is in front of an exponent or of what keeps apart. -/
theorem stops_of_power {es : List Char} (power : writesPower es) (apart : Apart rest) :
    ∀ d, (es ++ rest).head? = some d → Text.isDigit d = false := by
  intro d hd
  have letters : Text.isDigit 'e' = false ∧ Text.isDigit 'E' = false := by decide
  obtain rfl | ⟨letter, ds, which, digits, rfl | rfl | rfl⟩ := writesPower_iff.mp power
  · exact not_isDigit_of_separates (apart d hd)
  all_goals
    cases hd
    rcases which with rfl | rfl
    · exact letters.1
    · exact letters.2

theorem number_of_point {ds fs es : List Char} (whole : ∀ d ∈ ds, Text.isDigit d)
    (fraction : ∀ d ∈ fs, Text.isDigit d) (power : writesPower es) (apart : Apart rest) :
    number (ds ++ '.' :: (fs ++ es) ++ rest)
      = ⟨some .float, (ds ++ '.' :: (fs ++ es)).length⟩ := by
  have point : ∀ d, ('.' :: (fs ++ (es ++ rest))).head? = some d → Text.isDigit d = false := by
    rintro d ⟨⟩
    decide
  have counted := run_append fraction (stops_of_power power apart)
  unfold number
  simp only [List.append_assoc, List.cons_append, run_append whole point, List.drop_left, counted,
    exponent_append power apart, List.length_append, List.length_cons, Lexeme.mk.injEq, true_and]
  omega

theorem number_of_power {ds es : List Char} (whole : ∀ d ∈ ds, Text.isDigit d)
    (power : writesPower es) (some : es ≠ []) (apart : Apart rest) :
    number (ds ++ es ++ rest) = ⟨.some .float, (ds ++ es).length⟩ := by
  have point (others : List Char) : es ++ rest ≠ '.' :: others := by
    obtain rfl | ⟨letter, ds, which, -, rfl | rfl | rfl⟩ := writesPower_iff.mp power
    · exact absurd rfl some
    all_goals
      rintro ⟨⟩
      simp at which
  have counted : 0 < exponent (es ++ rest) := by
    rw [exponent_append power apart]
    exact List.length_pos_iff.mpr some
  unfold number
  simp only [List.append_assoc, run_append whole (stops_of_power power apart), List.drop_left]
  simp [exponent_append power apart, List.length_pos_iff.mpr some]

theorem fraction?_of_point {fs es : List Char} (fraction : ∀ d ∈ fs, Text.isDigit d)
    (some : fs ≠ []) (power : writesPower es) (apart : Apart rest) :
    fraction? (fs ++ es ++ rest) = .some ⟨.some .float, (fs ++ es).length⟩ := by
  have counted := run_append fraction (stops_of_power power apart)
  unfold fraction?
  simp [counted, exponent_append power apart, List.length_pos_iff.mpr some]

/-- The tail of a quoted text is found whatever comes after it. -/
theorem quotedTail?_of_quotable {quote : Char} (plain : quote ≠ '\\') {body : List Char}
    (h : Quotable quote body) (rest : List Char) :
    quotedTail? quote (body ++ quote :: rest) = some (body.length + 1) := by
  induction h with
  | nil =>
    rw [List.nil_append, quotedTail?]
    · simp
    · exact fun _ _ hq => absurd hq plain
  | @plain c cs other hc _ ih =>
    rw [List.cons_append, quotedTail?]
    · simp [other, hc, ih]
    · exact fun _ _ h => absurd h hc
  | escape fits _ ih =>
    rw [List.cons_append, List.cons_append, quotedTail?]
    simp [fits, ih]

end Found

/-! ### Which class is looked for -/

theorem first?_of_digit (digit : Text.isDigit c) (cs : List Char) :
    first? c cs = some (number cs) := by
  have blank : ¬Text.isBlank c := fun h => by simp [Text.not_isDigit_of_isBlank h] at digit
  rw [first?, if_neg blank, if_pos digit]

theorem first?_of_point (cs : List Char) : first? '.' cs = fraction? cs := by
  have blank : Text.isBlank '.' = false := by decide
  have digit : Text.isDigit '.' = false := by decide
  simp [first?, blank, digit]

theorem first?_of_quote (quote : c = '"' ∨ c = '\'') (cs : List Char) :
    first? c cs = (quotedTail? c cs).map fun n => ⟨some .string, n⟩ := by
  have blank : Text.isBlank '"' = false ∧ Text.isBlank '\'' = false := by decide
  have digit : Text.isDigit '"' = false ∧ Text.isDigit '\'' = false := by decide
  rcases quote with rfl | rfl <;> simp [first?, blank, digit]

theorem first?_of_dollar (cs : List Char) : first? '$' cs = reference? cs := by
  have blank : Text.isBlank '$' = false := by decide
  have digit : Text.isDigit '$' = false := by decide
  simp [first?, blank, digit]

theorem first?_of_startsName (starts : startsName c) (cs : List Char) :
    first? c cs = some ⟨some .word, run insideName cs⟩ := by
  obtain ⟨low, high⟩ := startsName_bounds starts
  have blank : ¬Text.isBlank c := fun h => by
    rcases Text.isBlank_bounds h with before | behind <;> omega
  have digit : Text.isDigit c = false := Text.not_isDigit_of_bounds (by omega) (by omega)
  have others : ∀ d ∈ ['.', '"', '\'', '$'], c ≠ d := by
    have none : ∀ d ∈ ['.', '"', '\'', '$'], startsName d = false :=
      List.all_iff_forall_prop.mp (by decide)
    rintro d mem rfl
    simp [none c mem] at starts
  simp [first?, blank, digit, starts, others]

def operatorStarts : List Char := "<>=!&|-+*/%".toList

/-- What is neither blank nor digit, nor starts anything longer than an operator. -/
theorem first?_of_symbol (symbol : c ∈ "()[],".toList ++ operatorStarts) (cs : List Char) :
    first? c cs = if "()[],".toList.contains c then some ⟨some .punctuation, 0⟩
      else operator? c cs := by
  have blank : ∀ d ∈ "()[],".toList ++ operatorStarts, Text.isBlank d = false :=
    List.all_iff_forall_prop.mp (by decide)
  have digit : ∀ d ∈ "()[],".toList ++ operatorStarts, Text.isDigit d = false :=
    List.all_iff_forall_prop.mp (by decide)
  have starts : ∀ d ∈ "()[],".toList ++ operatorStarts, startsName d = false :=
    List.all_iff_forall_prop.mp (by decide)
  have others : ∀ d ∈ "()[],".toList ++ operatorStarts, d ∉ ['.', '"', '\'', '$'] :=
    List.all_iff_forall_prop.mp (by decide)
  have other := others c symbol
  simp only [List.mem_cons, List.not_mem_nil, or_false, not_or] at other
  simp only [first?, blank c symbol, digit c symbol, starts c symbol, other, decide_false,
    Bool.or_self, Bool.false_eq_true, if_false]

theorem first?_of_mark (mark : c ∈ "()[],".toList) (cs : List Char) :
    first? c cs = some ⟨some .punctuation, 0⟩ := by
  rw [first?_of_symbol (List.mem_append_left _ mark), if_pos (List.contains_iff_mem.mpr mark)]

theorem first?_of_operator (start : c ∈ operatorStarts) (cs : List Char) :
    first? c cs = operator? c cs := by
  have mark : ∀ d ∈ operatorStarts, "()[],".toList.contains d = false :=
    List.all_iff_forall_prop.mp (by decide)
  rw [first?_of_symbol (List.mem_append_right _ start), mark c start]
  rfl

/-- An operator is one of the pairs or a single character. -/
theorem operator_cases {cs : List Char} (h : String.ofList cs ∈ operatorTexts) :
    (∃ p ∈ pairs, cs = [p.1, p.2]) ∨ ∃ c, isSingle c ∧ cs = [c] := by
  have known : ∀ s ∈ operatorTexts, (pairs.any fun p => s.toList = [p.1, p.2]) ∨
      "-+*/%<>!".toList.any fun c => s.toList = [c] := by decide
  rcases known _ h with pair | single
  · obtain ⟨p, mem, written⟩ := List.any_iff_exists_prop.mp pair
    exact .inl ⟨p, mem, by simpa using written⟩
  · obtain ⟨c, mem, written⟩ := List.any_iff_exists_prop.mp single
    exact .inr ⟨c, by simpa [isSingle] using mem, by simpa using written⟩

theorem pair_starts : ∀ p ∈ pairs, p.1 ∈ operatorStarts := by decide

theorem single_starts {c : Char} (single : isSingle c) : c ∈ operatorStarts := by
  have starts : ∀ d ∈ "-+*/%<>!".toList, d ∈ operatorStarts :=
    List.all_iff_forall_prop.mp (by decide)
  exact starts c (List.contains_iff_mem.mp single)

/-- A slice is found again in front of what stands apart from it. -/
theorem first?_of_slice {kind : TokenKind} {front rest : List Char} (h : Slice kind (c :: front))
    (apart : Apart rest) : first? c (front ++ rest) = some ⟨some kind, front.length⟩ := by
  have outside : ∀ d, rest.head? = some d → insideName d = false :=
    fun d hd => not_insideName_of_separates (apart d hd)
  generalize whole : c :: front = slice at h
  cases h with
  | int digits =>
    subst whole
    obtain ⟨digit, digits⟩ := List.forall_mem_cons.mp (writesInteger_iff.mp digits).2
    rw [first?_of_digit digit, number_of_int digits apart]
  | @point ds fs es digits fraction some power =>
    cases ds with
    | nil =>
      cases whole
      rw [first?_of_point, fraction?_of_point fraction (some.resolve_left (absurd rfl)) power apart]
    | cons d ds =>
      simp only [List.cons_append, List.cons.injEq] at whole
      obtain ⟨rfl, rfl⟩ := whole
      obtain ⟨digit, digits⟩ := List.forall_mem_cons.mp digits
      rw [first?_of_digit digit, number_of_point digits fraction power apart]
  | @power ds es digits power some =>
    obtain ⟨nonempty, digits⟩ := writesInteger_iff.mp digits
    obtain ⟨d, ds, rfl⟩ := List.exists_cons_of_ne_nil nonempty
    simp only [List.cons_append, List.cons.injEq] at whole
    obtain ⟨rfl, rfl⟩ := whole
    obtain ⟨digit, digits⟩ := List.forall_mem_cons.mp digits
    rw [first?_of_digit digit, number_of_power digits power some apart]
  | @quoted quote body which quotable =>
    cases whole
    have plain : c ≠ '\\' := by rcases which with rfl | rfl <;> decide
    rw [first?_of_quote which, List.append_assoc, List.singleton_append,
      quotedTail?_of_quotable plain quotable, List.length_append]
    rfl
  | @reference name named =>
    cases whole
    cases front with
    | nil => cases named
    | cons d ds =>
      rw [first?_of_dollar, List.cons_append, reference?, if_pos named.1,
        run_append named.2 outside, Nat.add_comm]
      rfl
  | word named =>
    subst whole
    rw [first?_of_startsName named.1, run_append named.2 outside]
  | operator known =>
    subst whole
    rcases operator_cases known with ⟨p, mem, written⟩ | ⟨d, single, written⟩
    · cases written
      have pair : isPair p.1 p.2 := isPair_iff.mpr mem
      rw [first?_of_operator (pair_starts p mem)]
      simp [operator?, pair]
    · cases written
      have alone : rest.head?.any (isPair c) = false := by
        cases rest with
        | nil => rfl
        | cons d ds => exact not_isPair_of_separates (apart d rfl)
      rw [first?_of_operator (single_starts single)]
      simp [operator?, alone, single]
  | mark mem =>
    cases whole
    exact first?_of_mark mem _

/-- Where a slice of any class starts a lexeme is found, if not always that slice. -/
theorem isSome_first?_of_slice {kind : TokenKind} {front : List Char} (h : Slice kind (c :: front))
    (rest : List Char) : (first? c (front ++ rest)).isSome := by
  generalize whole : c :: front = slice at h
  have ofDigits {ds es : List Char} (nonempty : ds ≠ []) (digits : ∀ d ∈ ds, Text.isDigit d)
      (whole : c :: front = ds ++ es) : (first? c (front ++ rest)).isSome := by
    obtain ⟨d, ds, rfl⟩ := List.exists_cons_of_ne_nil nonempty
    obtain ⟨rfl, rfl⟩ := List.cons.inj whole
    rw [first?_of_digit (digits c (List.mem_cons_self ..))]
    rfl
  cases h with
  | int digits =>
    obtain ⟨nonempty, digits⟩ := writesInteger_iff.mp digits
    exact ofDigits nonempty digits (whole.trans (List.append_nil _).symm)
  | @point ds fs es digits fraction some power =>
    by_cases nonempty : ds = []
    · subst nonempty
      cases whole
      obtain ⟨f, fs, rfl⟩ := List.exists_cons_of_ne_nil (some.resolve_left (absurd rfl))
      have first : Text.isDigit f := fraction f (List.mem_cons_self ..)
      simp [first?_of_point, fraction?, run, first]
    · exact ofDigits nonempty digits whole
  | power digits =>
    obtain ⟨nonempty, digits⟩ := writesInteger_iff.mp digits
    exact ofDigits nonempty digits whole
  | @quoted quote body which quotable =>
    cases whole
    have plain : c ≠ '\\' := by rcases which with rfl | rfl <;> decide
    rw [first?_of_quote which, List.append_assoc, List.singleton_append,
      quotedTail?_of_quotable plain quotable]
    rfl
  | reference named =>
    cases whole
    cases front with
    | nil => cases named
    | cons d ds =>
      rw [first?_of_dollar, List.cons_append, reference?, if_pos named.1]
      rfl
  | word named =>
    subst whole
    rw [first?_of_startsName named.1]
    rfl
  | operator known =>
    subst whole
    rcases operator_cases known with ⟨p, mem, written⟩ | ⟨d, single, written⟩
    · cases written
      rw [first?_of_operator (pair_starts p mem), List.singleton_append, operator?, List.head?_cons,
        Option.any_some, if_pos (isPair_iff.mpr mem)]
      rfl
    · cases written
      rw [first?_of_operator (single_starts single), operator?]
      split
      · rfl
      · rfl
  | mark mem =>
    cases whole
    rw [first?_of_mark mem]
    rfl

/-- Where no lexeme is found there is no blank, and no slice of any class starts. -/
theorem nothing_of_first?_none (h : first? c cs = none) :
    Text.isBlank c = false ∧ ∀ kind slice, Slice kind slice → ¬slice <+: c :: cs := by
  constructor
  · by_contra blank
    simp [first?, show Text.isBlank c by simpa using blank] at h
  · rintro kind slice sliced ⟨rest, whole⟩
    cases slice with
    | nil => exact absurd rfl sliced.ne_nil
    | cons d front =>
      obtain ⟨rfl, rfl⟩ := List.cons.inj whole
      have found := isSome_first?_of_slice sliced rest
      change (first? d (front ++ rest)).isSome at found
      rw [show first? d (front ++ rest) = none from h] at found
      cases found

end Lexeme
end Cascade
