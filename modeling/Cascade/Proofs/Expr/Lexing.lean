-- SUMMARY: What the tokens of a source are like: where they lie, and that texts, numbers and names among them are well written.
import Cascade.Proofs.Expr.Slices

/-! # Tokens are well written

A slice says something of its characters by its class: that a number is written by
them, that they are quotes around a body in which every backslash has a character to
escape, or that they begin with a dollar sign and go on. So it is with the tokens of
a source, each of which lies within the source. -/

namespace Cascade

open Expr.Cursor (writesInteger writesPower writesFloat)

/-- Every backslash has a character after it that it escapes. -/
inductive Paired : List Char → Prop
  | nil : Paired []
  | escape (c : Char) {cs : List Char} : Paired cs → Paired ('\\' :: c :: cs)
  | plain {c : Char} {cs : List Char} : c ≠ '\\' → Paired cs → Paired (c :: cs)

/-- What the characters of a token of a class are like. -/
def TokenKind.Writes (kind : TokenKind) (cs : List Char) : Prop :=
  match kind with
  | .int => writesInteger cs
  | .float => writesFloat cs
  | .string => ∃ quote body, cs = quote :: (body ++ [quote]) ∧ Paired body
  | .reference => 2 ≤ cs.length
  | .word => cs ≠ []
  | .operator | .punctuation | .keyword => True

/-! ## Slices are well written -/

theorem Quotable.paired {quote : Char} {body : List Char} (h : Quotable quote body) :
    Paired body := by
  induction h with
  | nil => exact .nil
  | plain _ other _ ih => exact .plain other ih
  | escape _ _ ih => exact .escape _ ih

namespace Lexeme

theorem dropWhile_digits {ds rest : List Char} (digits : ∀ c ∈ ds, Text.isDigit c)
    (stops : ∀ c, rest.head? = some c → Text.isDigit c = false) :
    (ds ++ rest).dropWhile Text.isDigit = rest := by
  rw [List.dropWhile_append_of_pos digits]
  cases rest with
  | nil => rfl
  | cons c cs => exact List.dropWhile_cons_of_neg (by simp [stops c rfl])

theorem not_isDigit_of_writesPower {es : List Char} (h : writesPower es) :
    ∀ c, es.head? = some c → Text.isDigit c = false := by
  simpa using stops_of_power h (nofun : Apart [])

/-- Digits, a point, perhaps more digits, and an exponent or none. -/
theorem writesFloat_of_point {ds fs es : List Char} (whole : ∀ c ∈ ds, Text.isDigit c)
    (fraction : ∀ c ∈ fs, Text.isDigit c) (some : ds ≠ [] ∨ fs ≠ []) (power : writesPower es) :
    writesFloat (ds ++ '.' :: (fs ++ es)) := by
  have point : ∀ c, ('.' :: (fs ++ es)).head? = Option.some c → Text.isDigit c = false := by
    rintro c ⟨⟩
    decide
  unfold writesFloat
  rw [dropWhile_digits whole point]
  simp only [dropWhile_digits fraction (not_isDigit_of_writesPower power), power, Bool.and_true,
    Bool.or_eq_true]
  rcases some with nonempty | nonempty
  · obtain ⟨d, ds, rfl⟩ := List.exists_cons_of_ne_nil nonempty
    exact .inl (whole d (List.mem_cons_self ..))
  · obtain ⟨f, fs, rfl⟩ := List.exists_cons_of_ne_nil nonempty
    exact .inr (fraction f (List.mem_cons_self ..))

/-- Digits and an exponent. -/
theorem writesFloat_of_power {ds es : List Char} (whole : writesInteger ds)
    (power : writesPower es) : writesFloat (ds ++ es) := by
  obtain ⟨nonempty, digits⟩ := writesInteger_iff.mp whole
  obtain ⟨d, ds, rfl⟩ := List.exists_cons_of_ne_nil nonempty
  have starts : Text.isDigit d := digits d (List.mem_cons_self ..)
  unfold writesFloat
  rw [dropWhile_digits digits (not_isDigit_of_writesPower power)]
  split
  · have point := writesPower_iff.mp power
    simp at point
  · simp [starts, power]

end Lexeme

theorem Slice.writes {kind : TokenKind} {cs : List Char} (h : Slice kind cs) : kind.Writes cs := by
  cases h with
  | int digits => exact digits
  | point digits fraction some power => exact Lexeme.writesFloat_of_point digits fraction some power
  | power digits power => exact Lexeme.writesFloat_of_power digits power
  | quoted _ quotable => exact ⟨_, _, rfl, quotable.paired⟩
  | @reference name named =>
    have nonempty : name ≠ [] := by
      rintro rfl
      cases named
    exact Nat.succ_le_succ (List.length_pos_iff.mpr nonempty)
  | word named => exact (Slice.word named).ne_nil
  | operator | mark => trivial

/-! ## Tokens -/

namespace Token

/-- A token that lies in front of the end of its source and is like its class; of a
    text the whole does. -/
structure IsGenuine (stop : Nat) (t : Token) : Prop where
  position : t.position ≤ stop
  writes : t.kind.Writes t.text.toList
  text : t.kind = .string → t.position + t.text.length ≤ stop

theorem genuine_ofSlice {kind : TokenKind} {slice : String} {position stop : Nat}
    (writes : kind.Writes slice.toList) (fits : position + slice.length ≤ stop) :
    (ofSlice kind slice position).IsGenuine stop := by
  have within : position ≤ stop := by omega
  have kept : (⟨kind, slice, position⟩ : Token).IsGenuine stop := ⟨within, writes, fun _ => fits⟩
  have keyword (word : String) : (⟨.keyword, word, position⟩ : Token).IsGenuine stop :=
    ⟨within, trivial, nofun⟩
  unfold ofSlice
  dsimp only
  split
  · split
    · exact keyword _
    · exact kept
  · exact keyword _
  · exact kept

/-- The tokens of a text are genuine, and a text that has none is refused within. -/
theorem scan_genuine (position : Nat) (cs : List Char) :
    match scan position cs with
    | .ok ts => ∀ t ∈ ts, t.IsGenuine (position + cs.length)
    | .error (_, p) => p ≤ position + cs.length := by
  fun_induction scan position cs with
  | case1 => exact nofun
  | case2 position c cs _ => exact Nat.le_add_right ..
  | case3 position c cs kind? n found ih =>
    obtain ⟨bound, writes, -⟩ := (Lexeme.cuts_first found).taken
    have bound : n ≤ cs.length := bound
    have stop : position + 1 + n + (cs.drop n).length = position + (c :: cs).length := by
      rw [List.length_drop, List.length_cons]
      omega
    rw [stop] at ih
    cases hs : scan (position + 1 + n) (cs.drop n) with
    | error f =>
      rw [hs] at ih
      exact ih
    | ok rest =>
      rw [hs] at ih
      cases kind? with
      | none => exact ih
      | some kind =>
        refine List.forall_mem_cons.mpr ⟨genuine_ofSlice ?_ ?_, ih⟩
        · rw [String.toList_ofList]
          exact (writes kind rfl).writes
        · rw [String.length_ofList, List.length_cons, List.length_cons,
            List.length_take_of_le bound]
          omega

end Token

/-- The tokens of a source are genuine, and a source that has none is refused
    within. -/
theorem Tokens.genuine_ofChars (cs : List Char) :
    match ofChars cs with
    | .ok ts => ts.stop = cs.length ∧ ∀ t ∈ ts.body, t.IsGenuine ts.stop
    | .error (_, p) => p ≤ cs.length := by
  have scanned := Token.scan_genuine 0 cs
  rw [Nat.zero_add] at scanned
  unfold ofChars
  cases hs : Token.scan 0 cs with
  | error f =>
    rw [hs] at scanned
    exact scanned
  | ok ts =>
    rw [hs] at scanned
    exact ⟨rfl, scanned⟩

end Cascade
