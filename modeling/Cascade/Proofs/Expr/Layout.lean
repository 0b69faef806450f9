-- SUMMARY: Where the tokens of a source lie in it: which characters each was cut from, that the cuts leave nothing but blanks, and where a source that has no tokens goes wrong.
import Cascade.Proofs.Expr.Slices

/-! # The layout of a source

Tokens are cut from a source one after the other, and what is left between them is
blank. A token is its slice, except that keywords are written in one way only. If a
source is refused, the part of it in front of the refused character is laid out like
any source, and that character is neither blank nor the first one of a slice. -/

namespace Cascade

/-! ## Tokens and their slices -/

/-- What a slice becomes as a token: the same text, but for keywords. -/
inductive Becomes (slice : List Char) : TokenKind → String → Prop
  | keyword : Slice .word slice → (String.ofList slice).toLower ∈ Token.keywords →
    Becomes slice .keyword (String.ofList slice).toLower
  | symbol {word : String} :
    (String.ofList slice, word) ∈ [("&&", "and"), ("||", "or"), ("!", "not")] →
    Becomes slice .keyword word
  | plain {kind : TokenKind} : Slice kind slice →
    (kind = .word → (String.ofList slice).toLower ∉ Token.keywords) →
    (kind = .operator → String.ofList slice ∉ ["&&", "||", "!"]) →
    Becomes slice kind (String.ofList slice)

namespace Becomes

/-- A text that is a slice as it stands becomes that text. -/
theorem of_text {kind : TokenKind} {s : String} (sliced : Slice kind s.toList)
    (noKeyword : kind = .word → s.toLower ∉ Token.keywords)
    (noSymbol : kind = .operator → s ∉ ["&&", "||", "!"]) : Becomes s.toList kind s := by
  have plain : Becomes s.toList kind (String.ofList s.toList) :=
    .plain sliced (by rwa [String.ofList_toList]) (by rwa [String.ofList_toList])
  rwa [String.ofList_toList] at plain

/-- A keyword in its plain spelling. -/
theorem of_keyword {s : String} (named : IsName s.toList) (plain : s.toLower = s)
    (known : s ∈ Token.keywords) : Becomes s.toList .keyword s := by
  have keyword := Becomes.keyword (.word named)
  rw [String.ofList_toList, plain] at keyword
  exact keyword known

/-- All but keywords are their slices. -/
theorem sliced {slice : List Char} {kind : TokenKind} {text : String}
    (h : Becomes slice kind text) (other : kind ≠ .keyword) :
    text = String.ofList slice ∧ Slice kind slice := by
  cases h with
  | keyword | symbol => exact absurd rfl other
  | plain sliced => exact ⟨rfl, sliced⟩

end Becomes

/-- A token and the characters that it was cut from. -/
structure Cut where
  slice : List Char
  token : Token

/-- Whether a token was cut from the character at a position, among others. -/
def Cut.Reaches (cut : Cut) (i : Nat) : Prop :=
  cut.token.position ≤ i ∧ i < cut.token.position + cut.slice.length

/-- A text that starts at a position is laid out in tokens and blanks. -/
inductive Layout : Nat → List Char → List Cut → Prop
  | nil {position : Nat} : Layout position [] []
  | blank {position : Nat} {c : Char} {cs : List Char} {cuts : List Cut} :
    Text.isBlank c → Layout (position + 1) cs cuts → Layout position (c :: cs) cuts
  | cut {position : Nat} {slice rest : List Char} {kind : TokenKind} {text : String}
    {cuts : List Cut} : Becomes slice kind text → Layout (position + slice.length) rest cuts →
    Layout position (slice ++ rest) (⟨slice, ⟨kind, text, position⟩⟩ :: cuts)

/-- The cuts of a source take each character once or leave it, in which case it is
    blank. -/
structure Covered (source : List Char) (cuts : List Cut) : Prop where
  taken : ∀ cut ∈ cuts, ∃ before after,
    source = before ++ (cut.slice ++ after) ∧ cut.token.position = before.length
  becomes : ∀ cut ∈ cuts, Becomes cut.slice cut.token.kind cut.token.text
  increasing : (cuts.map (·.token.position)).Pairwise (· < ·)
  once : ∀ (i : Nat) (h : i < source.length), (∃! cut, cut ∈ cuts ∧ cut.Reaches i) ∨
    Text.isBlank source[i] ∧ ∀ cut ∈ cuts, ¬cut.Reaches i

/-! ## What slices become -/

namespace Token

theorem spelledOut?_eq_some {s word : String} : spelledOut? s = some word ↔
    (s, word) ∈ [("&&", "and"), ("||", "or"), ("!", "not")] := by
  unfold spelledOut?
  split <;> simp_all [eq_comm]

theorem spelledOut?_eq_none {s : String} : spelledOut? s = none ↔ s ∉ ["&&", "||", "!"] := by
  unfold spelledOut?
  split <;> simp_all

/-- The token of a slice has the place of the slice and what the slice becomes. -/
theorem becomes_ofSlice {kind : TokenKind} {slice : List Char} (h : Slice kind slice)
    (position : Nat) : ∃ kind' text, Becomes slice kind' text ∧
      ofSlice kind (String.ofList slice) position = ⟨kind', text, position⟩ := by
  unfold ofSlice
  dsimp only
  split
  · split
    · rename_i keyword
      exact ⟨_, _, .keyword h keyword, rfl⟩
    · rename_i other
      exact ⟨_, _, .plain h (fun _ => other) nofun, rfl⟩
  · rename_i word spelled
    exact ⟨_, _, .symbol (spelledOut?_eq_some.mp spelled), rfl⟩
  · rename_i noWord noSymbol
    refine ⟨_, _, .plain h (fun hk => absurd hk noWord) ?_, rfl⟩
    rintro rfl
    refine spelledOut?_eq_none.mp (Option.eq_none_iff_forall_ne_some.mpr fun word => ?_)
    exact noSymbol word rfl

/-- What a slice becomes is its token. -/
theorem ofSlice_of_becomes {slice : List Char} {kind : TokenKind} {text : String}
    (h : Becomes slice kind text) : ∃ cut, Slice cut slice ∧
      ∀ position, ofSlice cut (String.ofList slice) position = ⟨kind, text, position⟩ := by
  cases h with
  | keyword sliced keyword => exact ⟨.word, sliced, fun position => by simp [ofSlice, keyword]⟩
  | symbol spelled =>
    have known : ∀ p ∈ [("&&", "and"), ("||", "or"), ("!", "not")], p.1 ∈ operatorTexts := by decide
    refine ⟨.operator, .operator (known _ spelled), fun position => ?_⟩
    simp [ofSlice, spelledOut?_eq_some.mpr spelled]
  | plain sliced noKeyword noSymbol =>
    refine ⟨kind, sliced, fun position => ?_⟩
    cases kind with
    | word => simp [ofSlice, noKeyword rfl]
    | operator => simp [ofSlice, spelledOut?_eq_none.mpr (noSymbol rfl)]
    | _ => rfl

end Token

theorem Becomes.ne_nil {slice : List Char} {kind : TokenKind} {text : String}
    (h : Becomes slice kind text) : slice ≠ [] := by
  obtain ⟨cut, sliced, -⟩ := Token.ofSlice_of_becomes h
  exact sliced.ne_nil

/-! ## What is laid out is covered -/

namespace Layout

variable {position : Nat} {cs : List Char} {cuts : List Cut}

/-- A run of blanks leaves no cut. -/
theorem blanks {front : List Char} (blank : ∀ c ∈ front, Text.isBlank c)
    (h : Layout (position + front.length) cs cuts) : Layout position (front ++ cs) cuts := by
  induction front generalizing position with
  | nil => exact h
  | cons c front ih =>
    obtain ⟨first, others⟩ := List.forall_mem_cons.mp blank
    refine .blank first (ih others ?_)
    rwa [List.length_cons, ← Nat.add_assoc, Nat.add_right_comm] at h

/-- Cuts lie in the text that they are of. -/
theorem taken (h : Layout position cs cuts) : ∀ cut ∈ cuts, ∃ before after,
    cs = before ++ (cut.slice ++ after) ∧ cut.token.position = position + before.length := by
  induction h with
  | nil => exact nofun
  | @blank position c cs cuts _ _ ih =>
    intro cut mem
    obtain ⟨before, after, rfl, place⟩ := ih cut mem
    exact ⟨c :: before, after, rfl, by rw [place, List.length_cons]; omega⟩
  | @cut position slice rest kind text cuts _ _ ih =>
    refine List.forall_mem_cons.mpr ⟨⟨[], rest, rfl, rfl⟩, fun cut mem => ?_⟩
    obtain ⟨before, after, rfl, place⟩ := ih cut mem
    exact ⟨slice ++ before, after, by simp, by rw [place, List.length_append, Nat.add_assoc]⟩

theorem becomes (h : Layout position cs cuts) :
    ∀ cut ∈ cuts, Becomes cut.slice cut.token.kind cut.token.text := by
  induction h with
  | nil => exact nofun
  | blank _ _ ih => exact ih
  | cut fair _ ih => exact List.forall_mem_cons.mpr ⟨fair, ih⟩

theorem le_position (h : Layout position cs cuts) :
    ∀ cut ∈ cuts, position ≤ cut.token.position := by
  intro cut mem
  obtain ⟨before, after, -, place⟩ := h.taken cut mem
  omega

theorem increasing (h : Layout position cs cuts) :
    (cuts.map (·.token.position)).Pairwise (· < ·) := by
  induction h with
  | nil => exact .nil
  | blank _ _ ih => exact ih
  | cut fair later ih =>
    refine List.pairwise_cons.mpr ⟨?_, ih⟩
    have some := List.length_pos_iff.mpr fair.ne_nil
    refine List.forall_mem_map.mpr fun cut mem => ?_
    have after := later.le_position cut mem
    dsimp only
    omega

/-- A cut starts in front of the end, since its slice has characters. -/
theorem position_lt (h : Layout position cs cuts) :
    ∀ cut ∈ cuts, cut.token.position < position + cs.length := by
  intro cut mem
  obtain ⟨before, after, rfl, place⟩ := h.taken cut mem
  have some := List.length_pos_iff.mpr (h.becomes cut mem).ne_nil
  simp only [List.length_append]
  omega

/-- Every character is taken once, or is blank and left. -/
theorem once (h : Layout position cs cuts) (i : Nat) (within : i < cs.length) :
    (∃! cut, cut ∈ cuts ∧ cut.Reaches (position + i)) ∨
      Text.isBlank cs[i] ∧ ∀ cut ∈ cuts, ¬cut.Reaches (position + i) := by
  induction h generalizing i with
  | nil => cases within
  | @blank position c cs cuts blank later ih =>
    cases i with
    | zero =>
      refine .inr ⟨blank, fun cut mem reaches => ?_⟩
      have after := later.le_position cut mem
      have before := reaches.1
      omega
    | succ i =>
      have shifted : position + (i + 1) = position + 1 + i := by omega
      rw [shifted]
      exact ih i (Nat.lt_of_succ_lt_succ within)
  | @cut position slice rest kind text cuts fair later ih =>
    by_cases inside : i < slice.length
    · refine .inl ⟨⟨slice, ⟨kind, text, position⟩⟩, ⟨List.mem_cons_self .., ?_⟩, ?_⟩
      · exact ⟨Nat.le_add_right .., Nat.add_lt_add_left inside _⟩
      · rintro cut ⟨mem, reaches⟩
        rcases List.mem_cons.mp mem with rfl | mem
        · rfl
        · have after := later.le_position cut mem
          have before := reaches.1
          omega
    · obtain ⟨j, rfl⟩ := Nat.exists_eq_add_of_le (Nat.le_of_not_lt inside)
      have within' : j < rest.length := by
        rw [List.length_append] at within
        omega
      have passed : ¬(⟨slice, ⟨kind, text, position⟩⟩ : Cut).Reaches
          (position + (slice.length + j)) := by
        rintro ⟨-, bound⟩
        dsimp only at bound
        omega
      rw [List.getElem_append_right (Nat.le_add_right ..)]
      simp only [Nat.add_sub_cancel_left, ← Nat.add_assoc] at passed ⊢
      rcases ih j within' with ⟨cut, ⟨mem, reaches⟩, unique⟩ | ⟨blank, left⟩
      · refine .inl ⟨cut, ⟨List.mem_cons_of_mem _ mem, reaches⟩, ?_⟩
        rintro other ⟨mem', reaches'⟩
        rcases List.mem_cons.mp mem' with rfl | mem'
        · exact absurd reaches' passed
        · exact unique other ⟨mem', reaches'⟩
      · exact .inr ⟨blank, List.forall_mem_cons.mpr ⟨passed, left⟩⟩

theorem covered (h : Layout 0 cs cuts) : Covered cs cuts where
  taken := by simpa using h.taken
  becomes := h.becomes
  increasing := h.increasing
  once := by simpa using h.once

end Layout

/-! ## Tokens are cut from a source -/

namespace Token

/-- A lexeme in front of a text that is laid out is laid out with it. -/
theorem layout_first {c : Char} {cs rest : List Char} {kind? : Option TokenKind}
    {n position : Nat} {cuts : List Cut} (found : Lexeme.first? c cs = some ⟨kind?, n⟩)
    (h : Layout (position + 1 + n) rest cuts) :
    Layout position (c :: cs.take n ++ rest) <|
      match kind? with
      | some kind =>
        ⟨c :: cs.take n, ofSlice kind (String.ofList (c :: cs.take n)) position⟩ :: cuts
      | none => cuts := by
  obtain ⟨bound, sliced, blank⟩ := (Lexeme.cuts_first found).taken
  have bound : n ≤ cs.length := bound
  have length : position + (c :: cs.take n).length = position + 1 + n := by
    rw [List.length_cons, List.length_take_of_le bound]
    omega
  rw [← length] at h
  cases kind? with
  | none => exact .blanks (blank rfl) h
  | some kind =>
    obtain ⟨kind', text, becomes, same⟩ := becomes_ofSlice (sliced kind rfl) position
    dsimp only at same ⊢
    rw [same]
    exact .cut becomes h

/-- The tokens of a text are laid out in it; a text that is refused is laid out up to
    the refused character. -/
theorem scan_layout (position : Nat) (cs : List Char) :
    match scan position cs with
    | .ok ts => ∃ cuts, Layout position cs cuts ∧ cuts.map (·.token) = ts
    | .error (cause, p) => ∃ before c rest cuts, cs = before ++ c :: rest ∧
        cause = .unexpectedCharacter c ∧ p = position + before.length ∧
        Layout position before cuts ∧ Lexeme.first? c rest = none := by
  fun_induction scan position cs with
  | case1 => exact ⟨[], .nil, rfl⟩
  | case2 position c cs none => exact ⟨[], c, cs, [], rfl, rfl, rfl, .nil, none⟩
  | case3 position c cs kind? n found ih =>
    have whole : c :: cs = c :: cs.take n ++ cs.drop n := by
      rw [List.cons_append, List.take_append_drop]
    cases hs : scan (position + 1 + n) (cs.drop n) with
    | error f =>
      rw [hs] at ih
      obtain ⟨before, d, rest, cuts, split, cause, place, laid, none⟩ := ih
      have bound : n ≤ cs.length := (Lexeme.cuts_first found).taken.1
      refine ⟨c :: cs.take n ++ before, d, rest, _, ?_, cause, ?_, layout_first found laid, none⟩
      · rw [whole, split, List.append_assoc]
      · rw [place, List.length_append, List.length_cons, List.length_take_of_le bound]
        omega
    | ok ts =>
      rw [hs] at ih
      obtain ⟨cuts, laid, rfl⟩ := ih
      have laid' := layout_first found laid
      rw [← whole] at laid'
      cases kind? with
      | none => exact ⟨_, laid', rfl⟩
      | some kind => exact ⟨_, laid', rfl⟩

end Token

/-! ## The whole source -/

namespace Tokens

/-- The tokens of a source are laid out in it. -/
theorem layout_ofSource {source : String} {ts : Tokens} (h : ofSource source = .ok ts) :
    ts.stop = source.length ∧
      ∃ cuts, Layout 0 source.toList cuts ∧ cuts.map (·.token) = ts.body := by
  have laid := Token.scan_layout 0 source.toList
  unfold ofSource ofChars at h
  cases hs : Token.scan 0 source.toList with
  | error f =>
    rw [hs] at h
    cases h
  | ok body =>
    rw [hs] at h laid
    cases h
    exact ⟨rfl, laid⟩

/-- What has no tokens is laid out up to a character with which nothing starts. -/
theorem layout_of_refused {source : String} {fault : Fault} (h : ofSource source = .error fault) :
    ∃ before c rest cuts, source.toList = before ++ c :: rest ∧
      fault = .malformed (.unexpectedCharacter c) (.str source) before.length ∧
      Layout 0 before cuts ∧ Lexeme.first? c rest = none := by
  have laid := Token.scan_layout 0 source.toList
  unfold ofSource ofChars at h
  cases hs : Token.scan 0 source.toList with
  | error refusal =>
    obtain ⟨cause, p⟩ := refusal
    rw [hs] at h laid
    cases h
    obtain ⟨before, c, rest, cuts, split, rfl, place, laid, none⟩ := laid
    refine ⟨before, c, rest, cuts, split, ?_, laid, none⟩
    rw [place, Nat.zero_add]
  | ok body =>
    rw [hs] at h
    cases h

theorem positions_listing (ts : Tokens) :
    ts.listing.map (·.2.2) = ts.body.map (·.position) ++ [ts.stop] := by
  simp [listing, Function.comp_def]

/-- Every source either is cut into tokens that cover it, but for blanks, and that the
    end of the source closes, or covered so far it has a character that is no blank and
    with which no slice starts. -/
theorem ofSource_covers (source : String) :
    match ofSource source with
    | .ok ts => (∃ cuts, Covered source.toList cuts ∧ cuts.map (·.token) = ts.body) ∧
        (ts.listing.map (·.2.2)).Pairwise (· < ·) ∧
        ts.listing.getLast? = some ("eof", "", source.length)
    | .error fault => ∃ before c rest, source.toList = before ++ c :: rest ∧
        fault = .malformed (.unexpectedCharacter c) (.str source) before.length ∧
        (∃ cuts, Covered before cuts) ∧ Text.isBlank c = false ∧
        ∀ kind slice, Slice kind slice → ¬slice <+: c :: rest := by
  cases h : ofSource source with
  | ok ts =>
    obtain ⟨stop, cuts, laid, body⟩ := layout_ofSource h
    refine ⟨⟨cuts, laid.covered, body⟩, ?_, ?_⟩
    · rw [positions_listing, ← body, stop, List.map_map]
      refine List.pairwise_append.mpr ⟨laid.increasing, List.pairwise_singleton .., ?_⟩
      intro p mem q last
      obtain ⟨cut, found, rfl⟩ := List.mem_map.mp mem
      rw [List.mem_singleton.mp last]
      have inside := laid.position_lt cut found
      rwa [Nat.zero_add, String.length_toList] at inside
    · simp [listing, stop]
  | error fault =>
    obtain ⟨before, c, rest, cuts, whole, cause, laid, none⟩ := layout_of_refused h
    obtain ⟨blank, nothing⟩ := Lexeme.nothing_of_first?_none none
    exact ⟨before, c, rest, whole, cause, ⟨cuts, laid.covered⟩, blank, nothing⟩

end Tokens

end Cascade
