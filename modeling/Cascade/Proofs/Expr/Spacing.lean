-- SUMMARY: Blanks between tokens: the slices of a source, put down with any blanks between them, are cut into the same tokens again and write the same expression.
import Cascade.Proofs.Expr.Displaced
import Cascade.Proofs.Expr.Layout
import Cascade.Proofs.Outcome

/-! # The same tokens further apart

A slice that is found where it stands apart from what follows is found wherever it
does. So the slices of a source can be put down anew, with blanks between them and
around them as one likes, and cut into tokens again they are what they were, only
elsewhere. The expression that they write is the same one, and where they write none
the refusal is the same and points into the same slice. -/

namespace Cascade

/-- Slices one after the other, with a blank or more between two of them; in front and
    at the end there may be blanks as well. -/
inductive Spaced : List (List Char) → List Char → Prop
  | nil {gap : List Char} : (∀ c ∈ gap, Text.isBlank c) → Spaced [] gap
  | cons {gap slice text : List Char} {slices : List (List Char)} :
    (∀ c ∈ gap, Text.isBlank c) →
    (slices ≠ [] → ∃ c rest, text = c :: rest ∧ Text.isBlank c) →
    Spaced slices text → Spaced (slice :: slices) (gap ++ (slice ++ text))

/-- A token that is the one of a slice, but for its position. -/
def Cut.Reads (cut : Cut) (t : Token) : Prop := cut.token.kind = t.kind ∧ cut.token.text = t.text

/-! ## Blanks and slices are passed over -/

namespace Token

theorem scan_nil (position : Nat) : scan position [] = .ok [] := by
  rw [scan]

/-- A run of blanks is one lexeme. -/
theorem scan_blanks {c : Char} (blank : Text.isBlank c) (position : Nat) (cs : List Char) :
    scan position (c :: cs) =
      scan (position + 1 + Lexeme.run Text.isBlank cs) (cs.drop (Lexeme.run Text.isBlank cs)) := by
  rw [scan, Lexeme.first?, if_pos blank]
  exact bind_pure _

theorem scan_blank {c : Char} (blank : Text.isBlank c) (position : Nat) (cs : List Char) :
    scan position (c :: cs) = scan (position + 1) cs := by
  rw [scan_blanks blank]
  cases cs with
  | nil => rw [List.drop_nil, scan_nil, scan_nil]
  | cons d ds =>
    by_cases next : Text.isBlank d
    · have counted : Lexeme.run Text.isBlank (d :: ds) = Lexeme.run Text.isBlank ds + 1 := by
        rw [Lexeme.run, List.takeWhile_cons_of_pos next, List.length_cons, Lexeme.run]
      rw [scan_blanks next, counted, List.drop_succ_cons]
      exact congrArg (scan · _) (by omega)
    · have counted : Lexeme.run Text.isBlank (d :: ds) = 0 := by
        rw [Lexeme.run, List.takeWhile_cons_of_neg next, List.length_nil]
      rw [counted, List.drop_zero, Nat.add_zero]

theorem scan_gap {gap : List Char} (blank : ∀ c ∈ gap, Text.isBlank c) (position : Nat)
    (cs : List Char) : scan position (gap ++ cs) = scan (position + gap.length) cs := by
  induction gap generalizing position with
  | nil => rfl
  | cons c gap ih =>
    obtain ⟨first, others⟩ := List.forall_mem_cons.mp blank
    rw [List.cons_append, scan_blank first, ih others, List.length_cons, Nat.add_assoc,
      Nat.add_comm 1]

/-- What a slice becomes is found where the slice stands apart. -/
theorem scan_slice {slice rest : List Char} {kind : TokenKind} {text : String}
    (becomes : Becomes slice kind text) (apart : Lexeme.Apart rest) (position : Nat) :
    scan position (slice ++ rest) = (do
      return ⟨kind, text, position⟩ :: (← scan (position + slice.length) rest)) := by
  obtain ⟨cut, sliced, same⟩ := ofSlice_of_becomes becomes
  obtain ⟨c, front, rfl⟩ := List.exists_cons_of_ne_nil sliced.ne_nil
  rw [List.cons_append, scan, Lexeme.first?_of_slice sliced apart]
  simp only [List.drop_left, List.take_left, same, List.length_cons, Nat.add_assoc,
    Nat.add_comm 1]

end Token

/-! ## Slices put down anew -/

theorem Spaced.apart {slices : List (List Char)} {text : List Char} (h : Spaced slices text)
    (spaced : slices ≠ [] → ∃ c rest, text = c :: rest ∧ Text.isBlank c) : Lexeme.Apart text := by
  intro c hc
  have blank : Text.isBlank c := by
    cases h with
    | nil all => exact all c (List.mem_of_head? hc)
    | cons =>
      obtain ⟨d, rest, whole, blank⟩ := spaced nofun
      rw [whole, List.head?_cons] at hc
      cases hc
      exact blank
  simp [Lexeme.separates, blank]

/-- Slices with blanks between them are cut into what they become. -/
theorem Token.scan_spaced {cuts : List Cut} {text : List Char}
    (becomes : ∀ cut ∈ cuts, Becomes cut.slice cut.token.kind cut.token.text)
    (h : Spaced (cuts.map (·.slice)) text) (position : Nat) :
    ∃ ts, scan position text = .ok ts ∧
      List.Forall₂ Cut.Reads cuts ts := by
  induction cuts generalizing text position with
  | nil =>
    cases h with
    | nil gap =>
      refine ⟨[], ?_, .nil⟩
      have scanned := scan_gap gap position []
      rwa [List.append_nil, scan_nil] at scanned
  | cons cut cuts ih =>
    obtain ⟨first, others⟩ := List.forall_mem_cons.mp becomes
    cases h with
    | @cons lead _ text _ gap spaced later =>
      let start := position + lead.length
      obtain ⟨ts, scanned, same⟩ := ih others later (start + cut.slice.length)
      refine ⟨⟨cut.token.kind, cut.token.text, start⟩ :: ts, ?_, .cons ⟨rfl, rfl⟩ same⟩
      rw [scan_gap gap, scan_slice first (later.apart spaced), scanned]
      rfl

/-! ## The same expression -/

/-- Two places as far behind the start of a slice as behind that of the token that
    stands for it. -/
def SamePlace (cuts : List Cut) (ts : List Token) (p q : Nat) : Prop :=
  ∃ (i : Nat) (cut : Cut) (t : Token) (k : Nat), cuts[i]? = some cut ∧ ts[i]? = some t ∧
    k < cut.slice.length ∧ p = cut.token.position + k ∧ q = t.position + k

/-- Tokens of the same slices are displaced. -/
theorem displaced_of_same {cuts : List Cut} {ts : List Token}
    (becomes : ∀ cut ∈ cuts, Becomes cut.slice cut.token.kind cut.token.text)
    (same : List.Forall₂ Cut.Reads cuts ts) :
    List.Forall₂ (Expr.Displaced (SamePlace cuts ts)) (cuts.map (·.token)) ts := by
  rw [List.forall₂_map_left_iff]
  obtain ⟨length, each⟩ := List.forall₂_iff_get.mp same
  refine List.forall₂_iff_get.mpr ⟨length, fun i here there => ?_⟩
  obtain ⟨kind, text⟩ := each i here there
  have fair := becomes _ (List.get_mem cuts ⟨i, here⟩)
  have place (k : Nat) (within : k < (cuts.get ⟨i, here⟩).slice.length) :
      SamePlace cuts ts ((cuts.get ⟨i, here⟩).token.position + k)
        ((ts.get ⟨i, there⟩).position + k) :=
    ⟨i, _, _, k, List.getElem?_eq_getElem here, List.getElem?_eq_getElem there, within, rfl, rfl⟩
  refine ⟨kind, text, place 0 (List.length_pos_iff.mpr fair.ne_nil), fun string k within => ?_⟩
  refine place k ?_
  have other : (cuts.get ⟨i, here⟩).token.kind ≠ .keyword := string ▸ nofun
  rwa [(fair.sliced other).1, String.length_ofList] at within

namespace Expr

theorem parse_of_ofSource {source : String} {ts : Tokens} (h : Tokens.ofSource source = .ok ts) :
    parse source = (ofTokens ts.body).mapError fun failure =>
      .malformed failure.cause (.str source) (failure.position.getD ts.stop) := by
  rw [parse, h]
  rfl

/-- The slices of a source may be put down anew with any blanks between them: they make
    the same tokens, and with them the same expression, or are refused for the same
    cause, at the end or at the same place of the same slice. -/
theorem parse_respaced {source : String} {ts : Tokens} (h : Tokens.ofSource source = .ok ts) :
    (∃ cuts, Covered source.toList cuts ∧ cuts.map (·.token) = ts.body) ∧
    ∀ cuts, Covered source.toList cuts → cuts.map (·.token) = ts.body →
    ∀ other : String, Spaced (cuts.map (·.slice)) other.toList →
    ∃ us, Tokens.ofSource other = .ok us ∧
      us.body.map (fun u => (u.kind, u.text)) = ts.body.map (fun t => (t.kind, t.text)) ∧
      match parse source, parse other with
      | .ok e, .ok e' => e = e'
      | .error fault, .error fault' => ∃ cause p q,
          fault = .malformed cause (.str source) p ∧ fault' = .malformed cause (.str other) q ∧
          (p = source.length ∧ q = other.length ∨ SamePlace cuts us.body p q)
      | _, _ => False := by
  obtain ⟨stop, cuts, laid, body⟩ := Tokens.layout_ofSource h
  refine ⟨⟨cuts, laid.covered, body⟩, fun cuts covered body other spaced => ?_⟩
  obtain ⟨us, scanned, same⟩ := Token.scan_spaced covered.becomes spaced 0
  have found : Tokens.ofSource other = .ok ⟨us, other.toList.length⟩ := by
    rw [Tokens.ofSource, Tokens.ofChars, scanned]
    rfl
  have displaced := displaced_of_same covered.becomes same
  refine ⟨_, found, ?_, ?_⟩
  · rw [← body]
    have alike := displaced.imp fun t u (d : Displaced _ t u) =>
      show (u.kind, u.text) = (t.kind, t.text) from Prod.ext d.kind.symm d.text.symm
    rw [← List.forall₂_eq_eq_eq, List.forall₂_map_left_iff, List.forall₂_map_right_iff]
    exact alike.flip
  · have agreed := agree_ofTokens displaced
    rw [parse_of_ofSource h, parse_of_ofSource found, ← body]
    generalize ofTokens (cuts.map (·.token)) = x at agreed ⊢
    generalize ofTokens us = y at agreed ⊢
    cases agreed with
    | ok same => exact same
    | @refused f g cause place =>
      refine ⟨f.cause, f.position.getD ts.stop, g.position.getD other.toList.length, rfl, ?_, ?_⟩
      · rw [cause]
      · revert place
        generalize f.position = p
        generalize g.position = q
        rintro (meets | _)
        · exact .inr meets
        · exact .inl ⟨stop, String.length_toList⟩

namespace Ferry

/-- Who may board: those who pay and are not late. -/
def notice : String := "fare>=2&&!late"

def airy : String := "  fare >= 2\t&& !\n late"

def cuts : List Cut :=
  [⟨"fare".toList, ⟨.word, "fare", 0⟩⟩, ⟨">=".toList, ⟨.operator, ">=", 4⟩⟩,
    ⟨"2".toList, ⟨.int, "2", 6⟩⟩, ⟨"&&".toList, ⟨.keyword, "and", 7⟩⟩,
    ⟨"!".toList, ⟨.keyword, "not", 9⟩⟩, ⟨"late".toList, ⟨.word, "late", 10⟩⟩]

theorem notice_layout : Layout 0 notice.toList cuts := by
  have whole : notice.toList = "fare".toList ++ (">=".toList ++ ("2".toList ++ ("&&".toList ++
      ("!".toList ++ ("late".toList ++ []))))) := by decide
  rw [whole]
  refine .cut (.of_text (.word (by decide)) (fun _ => by decide +kernel) nofun) ?_
  refine .cut (.plain (.operator (by decide)) nofun fun _ => by decide) ?_
  refine .cut (.plain (.int (by decide)) nofun nofun) ?_
  refine .cut (.symbol (by decide)) ?_
  refine .cut (.symbol (by decide)) ?_
  exact .cut (.of_text (.word (by decide)) (fun _ => by decide +kernel) nofun) .nil

theorem airy_spaced : Spaced (cuts.map (·.slice)) airy.toList := by
  have whole : airy.toList = "  ".toList ++ ("fare".toList ++ (" ".toList ++ (">=".toList ++
      (" ".toList ++ ("2".toList ++ ("\t".toList ++ ("&&".toList ++ (" ".toList ++ ("!".toList ++
        ("\n ".toList ++ ("late".toList ++ []))))))))))) := by decide
  have between (c : Char) (blank : Text.isBlank c) (gap text : List Char) :
      ∃ d rest, c :: gap ++ text = d :: rest ∧ Text.isBlank d := ⟨c, _, rfl, blank⟩
  rw [whole]
  refine .cons (List.all_eq_true.mp rfl) (fun _ => between ' ' (by decide) ..) ?_
  refine .cons (List.all_eq_true.mp rfl) (fun _ => between ' ' (by decide) ..) ?_
  refine .cons (List.all_eq_true.mp rfl) (fun _ => between '\t' (by decide) ..) ?_
  refine .cons (List.all_eq_true.mp rfl) (fun _ => between ' ' (by decide) ..) ?_
  refine .cons (List.all_eq_true.mp rfl) (fun _ => between '\n' (by decide) ..) ?_
  exact .cons (List.all_eq_true.mp rfl) nofun (.nil nofun)

/-- The notice with room in it has the same tokens and says the same. -/
theorem airy_reads_alike :
    Tokens.ofSource notice = .ok ⟨cuts.map (·.token), 14⟩ ∧ Covered notice.toList cuts ∧
      Spaced (cuts.map (·.slice)) airy.toList ∧
      ∃ us, Tokens.ofSource airy = .ok us ∧
        us.body.map (fun u => (u.kind, u.text)) = cuts.map (fun c => (c.token.kind, c.token.text)) ∧
        match parse notice, parse airy with
        | .ok e, .ok e' => e = e'
        | .error fault, .error fault' => ∃ cause p q,
            fault = .malformed cause (.str notice) p ∧ fault' = .malformed cause (.str airy) q ∧
            (p = notice.length ∧ q = airy.length ∨ SamePlace cuts us.body p q)
        | _, _ => False := by
  have seen : (Tokens.ofSource notice).toOption.map id = some ⟨cuts.map (·.token), 14⟩ := by
    decide +kernel
  obtain ⟨_, scanned, rfl⟩ := exists_of_map_toOption seen
  have covered := notice_layout.covered
  obtain ⟨-, respaced⟩ := parse_respaced scanned
  obtain ⟨us, found, same, read⟩ := respaced cuts covered rfl airy airy_spaced
  exact ⟨scanned, covered, airy_spaced, us, found, same, read⟩

end Ferry

end Expr

end Cascade
