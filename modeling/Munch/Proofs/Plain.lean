import Mathlib.Data.List.Infix
import Munch.Proofs.Standard
import Munch.Proofs.Stream
import Munch.RuleTable.Update

/-! Sources without errors. A candidate that has a kind goes on only to a text that has one as well, or to the opener of
    a comment. So where each character can be a token and no comment opens, every candidate has a kind, and none is left
    over at the end of the source. -/

namespace Munch

namespace RuleTable
variable {r : RuleTable} {source w v : Text} {c d : Char} {k : Kind}

/-- Each character of the source that is not skipped is of some kind by itself, and no comment opens in the source. -/
structure Plain (r : RuleTable) (source : Text) : Prop where
  classified : ∀ c ∈ source, c ∉ blanks → r.classify [c] ≠ none
  unopened : ∀ p ∈ r.commentPairs, ¬p.opener <:+: source

instance (r : RuleTable) (source : Text) : Decidable (r.Plain source) :=
  decidable_of_iff ((source.all fun c => decide (c ∈ blanks) || (r.classify [c]).isSome) = true ∧
      (r.commentPairs.all fun p => decide ¬p.opener <:+: source) = true) <| by
    simp only [List.all_eq_true, Bool.or_eq_true, decide_eq_true_eq, Option.isSome_iff_ne_none]
    constructor
    · rintro ⟨hall, ho⟩
      exact ⟨fun c hc hblank => (hall c hc).resolve_left hblank, ho⟩
    · intro h
      exact ⟨fun c hc => or_iff_not_imp_left.mpr (h.classified c hc), h.unopened⟩

theorem classify_ne_none_of_grows (hw : r.classify w ≠ none) (hgrows : r.endKind? w (some d) = none)
    (ho : r.isCommentOpener (w ++ [d]) = false) : r.classify (w ++ [d]) ≠ none := by
  obtain ⟨k, hk⟩ := Option.ne_none_iff_exists'.mp hw
  intro hnone
  have hends : r.endKind? w (some d) = some k := by
    rw [endKind?_eq_some_iff]
    refine ⟨hk, fun e he => ?_⟩
    cases he
    simp [growsTo, ho, hnone]
  rw [hgrows] at hends
  cases hends

namespace Plain

theorem isCommentOpener_eq_false (h : r.Plain source) (hw : w <:+: source) : r.isCommentOpener w = false := by
  rw [isCommentOpener, List.any_eq_false]
  intro p hp heq
  rw [beq_iff_eq] at heq
  exact h.unopened p hp (heq ▸ hw)

/-- A candidate keeps having a kind through all characters that it grows by. -/
theorem classify_ne_none (h : r.Plain source) (hw : r.classify w ≠ none) (hgrows : r.GrowsThrough w v)
    (hwv : w ++ v <:+: source) : r.classify (w ++ v) ≠ none := by
  induction v generalizing w with
  | nil => rwa [List.append_nil]
  | cons d v ih =>
    rw [List.append_cons] at hwv ⊢
    have hlonger : w ++ [d] <:+: source := (List.prefix_append (w ++ [d]) v).isInfix.trans hwv
    exact ih (classify_ne_none_of_grows hw hgrows.1 (h.isCommentOpener_eq_false hlonger)) hgrows.2 hwv

theorem not_stuck (h : r.Plain source) (hc : isBlank c = false) (hcv : c :: v <:+: source) : ¬r.Stuck c v := by
  intro hstuck
  have hfirst : r.classify [c] ≠ none := h.classified c (hcv.mem List.mem_cons_self) (not_mem_blanks_iff.mpr hc)
  exact h.classify_ne_none hfirst hstuck.grows hcv hstuck.unclassified

end Plain

end RuleTable

/-- A plain source has tokens only. -/
theorem exists_tokens_of_plain {r : RuleTable} {source : Text} (h : r.Plain source) (file? : Option Text) :
    ∃ ts, tokenize r source file? = .ok ts := by
  cases hanswer : tokenize r source file? with
  | ok ts => exact ⟨ts, rfl⟩
  | error e =>
    obtain ⟨i, c, v, hdrop, hc, hstuck, -⟩ := exists_stuck_of_tokenize hanswer
    exact absurd hstuck (h.not_stuck hc (hdrop ▸ (List.drop_suffix i source).isInfix))

/-- Only the closers of comments stand in the source, and the operator `->` grows through two operators. -/
theorem exists_tokens_of_plain_closers :
    let r := (RuleTable.standard.add (.operator ['-', '>'])).add (.operator ['>'])
    let source := "x->1*/\n".toList
    r.Plain source ∧ ∃ ts, tokenize r source none = .ok ts := by
  intro r source
  have h : r.Plain source := by decide
  exact ⟨h, exists_tokens_of_plain h none⟩

/-! ### Plain sources of the language itself -/

namespace RuleTable
variable {source : Text} {c : Char}

/-- The characters that are tokens by themselves, besides letters, digits and the underscore. -/
def signs : List Char := ['.', '=', '+', '-', '*', '/', '(', ')', '\x7b', '\x7d', ',', '\n']

theorem isLiteral_singleton : standard.isLiteral [c] = isNumeral [c] := by
  simp [isLiteral, isBounded, isBool, standard]

theorem admits_singleton {k : Kind} (h : standard.admits k [c] = true) : isWordChar c = true ∨ c ∈ signs := by
  cases k with
  | literal =>
    rw [admits, isLiteral_singleton] at h
    rcases Numeral.of_isNumeral h with hall | ⟨-, hall⟩
    · rcases Numeral.isFractionChar_iff.mp (hall c List.mem_cons_self) with hdigit | rfl | rfl | rfl
      · exact Or.inl (Numeral.isWordChar_of_isDecimalDigit hdigit)
      · exact Or.inr (by decide)
      · exact Or.inl (by decide)
      · exact Or.inr (by decide)
    · exact Or.inl (hall c List.mem_cons_self)
  | keyword => exact Or.inl (isWordChar_of_isKeyword h c List.mem_cons_self)
  | identifier => exact Or.inl (by simpa [admits, isIdentifier_eq] using h)
  | operator =>
    have hmem := isOperator_iff.mp h
    simp only [standard, List.mem_cons, List.cons.injEq, and_true, List.not_mem_nil, or_false, reduceCtorEq,
      and_false, false_or] at hmem
    rcases hmem with rfl | rfl | rfl | rfl | rfl <;> exact Or.inr (by decide)
  | breaker =>
    have hmem := isBreaker_iff.mp h
    simp only [standard, List.mem_cons, List.cons.injEq, and_true, List.not_mem_nil, or_false] at hmem
    rcases hmem with rfl | rfl | rfl | rfl | rfl <;> exact Or.inr (by decide)
  | newline =>
    obtain rfl : c = '\n' := by simpa [admits] using h
    exact Or.inr (by decide)
  | comment => simp [admits, isComment_iff, List.isPrefixOf] at h

theorem classify_singleton_ne_none_iff : standard.classify [c] ≠ none ↔ isWordChar c = true ∨ c ∈ signs := by
  constructor
  · intro h
    obtain ⟨k, hk⟩ := Option.ne_none_iff_exists'.mp h
    exact admits_singleton (admits_of_classify hk)
  · rintro (hword | hsign) hnone
    · have hidentifier := classify_eq_none_iff.mp hnone .identifier
      simp [admits, isIdentifier_eq, hword] at hidentifier
    · have hall : (signs.all fun c => (standard.classify [c]).isSome) = true := by decide
      have hsome := List.all_eq_true.mp hall c hsign
      rw [hnone] at hsome
      cases hsome

/-- A source is plain when it is made of blanks, word characters and signs, and no two signs open a comment. -/
theorem plain_standard_iff : standard.Plain source ↔
    (∀ c ∈ source, c ∈ blanks ∨ isWordChar c = true ∨ c ∈ signs) ∧
      ¬['/', '/'] <:+: source ∧ ¬['/', '*'] <:+: source := by
  have hopeners : (∀ p ∈ standard.commentPairs, ¬p.opener <:+: source) ↔
      ¬['/', '/'] <:+: source ∧ ¬['/', '*'] <:+: source := by
    simp [standard]
  have hchar (c : Char) : (c ∉ blanks → standard.classify [c] ≠ none) ↔
      c ∈ blanks ∨ isWordChar c = true ∨ c ∈ signs := by
    rw [classify_singleton_ne_none_iff, ← or_iff_not_imp_left]
  constructor
  · intro h
    exact ⟨fun c hc => (hchar c).mp (h.classified c hc), hopeners.mp h.unopened⟩
  · rintro ⟨hall, ho⟩
    exact ⟨fun c hc => (hchar c).mpr (hall c hc), hopeners.mpr ho⟩

end RuleTable

end Munch
