import Mathlib.Data.List.Basic
import Munch.Proofs.Grammar.Numerals

/-! The order of the tests. The kind of a text is the first one in an order whose test the text passes, so an order counts
    only for texts that pass several tests. Under the standard rules these are words: a keyword or a literal may be an
    identifier as well, and no other two tests overlap. So the order counts only in that identifiers come after these two. -/

namespace Munch

namespace RuleTable
variable {r : RuleTable} {ks ls : List Kind} {w : Text} {k l : Kind}

/-- The first kind of a list whose test a text passes. -/
def classifyBy (r : RuleTable) (ks : List Kind) (w : Text) : Option Kind := ks.find? fun k => r.admits k w

theorem classifyBy_eq_some_iff : r.classifyBy ks w = some k ↔
    k ∈ ks ∧ r.admits k w = true ∧ ∀ l, ks.idxOf l < ks.idxOf k → r.admits l w = false :=
  find?_eq_some_iff_idxOf

theorem idxOf_lt_of_classifyBy (hk : r.classifyBy ks w = some k) (hl : r.admits l w = true) (hne : k ≠ l) :
    ks.idxOf k < ks.idxOf l := by
  obtain ⟨hmem, -, hbefore⟩ := classifyBy_eq_some_iff.mp hk
  refine Nat.lt_of_le_of_ne (Nat.le_of_not_lt fun hlt => ?_) fun heq => hne ((List.idxOf_inj hmem).mp heq)
  rw [hbefore l hlt] at hl
  cases hl

/-! ### Tests that overlap in words -/

/-- The test for identifiers overlaps with those for literals and keywords at most, and no others overlap. -/
structure OverlapsInWords (r : RuleTable) : Prop where
  exclusive : ∀ w k l, k ≠ .identifier → l ≠ .identifier → r.admits k w = true → r.admits l w = true → k = l
  identifier : ∀ w, isIdentifier w = true → ∀ k ∈ [.operator, .breaker, .newline, .comment], r.admits k w = false

/-- In the order of the list, literals and keywords come before identifiers. -/
structure IdentifiersLater (ks : List Kind) : Prop where
  literal : ks.idxOf .literal < ks.idxOf .identifier
  keyword : ks.idxOf .keyword < ks.idxOf .identifier

namespace OverlapsInWords

theorem ne_identifier (h : r.OverlapsInWords) (hks : IdentifiersLater ks) (hk : r.classifyBy ks w = some k)
    (hl : r.admits l w = true) (hne : l ≠ .identifier) : k ≠ .identifier := by
  rintro rfl
  obtain ⟨-, hid, hbefore⟩ := classifyBy_eq_some_iff.mp hk
  have hfalse : r.admits l w = false := by
    cases l with
    | literal => exact hbefore _ hks.literal
    | keyword => exact hbefore _ hks.keyword
    | identifier => exact absurd rfl hne
    | operator | breaker | newline | comment => exact h.identifier w hid _ (by simp)
  rw [hfalse] at hl
  cases hl

theorem unique (h : r.OverlapsInWords) (hks : IdentifiersLater ks) (hls : IdentifiersLater ls)
    (hk : r.classifyBy ks w = some k) (hl : r.classifyBy ls w = some l) : k = l := by
  have hk' := (classifyBy_eq_some_iff.mp hk).2.1
  have hl' := (classifyBy_eq_some_iff.mp hl).2.1
  by_cases hid : l = .identifier
  · by_contra hne
    exact h.ne_identifier hls hl hk' (fun heq => hne (heq.trans hid.symm)) hid
  · exact h.exclusive w k l (h.ne_identifier hks hk hl' hid) hid hk' hl'

theorem classifyBy_eq (h : r.OverlapsInWords) (hmem : ∀ k, k ∈ ks) (hks : IdentifiersLater ks) (w : Text) :
    r.classifyBy ks w = r.classify w := by
  cases hk : r.classifyBy ks w with
  | none =>
    rw [eq_comm, classify_eq_none_iff]
    intro k
    simpa using List.find?_eq_none.mp hk k (hmem k)
  | some k =>
    cases hl : r.classify w with
    | none =>
      have := (classifyBy_eq_some_iff.mp hk).2.1
      rw [classify_eq_none_iff.mp hl k] at this
      cases this
    | some l => rw [h.unique hks ⟨by decide, by decide⟩ hk hl]

end OverlapsInWords

/-! ### The standard rules -/

/-- The words that are literals: truth values, and runs of digits and underscores, with the mark of a radix or without. -/
inductive LiteralWord : Text → Prop
  | truthValue {w : Text} (hw : w ∈ [['t', 'r', 'u', 'e'], ['f', 'a', 'l', 's', 'e']]) : LiteralWord w
  | integer {w : Text} (hne : w ≠ []) (hw : ∀ c ∈ w, c ∈ Grammar.decimalDigits) : LiteralWord w
  | binary {w : Text} (hw : ∀ c ∈ w, c ∈ Grammar.binaryDigits) : LiteralWord ('0' :: 'b' :: w)
  | octal {w : Text} (hw : ∀ c ∈ w, c ∈ Grammar.octalDigits) : LiteralWord ('0' :: 'o' :: w)
  | hexadecimal {w : Text} (hw : ∀ c ∈ w, c ∈ Grammar.hexadecimalDigits) : LiteralWord ('0' :: 'x' :: w)

/-- The texts that the table lists, and the newline. -/
def listed : List Text := standard.keywords ++ standard.operators ++ standard.breakers ++ [['\n']]

theorem admits_nil (k : Kind) : standard.admits k [] = false := by
  cases k <;> decide

theorem mem_listed (hk : k ∈ [.keyword, .operator, .breaker, .newline]) (h : standard.admits k w = true) : w ∈ listed := by
  simp only [listed, List.mem_append]
  cases k with
  | keyword => exact Or.inl (Or.inl (Or.inl (isKeyword_iff.mp h)))
  | operator => exact Or.inl (Or.inl (Or.inr (isOperator_iff.mp h)))
  | breaker => exact Or.inl (Or.inr (isBreaker_iff.mp h))
  | newline => exact Or.inr (List.mem_singleton.mpr (beq_iff_eq.mp h))
  | literal | identifier | comment => simp at hk

theorem eq_of_mem_listed (hw : w ∈ listed) (hk : k ≠ .identifier) (hl : l ≠ .identifier)
    (hkw : standard.admits k w = true) (hlw : standard.admits l w = true) : k = l := by
  have hall : ∀ w ∈ listed, ∀ k ∈ Kind.precedence, ∀ l ∈ Kind.precedence, k ≠ .identifier → l ≠ .identifier →
      standard.admits k w = true → standard.admits l w = true → k = l := by decide
  exact hall w hw k (Kind.mem_precedence k) l (Kind.mem_precedence l) hk hl hkw hlw

theorem isComment_eq_false_of_isLiteral (h : standard.isLiteral w = true) : standard.isComment w = false := by
  cases w with
  | nil => exact admits_nil .comment
  | cons c w =>
    refine admits_eq_false_of_starts (k := .comment) ?_
    rw [Bool.eq_false_iff]
    intro hslash
    obtain rfl : c = '/' := by simpa [starts] using hslash
    exact absurd (starts_literal_of_isLiteral h) (by decide)

theorem isWordChar_eq_false_of_starts {c : Char} (hk : k ∈ [.operator, .breaker, .newline, .comment])
    (h : starts k c = true) : isWordChar c = false := by
  cases k with
  | operator =>
    have hall : ([':', '=', '+', '-', '*', '/'].all fun d => !isWordChar d) = true := by decide
    simpa using List.all_eq_true.mp hall c (List.contains_iff_mem.mp h)
  | breaker =>
    have hall : (['(', ')', '\x7b', '\x7d', ','].all fun d => !isWordChar d) = true := by decide
    simpa using List.all_eq_true.mp hall c (List.contains_iff_mem.mp h)
  | newline =>
    obtain rfl : c = '\n' := beq_iff_eq.mp h
    decide
  | comment =>
    obtain rfl : c = '/' := beq_iff_eq.mp h
    decide
  | literal | keyword | identifier => simp at hk

theorem overlapsInWords_standard : standard.OverlapsInWords where
  exclusive w k l hk hl hkw hlw := by
    -- Only literals and comments are not listed.
    by_cases hlisted : w ∈ listed
    · exact eq_of_mem_listed hlisted hk hl hkw hlw
    have hfree {j : Kind} (hj : j ≠ .identifier) (hjw : standard.admits j w = true) : j = .literal ∨ j = .comment := by
      cases j with
      | literal => exact Or.inl rfl
      | comment => exact Or.inr rfl
      | identifier => exact absurd rfl hj
      | keyword | operator | breaker | newline => exact absurd (mem_listed (by simp) hjw) hlisted
    rcases hfree hk hkw with rfl | rfl <;> rcases hfree hl hlw with rfl | rfl
    · rfl
    · exact absurd hlw (by simp [admits, isComment_eq_false_of_isLiteral hkw])
    · exact absurd hkw (by simp [admits, isComment_eq_false_of_isLiteral hlw])
    · rfl
  identifier w hw k hk := by
    cases w with
    | nil => cases hw
    | cons c w =>
      have hc : isWordChar c = true := starts_of_admits (k := .identifier) hw
      refine admits_eq_false_of_starts ?_
      rw [Bool.eq_false_iff]
      intro hstarts
      rw [isWordChar_eq_false_of_starts hk hstarts] at hc
      cases hc

theorem isIdentifier_of_isKeyword (h : standard.isKeyword w = true) : isIdentifier w = true := by
  have hall : ∀ w ∈ standard.keywords, isIdentifier w = true := by decide
  exact hall w (isKeyword_iff.mp h)

theorem literalWord_of_isNumeral (hw : ∀ c ∈ w, isWordChar c = true) (h : isNumeral w = true) : LiteralWord w := by
  simp only [isNumeral, Bool.or_eq_true] at h
  rcases h with (((h | h) | h) | h) | h
  · simp only [Numeral.isInteger, Bool.and_eq_true, List.all_eq_true, Bool.not_eq_true', List.isEmpty_eq_false_iff] at h
    exact .integer h.1 fun c hc => Grammar.mem_decimalDigits.mpr (h.2 c hc)
  · simp only [Numeral.isFraction, Bool.and_eq_true, beq_iff_eq] at h
    rw [List.count_eq_zero.mpr (point_notMem_word hw)] at h
    cases h.2
  · obtain ⟨v, rfl, hv⟩ := Numeral.isRadix_iff.mp h
    exact .binary fun c hc => Grammar.mem_binaryDigits.mpr (hv c hc)
  · obtain ⟨v, rfl, hv⟩ := Numeral.isRadix_iff.mp h
    exact .octal fun c hc => Grammar.mem_octalDigits.mpr (hv c hc)
  · obtain ⟨v, rfl, hv⟩ := Numeral.isRadix_iff.mp h
    exact .hexadecimal fun c hc => Grammar.mem_hexadecimalDigits.mpr (hv c hc)

theorem isLiteral_of_isNumeral (h : isNumeral w = true) : standard.isLiteral w = true := by
  simp [isLiteral, h]

theorem LiteralWord.isLiteral (h : LiteralWord w) : standard.isLiteral w = true := by
  cases h with
  | truthValue hw => simp [RuleTable.isLiteral, isBool_iff.mpr hw]
  | integer hne hw =>
    exact isLiteral_of_isNumeral (Numeral.isNumeral_of_digits hne fun c hc => Grammar.mem_decimalDigits.mp (hw c hc))
  | binary hw =>
    refine isLiteral_of_isNumeral ?_
    rw [(Numeral.isNumeral_radix _).1, List.all_eq_true]
    exact fun c hc => Grammar.mem_binaryDigits.mp (hw c hc)
  | octal hw =>
    refine isLiteral_of_isNumeral ?_
    rw [(Numeral.isNumeral_radix _).2.1, List.all_eq_true]
    exact fun c hc => Grammar.mem_octalDigits.mp (hw c hc)
  | hexadecimal hw =>
    refine isLiteral_of_isNumeral ?_
    rw [(Numeral.isNumeral_radix _).2.2, List.all_eq_true]
    exact fun c hc => Grammar.mem_hexadecimalDigits.mp (hw c hc)

theorem isIdentifier_radix {mark : Char} {ds : List Char} (hm : isWordChar mark = true)
    (hds : ds.all isWordChar = true) (hw : ∀ c ∈ w, c ∈ ds) : isIdentifier ('0' :: mark :: w) = true := by
  have hzero : isWordChar '0' = true := by decide
  have hall : ∀ c ∈ w, isWordChar c = true := fun c hc => List.all_eq_true.mp hds c (hw c hc)
  simpa [isIdentifier_eq, hzero, hm] using hall

theorem LiteralWord.isIdentifier (h : LiteralWord w) : isIdentifier w = true := by
  cases h with
  | truthValue hw =>
    have hall : ∀ w ∈ [['t', 'r', 'u', 'e'], ['f', 'a', 'l', 's', 'e']], Munch.isIdentifier w = true := by decide
    exact hall w hw
  | integer hne hw =>
    have hdigits : Grammar.decimalDigits.all isWordChar = true := by decide
    have hall : ∀ c ∈ w, isWordChar c = true := fun c hc => List.all_eq_true.mp hdigits c (hw c hc)
    simpa [isIdentifier_eq, hne] using hall
  | binary hw => exact isIdentifier_radix (by decide) (by decide) hw
  | octal hw => exact isIdentifier_radix (by decide) (by decide) hw
  | hexadecimal hw => exact isIdentifier_radix (by decide) (by decide) hw

theorem isLiteral_and_isIdentifier_iff : standard.isLiteral w = true ∧ isIdentifier w = true ↔ LiteralWord w := by
  constructor
  · rintro ⟨hliteral, hid⟩
    simp only [isIdentifier_eq, Bool.and_eq_true, List.all_eq_true] at hid
    cases w with
    | nil => cases hid.1
    | cons c w =>
      rw [isLiteral_eq (notMem_bounds_of_isWordChar (hid.2 c List.mem_cons_self)), Bool.or_eq_true] at hliteral
      rcases hliteral with hbool | hnumeral
      · exact .truthValue (isBool_iff.mp hbool)
      · exact literalWord_of_isNumeral hid.2 hnumeral
  · intro h
    exact ⟨h.isLiteral, h.isIdentifier⟩

/-- Under the standard rules a text passes one test at most, but for words, which may be identifiers beside literals or
    keywords: every keyword is an identifier, and of the literals just those of `LiteralWord` are. So the orders of the
    tests that give every text its kind are those with identifiers after literals and after keywords. -/
theorem tests_overlap_in_words : standard.OverlapsInWords ∧
    (∀ w, standard.isKeyword w = true → isIdentifier w = true) ∧
    (∀ w, standard.isLiteral w = true ∧ isIdentifier w = true ↔ LiteralWord w) ∧
    ∀ ks, ks.Perm Kind.precedence →
      ((∀ w, standard.classifyBy ks w = standard.classify w) ↔ IdentifiersLater ks) := by
  refine ⟨overlapsInWords_standard, fun w => isIdentifier_of_isKeyword, fun w => isLiteral_and_isIdentifier_iff, ?_⟩
  intro ks hks
  constructor
  · intro hall
    have hzero : standard.classifyBy ks ['0'] = some .literal := by rw [hall]; decide
    have huse : standard.classifyBy ks ['u', 's', 'e'] = some .keyword := by rw [hall]; decide
    exact ⟨idxOf_lt_of_classifyBy hzero (by decide) (by decide), idxOf_lt_of_classifyBy huse (by decide) (by decide)⟩
  · intro hlater
    exact overlapsInWords_standard.classifyBy_eq (fun k => hks.mem_iff.mpr (Kind.mem_precedence k)) hlater

/-- With identifiers at the end the other tests may come in any order; in the reversed order a numeral is an identifier. -/
theorem tests_overlap_in_words_reversed :
    let ks : List Kind := [.comment, .newline, .breaker, .operator, .keyword, .literal, .identifier]
    ks.Perm Kind.precedence ∧ (∀ w, standard.classifyBy ks w = standard.classify w) ∧
      ¬∀ w, standard.classifyBy Kind.precedence.reverse w = standard.classify w := by
  intro ks
  obtain ⟨-, -, -, horders⟩ := tests_overlap_in_words
  have hks : ks.Perm Kind.precedence := by decide
  refine ⟨hks, (horders ks hks).mpr ⟨by decide, by decide⟩, fun hall => ?_⟩
  exact absurd ((horders _ (List.reverse_perm _)).mp hall).literal (by decide)

end RuleTable

end Munch
