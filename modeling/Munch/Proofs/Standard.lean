import Munch.Proofs.Growth

/-! The tests of the standard rules, by the first and by the last character of a text. Most kinds are told from the
    first character alone; a blank ends no text of any kind, so no candidate goes on over a blank. -/

namespace Munch

/-- Letters, digits and the underscore, which identifiers are made of. -/
def isWordChar (c : Char) : Bool := c == '_' || c.isAlphanum

theorem isIdentifier_eq (w : Text) : isIdentifier w = (!w.isEmpty && w.all isWordChar) := rfl

theorem isBlank_iff {c : Char} :
    isBlank c = true ↔ c = ' ' ∨ c = '\t' ∨ c = '\x0b' ∨ c = '\x0c' ∨ c = '\r' := by
  simp [isBlank, or_assoc]

theorem isAlpha_iff {c : Char} : c.isAlpha = true ↔ ('A' ≤ c ∧ c ≤ 'Z') ∨ ('a' ≤ c ∧ c ≤ 'z') := by
  change (decide ('A' ≤ c ∧ c ≤ 'Z') || decide ('a' ≤ c) && decide (c ≤ 'z')) = true ↔ _
  simp only [Bool.or_eq_true, Bool.and_eq_true, decide_eq_true_eq]

theorem point_notMem_word {w : Text} (hw : ∀ d ∈ w, isWordChar d = true) : '.' ∉ w := fun hmem =>
  absurd (hw _ hmem) (by decide)

/-! ### Characters of numerals -/

namespace Numeral
variable {c : Char} {w : Text}

theorem isFractionChar_iff :
    isFractionChar c = true ↔ isDecimalDigit c = true ∨ c = '.' ∨ c = 'E' ∨ c = '+' := by
  simp [isFractionChar, or_assoc]

theorem isWordChar_of_isHexadecimalDigit (h : isHexadecimalDigit c = true) : isWordChar c = true := by
  simp only [isHexadecimalDigit, Bool.or_eq_true, Bool.and_eq_true, decide_eq_true_eq, beq_iff_eq] at h
  simp only [isWordChar, Char.isAlphanum, Bool.or_eq_true, beq_iff_eq, isAlpha_iff]
  rcases h with ((h | ⟨h1, h2⟩) | ⟨h1, h2⟩) | h
  · exact Or.inr (Or.inr h)
  · exact Or.inr (Or.inl (Or.inr ⟨h1, Char.le_trans h2 (by decide)⟩))
  · exact Or.inr (Or.inl (Or.inl ⟨h1, Char.le_trans h2 (by decide)⟩))
  · exact Or.inl h

theorem isHexadecimalDigit_of_isDecimalDigit (h : isDecimalDigit c = true) : isHexadecimalDigit c = true := by
  simp only [isDecimalDigit, Bool.or_eq_true] at h
  rcases h with h | h <;> simp [isHexadecimalDigit, h]

theorem isDecimalDigit_of_isBinaryDigit (h : isBinaryDigit c = true) : isDecimalDigit c = true := by
  simp only [isBinaryDigit, Bool.or_eq_true, beq_iff_eq] at h
  rcases h with (rfl | rfl) | rfl <;> decide

theorem isDecimalDigit_of_isOctalDigit (h : isOctalDigit c = true) : isDecimalDigit c = true := by
  simp only [isOctalDigit, Bool.or_eq_true, Bool.and_eq_true, decide_eq_true_eq, beq_iff_eq, Char.le_def] at h
  simp only [isDecimalDigit, Char.isDigit, Bool.or_eq_true, Bool.and_eq_true, decide_eq_true_eq, beq_iff_eq]
  rcases h with ⟨h1, h2⟩ | h
  · exact Or.inl ⟨h1, UInt32.le_trans h2 (by decide)⟩
  · exact Or.inr h

theorem isWordChar_of_isDecimalDigit (h : isDecimalDigit c = true) : isWordChar c = true :=
  isWordChar_of_isHexadecimalDigit (isHexadecimalDigit_of_isDecimalDigit h)

theorem isRadix_iff {mark : Char} {isDigit : Char → Bool} : isRadix mark isDigit w = true ↔
    ∃ v, w = '0' :: mark :: v ∧ ∀ d ∈ v, isDigit d = true := by
  constructor
  · intro h
    unfold isRadix at h
    split at h
    · next m v =>
      simp only [Bool.and_eq_true, beq_iff_eq, List.all_eq_true] at h
      obtain ⟨rfl, hall⟩ := h
      exact ⟨v, rfl, hall⟩
    · cases h
  · rintro ⟨v, rfl, hall⟩
    simpa [isRadix] using hall

/-- A radix numeral is a word, and it starts with a zero. -/
theorem isWordChar_of_isRadix {mark : Char} {isDigit : Char → Bool} (hm : isWordChar mark = true)
    (hd : ∀ d, isDigit d = true → isWordChar d = true) (h : isRadix mark isDigit w = true) :
    w.head? = some '0' ∧ ∀ d ∈ w, isWordChar d = true := by
  obtain ⟨v, rfl, hall⟩ := isRadix_iff.mp h
  refine ⟨rfl, fun d hmem => ?_⟩
  rcases List.mem_cons.mp hmem with rfl | hmem
  · decide
  · rcases List.mem_cons.mp hmem with rfl | hmem
    · exact hm
    · exact hd d (hall d hmem)

/-- A numeral is made of decimal fraction characters, or it is a word that starts with a zero. -/
theorem of_isNumeral (h : isNumeral w = true) :
    (∀ d ∈ w, isFractionChar d = true) ∨ (w.head? = some '0' ∧ ∀ d ∈ w, isWordChar d = true) := by
  simp only [isNumeral, Bool.or_eq_true] at h
  rcases h with (((h | h) | h) | h) | h
  · simp only [isInteger, Bool.and_eq_true, List.all_eq_true] at h
    exact Or.inl fun d hd => isFractionChar_iff.mpr (Or.inl (h.2 d hd))
  · simp only [isFraction, Bool.and_eq_true, List.all_eq_true] at h
    exact Or.inl h.1
  · exact Or.inr (isWordChar_of_isRadix (by decide)
      (fun d hd => isWordChar_of_isDecimalDigit (isDecimalDigit_of_isBinaryDigit hd)) h)
  · exact Or.inr (isWordChar_of_isRadix (by decide)
      (fun d hd => isWordChar_of_isDecimalDigit (isDecimalDigit_of_isOctalDigit hd)) h)
  · exact Or.inr (isWordChar_of_isRadix (by decide) (fun d hd => isWordChar_of_isHexadecimalDigit hd) h)

end Numeral

namespace RuleTable
variable {w : Text} {c : Char} {k : Kind}

/-! ### Texts of the table -/

theorem isKeyword_iff : standard.isKeyword w = true ↔ w ∈ standard.keywords := by
  simp [isKeyword]

theorem isOperator_iff : standard.isOperator w = true ↔ w ∈ standard.operators := by
  simp [isOperator]

theorem isBreaker_iff : standard.isBreaker w = true ↔ w ∈ standard.breakers := by
  simp [isBreaker]

theorem isBool_iff : standard.isBool w = true ↔ w ∈ [['t', 'r', 'u', 'e'], ['f', 'a', 'l', 's', 'e']] := by
  simp [isBool, standard]

theorem isCommentOpener_iff : standard.isCommentOpener w = true ↔ w ∈ [['/', '/'], ['/', '*']] := by
  simp [isCommentOpener, standard, eq_comm (b := w)]

theorem isComment_iff : standard.isComment w = true ↔
    (['/', '/'].isPrefixOf w = true ∧ ['\n'].isSuffixOf w = true) ∨
      (['/', '*'].isPrefixOf w = true ∧ ['*', '/'].isSuffixOf w = true) := by
  simp [isComment, CommentPair.encloses, standard]

theorem isWordChar_of_isKeyword (h : standard.isKeyword w = true) : ∀ d ∈ w, isWordChar d = true := by
  have hall : (standard.keywords.all fun x => x.all isWordChar) = true := by decide
  exact List.all_eq_true.mp (List.all_eq_true.mp hall w (isKeyword_iff.mp h))

theorem isWordChar_of_isBool (h : standard.isBool w = true) : ∀ d ∈ w, isWordChar d = true := by
  have hall : ([['t', 'r', 'u', 'e'], ['f', 'a', 'l', 's', 'e']].all fun x => x.all isWordChar) = true := by decide
  exact List.all_eq_true.mp (List.all_eq_true.mp hall w (isBool_iff.mp h))

/-! ### The first character -/

/-- The characters that a text of a kind may start with. -/
def starts : Kind → Char → Bool
  | .literal, c => ['\'', '\x60', 't', 'f'].contains c || Numeral.isFractionChar c
  | .keyword, c | .identifier, c => isWordChar c
  | .operator, c => [':', '=', '+', '-', '*', '/'].contains c
  | .breaker, c => ['(', ')', '\x7b', '\x7d', ','].contains c
  | .newline, c => c == '\n'
  | .comment, c => c == '/'

theorem notMem_bounds_of_isWordChar (hc : isWordChar c = true) : c ∉ ['\'', '\x60'] := by
  intro hq
  simp only [List.mem_cons, List.not_mem_nil, or_false] at hq
  rcases hq with rfl | rfl <;> exact absurd hc (by decide)

theorem isLiteral_eq (hc : c ∉ ['\'', '\x60']) :
    standard.isLiteral (c :: w) = (standard.isBool (c :: w) || isNumeral (c :: w)) := by
  have hbound : ∀ q ∈ ['\'', '\x60'], (c == q) = false := by
    intro q hq
    rw [beq_eq_false_iff_ne]
    rintro rfl
    exact hc hq
  simp [isLiteral, isBounded, standard, hbound]

theorem starts_literal_of_isLiteral (h : standard.isLiteral (c :: w) = true) : starts .literal c = true := by
  simp only [isLiteral, Bool.or_eq_true, isBool_iff] at h
  simp only [starts, Bool.or_eq_true, List.contains_iff_mem]
  rcases h with ((h | h) | h) | h
  · simp only [isBounded, standard, Bool.and_eq_true, beq_iff_eq] at h
    simp [h.1.1]
  · simp only [isBounded, standard, Bool.and_eq_true, beq_iff_eq] at h
    simp [h.1.1]
  · simp only [List.mem_cons, List.cons.injEq, List.not_mem_nil, or_false] at h
    rcases h with ⟨rfl, -⟩ | ⟨rfl, -⟩ <;> decide
  · rcases Numeral.of_isNumeral h with h | ⟨h, -⟩
    · exact Or.inr (h c List.mem_cons_self)
    · cases h
      decide

theorem starts_of_admits (h : standard.admits k (c :: w) = true) : starts k c = true := by
  cases k with
  | literal => exact starts_literal_of_isLiteral h
  | keyword => exact isWordChar_of_isKeyword h c List.mem_cons_self
  | identifier =>
    simp only [admits, isIdentifier_eq, List.all_cons, Bool.and_eq_true] at h
    exact h.2.1
  | operator =>
    have hall : (standard.operators.all fun x => x.head?.all (starts .operator)) = true := by decide
    exact List.all_eq_true.mp hall _ (isOperator_iff.mp h)
  | breaker =>
    have hall : (standard.breakers.all fun x => x.head?.all (starts .breaker)) = true := by decide
    exact List.all_eq_true.mp hall _ (isBreaker_iff.mp h)
  | newline =>
    simp only [admits, beq_iff_eq, List.cons.injEq] at h
    simp [starts, h.1]
  | comment =>
    simp only [admits, isComment_iff, List.isPrefixOf, Bool.and_eq_true, beq_iff_eq] at h
    simp only [starts, beq_iff_eq]
    rcases h with h | h <;> exact h.1.1.symm

theorem admits_eq_false_of_starts (h : starts k c = false) : standard.admits k (c :: w) = false := by
  rw [Bool.eq_false_iff]
  exact fun hk => by simpa [h] using starts_of_admits hk

theorem isCommentOpener_head (h : standard.isCommentOpener (c :: w) = true) : c = '/' := by
  rw [isCommentOpener_iff] at h
  simp only [List.mem_cons, List.cons.injEq, List.not_mem_nil, or_false] at h
  rcases h with h | h <;> exact h.1

theorem isCommentOpener_eq_false (hc : c ≠ '/') : standard.isCommentOpener (c :: w) = false := by
  rw [Bool.eq_false_iff]
  exact fun ho => hc (isCommentOpener_head ho)

/-! ### The last character -/

/-- The characters that a text of a kind may end with. -/
def ends : Kind → Char → Bool
  | .literal, c => ['\'', '\x60'].contains c || isWordChar c || Numeral.isFractionChar c
  | .keyword, c | .identifier, c => isWordChar c
  | .operator, c => ['=', '+', '-', '*', '/'].contains c
  | .breaker, c => ['(', ')', '\x7b', '\x7d', ','].contains c
  | .newline, c => c == '\n'
  | .comment, c => c == '\n' || c == '/'

theorem isBounded_last {bound : Char} (h : isBounded bound (w ++ [c]) = true) : c = bound := by
  cases w with
  | nil => simp [isBounded] at h
  | cons d w =>
    simp only [List.cons_append, isBounded, List.getLast?_append, Bool.and_eq_true, beq_iff_eq] at h
    simpa using h.1.2

theorem ends_literal_of_isLiteral (h : standard.isLiteral (w ++ [c]) = true) : ends .literal c = true := by
  have hc : c ∈ w ++ [c] := List.mem_append_right w List.mem_cons_self
  simp only [isLiteral, Bool.or_eq_true] at h
  simp only [ends, Bool.or_eq_true, List.contains_iff_mem]
  rcases h with ((h | h) | h) | h
  · exact Or.inl (Or.inl (by simp [isBounded_last h, standard]))
  · exact Or.inl (Or.inl (by simp [isBounded_last h, standard]))
  · exact Or.inl (Or.inr (isWordChar_of_isBool h c hc))
  · rcases Numeral.of_isNumeral h with h | ⟨-, h⟩
    · exact Or.inr (h c hc)
    · exact Or.inl (Or.inr (h c hc))

theorem ends_of_admits (h : standard.admits k (w ++ [c]) = true) : ends k c = true := by
  have hc : c ∈ w ++ [c] := List.mem_append_right w List.mem_cons_self
  cases k with
  | literal => exact ends_literal_of_isLiteral h
  | keyword => exact isWordChar_of_isKeyword h c hc
  | identifier =>
    simp only [admits, isIdentifier_eq, List.all_eq_true, Bool.and_eq_true] at h
    exact h.2 c hc
  | operator =>
    have hall : (standard.operators.all fun x => x.getLast?.all (ends .operator)) = true := by decide
    simpa using List.all_eq_true.mp hall _ (isOperator_iff.mp h)
  | breaker =>
    have hall : (standard.breakers.all fun x => x.getLast?.all (ends .breaker)) = true := by decide
    simpa using List.all_eq_true.mp hall _ (isBreaker_iff.mp h)
  | newline =>
    simp only [admits, beq_iff_eq] at h
    rw [h, List.mem_singleton] at hc
    simp [ends, hc]
  | comment =>
    simp only [admits, isComment_iff, List.isSuffixOf, List.reverse_append, List.singleton_append,
      List.reverse_cons, List.reverse_nil, List.nil_append, List.isPrefixOf, Bool.and_eq_true, beq_iff_eq] at h
    simp only [ends, Bool.or_eq_true, beq_iff_eq]
    rcases h with h | h
    · exact Or.inl h.2.1.symm
    · exact Or.inr h.2.1.symm

theorem admits_eq_false_of_ends (h : ends k c = false) : standard.admits k (w ++ [c]) = false := by
  rw [Bool.eq_false_iff]
  exact fun hk => by simpa [h] using ends_of_admits hk

/-! ### Blanks -/

theorem ends_of_isBlank (hc : isBlank c = true) (k : Kind) : ends k c = false := by
  rcases isBlank_iff.mp hc with rfl | rfl | rfl | rfl | rfl <;> cases k <;> decide

theorem admits_append_blank (hc : isBlank c = true) (k : Kind) : standard.admits k (w ++ [c]) = false :=
  admits_eq_false_of_ends (ends_of_isBlank hc k)

/-- No candidate goes on over a blank. -/
theorem growsTo_append_blank (hc : isBlank c = true) : standard.growsTo k (w ++ [c]) = false := by
  refine growsTo_eq_false ?_ fun l _ => admits_append_blank hc l
  rw [Bool.eq_false_iff, ne_eq, isCommentOpener_iff]
  intro h
  have hall : ([['/', '/'], ['/', '*']].all fun x => x.getLast?.all fun d => !isBlank d) = true := by decide
  have hlast := List.all_eq_true.mp hall _ h
  simp [hc] at hlast

end RuleTable

end Munch
