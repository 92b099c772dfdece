import Munch.Proofs.Grammar.Basic

/-! Words under the standard rules. A run of letters, digits and underscores that starts with a letter is a keyword or
    an identifier, but for the two truth values, which are literals and at which a word therefore stops growing. -/

namespace Munch
open RuleTable

variable {c d : Char} {w cs : Text}

theorem isWordChar_of_isAlpha (h : c.isAlpha = true) : isWordChar c = true := by
  simp [isWordChar, Char.isAlphanum, h]

theorem isDecimalDigit_of_isAlpha (h : c.isAlpha = true) : Numeral.isDecimalDigit c = false := by
  rw [Bool.eq_false_iff]
  intro hd
  simp only [Numeral.isDecimalDigit, Char.isDigit, Bool.or_eq_true, Bool.and_eq_true, decide_eq_true_eq,
    beq_iff_eq] at hd
  rcases hd with ⟨-, hd⟩ | rfl
  · rcases isAlpha_iff.mp h with ⟨h, -⟩ | ⟨h, -⟩ <;> exact absurd (Char.le_trans h hd) (by decide)
  · exact absurd h (by decide)

/-! ### Kinds of words -/

theorem isNumeral_word (hc : c.isAlpha = true) (hw : ∀ d ∈ w, isWordChar d = true) : isNumeral (c :: w) = false := by
  have hdigit := isDecimalDigit_of_isAlpha hc
  have hradix : ∀ m isDigit, Numeral.isRadix m isDigit (c :: w) = false := by
    intro m isDigit
    rw [Bool.eq_false_iff]
    intro h
    obtain ⟨v, heq, -⟩ := Numeral.isRadix_iff.mp h
    cases heq
    exact absurd hc (by decide)
  have hpoint : '.' ∉ c :: w := point_notMem_word (List.forall_mem_cons.mpr ⟨isWordChar_of_isAlpha hc, hw⟩)
  simp [isNumeral, Numeral.isInteger, Numeral.isFraction, hdigit, hradix, List.count_eq_zero.mpr hpoint]

theorem isLiteral_word (hc : c.isAlpha = true) (hw : ∀ d ∈ w, isWordChar d = true) :
    standard.isLiteral (c :: w) = standard.isBool (c :: w) := by
  rw [isLiteral_eq (notMem_bounds_of_isWordChar (isWordChar_of_isAlpha hc)), isNumeral_word hc hw, Bool.or_false]

theorem classify_word (hc : c.isAlpha = true) (hw : ∀ d ∈ w, isWordChar d = true)
    (hb : standard.isBool (c :: w) = false) : standard.classify (c :: w) = some (Grammar.wordKind (c :: w)) := by
  have hident : isIdentifier (c :: w) = true := by
    simpa [isIdentifier_eq, isWordChar_of_isAlpha hc] using hw
  rw [classify_eq, isLiteral_word hc hw, hb, hident]
  by_cases hk : c :: w ∈ standard.keywords
  · simp [Grammar.wordKind, hk, isKeyword_iff.mpr hk]
  · simp [Grammar.wordKind, hk, isKeyword_iff]

theorem isWord_wordKind (w : Text) : (Grammar.wordKind w).isWord = true := by
  unfold Grammar.wordKind
  split <;> rfl

theorem growsTo_word {k : Kind} (hk : k.isWord = true) (hc : c.isAlpha = true) (hd : isWordChar d = false) :
    standard.growsTo k (c :: w ++ [d]) = false := by
  have hmem : d ∈ c :: w ++ [d] := List.mem_append_right _ List.mem_cons_self
  refine growsTo_eq_false ?_ fun l hl => ?_
  · refine isCommentOpener_eq_false ?_
    rintro rfl
    exact absurd hc (by decide)
  · rw [Bool.eq_false_iff]
    intro hadmits
    rcases Kind.isWord_iff.mp (Kind.isWord_of_continuesAs hk hl) with rfl | rfl
    · simp only [admits, isIdentifier_eq, Bool.and_eq_true, List.all_eq_true] at hadmits
      simp [hadmits.2 d hmem] at hd
    · simp [isWordChar_of_isKeyword hadmits d hmem] at hd

/-! ### Cutting words -/

/-- A run of letters, digits and underscores in which no truth value begins is cut off as a whole. -/
theorem cuts_run {rest : Text} (hc : c.isAlpha = true) (hw : ∀ d ∈ w, isWordChar d = true)
    (hrest : ∀ d, rest.head? = some d → isWordChar d = false)
    (hb : ∀ u t, w = u ++ t → standard.isBool (c :: u) = false) :
    standard.Cuts c w (Grammar.wordKind (c :: w)) rest.head? := by
  constructor
  · refine growsThrough_of_classify (K := fun k => k.isWord = true) (fun _ _ => Kind.continuesAs_of_isWord) ?_
    rintro u t rfl
    exact ⟨_, classify_word hc (fun d hd => hw d (List.mem_append_left t hd)) (hb u t rfl), isWord_wordKind _⟩
  · refine endKind?_eq_some_iff.mpr ⟨classify_word hc hw (hb w [] (List.append_nil w).symm), fun d hd => ?_⟩
    exact growsTo_word (isWord_wordKind _) hc (hrest d hd)

theorem cuts_word (hc : c.isAlpha = true) (cs : Text) :
    standard.Cuts c (cs.take (Grammar.word c cs)) (Grammar.wordKind (c :: cs.take (Grammar.word c cs)))
      (cs.drop (Grammar.word c cs)).head? := by
  unfold Grammar.word
  by_cases htrue : ['t', 'r', 'u', 'e'].isPrefixOf (c :: cs)
  · -- `tru` is followed by the letter that would make it a literal.
    rw [if_pos htrue]
    obtain ⟨t, ht⟩ := List.isPrefixOf_iff_prefix.mp htrue
    cases ht
    have hcut : standard.Cuts 't' ['r', 'u'] .identifier (some 'e') := ⟨⟨by decide, by decide, trivial⟩, by decide⟩
    exact hcut
  rw [if_neg htrue]
  by_cases hfalse : ['f', 'a', 'l', 's', 'e'].isPrefixOf (c :: cs)
  · rw [if_pos hfalse]
    obtain ⟨t, ht⟩ := List.isPrefixOf_iff_prefix.mp hfalse
    cases ht
    have hcut : standard.Cuts 'f' ['a', 'l', 's'] .identifier (some 'e') :=
      ⟨⟨by decide, by decide, by decide, trivial⟩, by decide⟩
    exact hcut
  rw [if_neg hfalse]
  obtain ⟨u, rest, rfl, hn, hu, hrest⟩ := Grammar.exists_run isWordChar cs
  rw [hn, List.take_left, List.drop_left]
  refine cuts_run hc hu hrest ?_
  rintro v t rfl
  rw [Bool.eq_false_iff, ne_eq, isBool_iff]
  intro hmem
  simp only [List.mem_cons, List.not_mem_nil, or_false] at hmem
  rcases hmem with hv | hv
  · exact htrue (List.isPrefixOf_iff_prefix.mpr ⟨t ++ rest, by simp [← hv]⟩)
  · exact hfalse (List.isPrefixOf_iff_prefix.mpr ⟨t ++ rest, by simp [← hv]⟩)

end Munch
