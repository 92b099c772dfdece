import Munch.Proofs.Grammar.Basic

/-! Numerals under the standard rules. Where a numeral starts, it is cut off at the first character that makes it no
    numeral any more: initial parts of numerals are numerals, but for a zero and its mark there is no other way to go
    on over a letter than the `E` of a fraction. -/

namespace Munch
open RuleTable

namespace Numeral
variable {c d : Char} {u w f : Text}

/-! ### Numerals and what follows them -/

theorem isDecimalDigit_iff : isDecimalDigit c = true ↔ c.isDigit = true ∨ c = '_' := by
  simp [isDecimalDigit]

theorem isNumeral_of_digits (hne : w ≠ []) (hw : ∀ x ∈ w, isDecimalDigit x = true) : isNumeral w = true := by
  have : isInteger w = true := by simpa [isInteger, hne] using hw
  simp [isNumeral, this]

theorem isFractionChar_of_isFractional (h : Grammar.isFractional c = true) : isFractionChar c = true := by
  simp only [Grammar.isFractional_eq, Bool.or_eq_true, beq_iff_eq] at h
  rw [isFractionChar_iff]
  rcases h with (h | h) | h
  · exact Or.inl h
  · exact Or.inr (Or.inr (Or.inl h))
  · exact Or.inr (Or.inr (Or.inr h))

theorem isFractionChar_point (hu : ∀ x ∈ u, isDecimalDigit x = true) (hf : ∀ x ∈ f, Grammar.isFractional x = true) :
    ∀ x ∈ u ++ '.' :: f, isFractionChar x = true := by
  intro x hx
  rcases List.mem_append.mp hx with hx | hx
  · exact isFractionChar_iff.mpr (Or.inl (hu x hx))
  · rcases List.mem_cons.mp hx with rfl | hx
    · decide
    · exact isFractionChar_of_isFractional (hf x hx)

theorem count_point (hu : ∀ x ∈ u, isDecimalDigit x = true) (hf : ∀ x ∈ f, Grammar.isFractional x = true) :
    (u ++ '.' :: f).count '.' = 1 := by
  have hu' : '.' ∉ u := fun hmem => absurd (hu _ hmem) (by decide)
  have hf' : '.' ∉ f := fun hmem => absurd (hf _ hmem) (by decide)
  simp [List.count_append, List.count_eq_zero.mpr hu', List.count_eq_zero.mpr hf']

theorem isNumeral_of_point (hu : ∀ x ∈ u, isDecimalDigit x = true) (hf : ∀ x ∈ f, Grammar.isFractional x = true) :
    isNumeral (u ++ '.' :: f) = true := by
  have : isFraction (u ++ '.' :: f) = true := by
    rw [isFraction, count_point hu hf, Bool.and_eq_true]
    exact ⟨List.all_eq_true.mpr (isFractionChar_point hu hf), rfl⟩
  simp [isNumeral, this]

/-- After characters of a fraction, the mark of a radix can only follow a single zero. -/
theorem isRadix_append {mark : Char} {isDigit : Char → Bool} (hm : isFractionChar mark = false)
    (hu : ∀ x ∈ u, isFractionChar x = true) (hd : u = ['0'] → d ≠ mark) : isRadix mark isDigit (u ++ [d]) = false := by
  rw [Bool.eq_false_iff]
  intro h
  obtain ⟨v, heq, -⟩ := isRadix_iff.mp h
  match u with
  | [] => simp at heq
  | [a] =>
    simp only [List.cons_append, List.nil_append, List.cons.injEq] at heq
    obtain ⟨rfl, rfl, -⟩ := heq
    exact hd rfl rfl
  | a :: b :: u =>
    simp only [List.cons_append, List.cons.injEq] at heq
    obtain ⟨-, rfl, -⟩ := heq
    rw [hu b (by simp)] at hm
    cases hm

theorem isNumeral_append (hu : ∀ x ∈ u, isFractionChar x = true) (hint : isInteger (u ++ [d]) = false)
    (hfrac : isFraction (u ++ [d]) = false) (hd : u = ['0'] → d ∉ ['b', 'o', 'x']) : isNumeral (u ++ [d]) = false := by
  have hne : ∀ mark ∈ ['b', 'o', 'x'], u = ['0'] → d ≠ mark := fun mark hmark h0 hd' => hd h0 (hd' ▸ hmark)
  simp only [isNumeral, hint, hfrac, isRadix_append (by decide) hu (hne 'b' (by simp)),
    isRadix_append (by decide) hu (hne 'o' (by simp)), isRadix_append (by decide) hu (hne 'x' (by simp)), Bool.or_self]

/-- A character that is no digit and no point ends an integer, unless it is a mark after a zero. -/
theorem isNumeral_digits_append (hu : ∀ x ∈ u, isDecimalDigit x = true) (hd : isDecimalDigit d = false)
    (hpoint : d ≠ '.') (hmark : u = ['0'] → d ∉ ['b', 'o', 'x']) : isNumeral (u ++ [d]) = false := by
  refine isNumeral_append (fun x hx => isFractionChar_iff.mpr (Or.inl (hu x hx))) ?_ ?_ hmark
  · simp [isInteger, hd]
  · have hu' : '.' ∉ u := fun hmem => absurd (hu _ hmem) (by decide)
    simp [isFraction, List.count_append, List.count_eq_zero.mpr hu', hpoint]

theorem isNumeral_point_append (hu : ∀ x ∈ u, isDecimalDigit x = true) (hf : ∀ x ∈ f, Grammar.isFractional x = true)
    (hd : Grammar.isFractional d = false) : isNumeral (u ++ '.' :: f ++ [d]) = false := by
  refine isNumeral_append (isFractionChar_point hu hf) ?_ ?_ fun h0 => ?_
  · have : isDecimalDigit '.' = false := by decide
    simp [isInteger, this]
  · by_cases hpoint : d = '.'
    · simp only [isFraction, List.count_append, count_point hu hf, hpoint]
      simp
    · have : isFractionChar d = false := by
        simp only [Grammar.isFractional_eq, Bool.or_eq_false_iff, beq_eq_false_iff_ne] at hd
        simp [isFractionChar, hd, hpoint]
      simp [isFraction, this]
  · have : '.' ∈ ['0'] := h0 ▸ List.mem_append_right u List.mem_cons_self
    exact absurd this (by decide)

/-- After a zero and its mark a numeral is told by the digits of the radix. -/
theorem isNumeral_radix (w : Text) : isNumeral ('0' :: 'b' :: w) = w.all isBinaryDigit ∧
    isNumeral ('0' :: 'o' :: w) = w.all isOctalDigit ∧ isNumeral ('0' :: 'x' :: w) = w.all isHexadecimalDigit := by
  have hb : isDecimalDigit 'b' = false ∧ isFractionChar 'b' = false := by decide
  have ho : isDecimalDigit 'o' = false ∧ isFractionChar 'o' = false := by decide
  have hx : isDecimalDigit 'x' = false ∧ isFractionChar 'x' = false := by decide
  simp [isNumeral, isInteger, isFraction, isRadix, hb, ho, hx]

end Numeral

variable {c d : Char} {w u f cs rest : Text}

/-! ### Cutting numerals -/

theorem isLiteral_numeral (hc : Numeral.isDecimalDigit c = true ∨ c = '.') :
    standard.isLiteral (c :: w) = isNumeral (c :: w) := by
  have hbound : c ∉ ['\'', '\x60'] := by
    intro hq
    simp only [List.mem_cons, List.not_mem_nil, or_false] at hq
    rcases hq with rfl | rfl <;> exact absurd hc (by decide)
  have hbool : standard.isBool (c :: w) = false := by
    rw [Bool.eq_false_iff, ne_eq, isBool_iff]
    intro hmem
    simp only [List.mem_cons, List.cons.injEq, List.not_mem_nil, or_false] at hmem
    rcases hmem with ⟨rfl, -⟩ | ⟨rfl, -⟩ <;> exact absurd hc (by decide)
  rw [isLiteral_eq hbound, hbool, Bool.false_or]

/-- A text is cut off as a literal when its initial parts are numerals and one character more makes it none. -/
theorem cuts_of_isNumeral (hc : Numeral.isDecimalDigit c = true ∨ c = '.')
    (hw : ∀ u t, w = u ++ t → isNumeral (c :: u) = true)
    (hrest : ∀ d, rest.head? = some d → isNumeral (c :: w ++ [d]) = false) :
    standard.Cuts c w .literal rest.head? := by
  constructor
  · refine growsThrough_of_classify (K := fun k => k = .literal) (by rintro _ _ rfl rfl; rfl) fun u t hu => ?_
    exact ⟨_, classify_of_isLiteral ((isLiteral_numeral hc).trans (hw u t hu)), rfl⟩
  · refine endKind?_eq_some_iff.mpr ⟨?_, fun d hd => growsTo_eq_false ?_ fun l hl => ?_⟩
    · exact classify_of_isLiteral ((isLiteral_numeral hc).trans (hw w [] (List.append_nil w).symm))
    · refine isCommentOpener_eq_false ?_
      rintro rfl
      exact absurd hc (by decide)
    · obtain rfl := Kind.eq_of_continuesAs rfl hl
      exact (isLiteral_numeral hc).trans (hrest d hd)

/-- After a zero, a mark is cut off with all digits of its radix that follow. -/
theorem cuts_radix {mark : Char} {isDigit : Char → Bool}
    (hradix : ∀ w, isNumeral ('0' :: mark :: w) = w.all isDigit) (hmark : cs.head? = some mark) :
    standard.Cuts '0' (cs.take (1 + Grammar.run isDigit cs.tail)) .literal
      (cs.drop (1 + Grammar.run isDigit cs.tail)).head? := by
  obtain ⟨cs, rfl⟩ := List.head?_eq_some_iff.mp hmark
  obtain ⟨u, rest, rfl, hn, hu, hrest⟩ := Grammar.exists_run isDigit cs
  rw [List.tail_cons, hn, Nat.add_comm, List.take_succ_cons, List.drop_succ_cons, List.take_left, List.drop_left]
  refine cuts_of_isNumeral (Or.inl (by decide)) (fun v t hv => ?_) fun d hd => ?_
  · cases v with
    | nil => decide
    | cons m v =>
      cases hv
      rw [hradix, List.all_eq_true]
      exact fun x hx => hu x (List.mem_append_left t hx)
  · rw [List.cons_append, List.cons_append, hradix, List.all_append]
    simp [hrest d hd]

theorem cuts_point (cs : Text) :
    standard.Cuts '.' (cs.take (Grammar.run Grammar.isFractional cs)) .literal
      (cs.drop (Grammar.run Grammar.isFractional cs)).head? := by
  obtain ⟨f, rest, rfl, hn, hf, hrest⟩ := Grammar.exists_run Grammar.isFractional cs
  rw [hn, List.take_left, List.drop_left]
  refine cuts_of_isNumeral (Or.inr rfl) (fun v t hv => ?_) fun d hd => ?_
  · exact Numeral.isNumeral_of_point (u := []) (by simp) fun x hx => hf x (hv ▸ List.mem_append_left t hx)
  · exact Numeral.isNumeral_point_append (u := []) (by simp) hf (hrest d hd)

/-- Digits, a point and what may follow a point are cut off together. -/
theorem cuts_fraction (hu : ∀ x ∈ c :: u, Numeral.isDecimalDigit x = true)
    (hf : ∀ x ∈ f, Grammar.isFractional x = true)
    (hrest : ∀ d, rest.head? = some d → Grammar.isFractional d = false) :
    standard.Cuts c (u ++ '.' :: f) .literal rest.head? := by
  refine cuts_of_isNumeral (Or.inl (hu c List.mem_cons_self)) (fun v t hv => ?_) fun d hd => ?_
  · -- An initial part ends among the digits or behind the point.
    rcases List.append_eq_append_iff.mp hv with ⟨v', rfl, hv'⟩ | ⟨t', rfl, -⟩
    · cases v' with
      | nil => exact Numeral.isNumeral_of_digits (by simp) (by simpa using hu)
      | cons x v' =>
        cases hv'
        exact Numeral.isNumeral_of_point (u := c :: u) hu fun x hx => hf x (List.mem_append_left t hx)
    · exact Numeral.isNumeral_of_digits (by simp) fun x hx => hu x (List.mem_append_left t' hx)
  · exact Numeral.isNumeral_point_append hu hf (hrest d hd)

/-- Digits are cut off before a character that goes on no integer. -/
theorem cuts_integer (hu : ∀ x ∈ c :: u, Numeral.isDecimalDigit x = true)
    (hrest : ∀ d, rest.head? = some d → Numeral.isDecimalDigit d = false ∧ d ≠ '.')
    (hmark : c :: u = ['0'] → ∀ d, rest.head? = some d → d ∉ ['b', 'o', 'x']) :
    standard.Cuts c u .literal rest.head? := by
  refine cuts_of_isNumeral (Or.inl (hu c List.mem_cons_self)) (fun v t hv => ?_) fun d hd => ?_
  · exact Numeral.isNumeral_of_digits (by simp) fun x hx => hu x (hv ▸ List.mem_append_left t hx)
  · exact Numeral.isNumeral_digits_append hu (hrest d hd).1 (hrest d hd).2 fun h0 => hmark h0 d hd

theorem cuts_decimal (hc : Numeral.isDecimalDigit c = true)
    (hmark : c = '0' → ∀ d, cs.head? = some d → d ∉ ['b', 'o', 'x']) :
    standard.Cuts c (cs.take (Grammar.decimal cs)) .literal (cs.drop (Grammar.decimal cs)).head? := by
  rw [Grammar.decimal, Grammar.contains_eq Grammar.mem_decimalDigits]
  obtain ⟨u, rest, rfl, hn, hu, hrest⟩ := Grammar.exists_run Numeral.isDecimalDigit cs
  have hcu : ∀ x ∈ c :: u, Numeral.isDecimalDigit x = true := List.forall_mem_cons.mpr ⟨hc, hu⟩
  rw [hn, List.drop_left]
  by_cases hpoint : rest.head? = some '.'
  · obtain ⟨rest, rfl⟩ := List.head?_eq_some_iff.mp hpoint
    obtain ⟨f, rest, rfl, hm, hf, hrest⟩ := Grammar.exists_run Grammar.isFractional rest
    have hdrop : (u ++ '.' :: (f ++ rest)).drop (u.length + 1) = f ++ rest := by simp
    rw [if_pos hpoint, hdrop, hm, Nat.add_assoc, List.take_length_add_append, List.drop_length_add_append,
      Nat.add_comm 1, List.take_succ_cons, List.drop_succ_cons, List.take_left, List.drop_left]
    exact cuts_fraction hcu hf hrest
  · rw [if_neg hpoint, List.take_left, List.drop_left]
    refine cuts_integer hcu (fun d hd => ⟨hrest d hd, ?_⟩) fun h0 => ?_
    · rintro rfl
      exact hpoint hd
    · cases h0
      exact hmark rfl

theorem cuts_numeral (hc : c.isDigit ∨ c = '_' ∨ c = '.') (cs : Text) :
    standard.Cuts c (cs.take (Grammar.numeral c cs)) .literal (cs.drop (Grammar.numeral c cs)).head? := by
  rw [Grammar.numeral, Grammar.contains_eq Grammar.mem_binaryDigits, Grammar.contains_eq Grammar.mem_octalDigits,
    Grammar.contains_eq Grammar.mem_hexadecimalDigits]
  by_cases hpoint : c = '.'
  · rw [if_pos hpoint, hpoint]
    exact cuts_point cs
  rw [if_neg hpoint]
  by_cases hb : c = '0' ∧ cs.head? = some 'b'
  · rw [if_pos hb, hb.1]
    exact cuts_radix (fun w => (Numeral.isNumeral_radix w).1) hb.2
  rw [if_neg hb]
  by_cases ho : c = '0' ∧ cs.head? = some 'o'
  · rw [if_pos ho, ho.1]
    exact cuts_radix (fun w => (Numeral.isNumeral_radix w).2.1) ho.2
  rw [if_neg ho]
  by_cases hx : c = '0' ∧ cs.head? = some 'x'
  · rw [if_pos hx, hx.1]
    exact cuts_radix (fun w => (Numeral.isNumeral_radix w).2.2) hx.2
  rw [if_neg hx]
  refine cuts_decimal ?_ ?_
  · rcases hc with hc | hc | hc
    · exact Numeral.isDecimalDigit_iff.mpr (Or.inl hc)
    · exact Numeral.isDecimalDigit_iff.mpr (Or.inr hc)
    · exact absurd hc hpoint
  · rintro rfl d hd hmem
    simp only [List.mem_cons, List.not_mem_nil, or_false] at hmem
    rcases hmem with rfl | rfl | rfl
    · exact hb ⟨rfl, hd⟩
    · exact ho ⟨rfl, hd⟩
    · exact hx ⟨rfl, hd⟩

end Munch
