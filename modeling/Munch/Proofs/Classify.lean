import Munch.Classify

/-! The kind of a text is the first one in the order of precedence whose test holds, so a text has no kind when no
    test holds, and a text of some kind passes the test for it. -/

namespace Munch

/-! ### Kinds -/

namespace Kind

theorem mem_precedence (k : Kind) : k ∈ precedence := by
  cases k <;> decide

theorem continuesAs_self (k : Kind) : k.continuesAs k = true := by
  simp [continuesAs]

theorem eq_of_continuesAs {k l : Kind} (hk : k.isWord = false) (h : k.continuesAs l = true) : l = k := by
  simpa [continuesAs, hk] using h

theorem eq_of_continuesAs_right {k l : Kind} (hl : l.isWord = false) (h : k.continuesAs l = true) : l = k := by
  simpa [continuesAs, hl] using h

theorem continuesAs_of_isWord {k l : Kind} (hk : k.isWord = true) (hl : l.isWord = true) : k.continuesAs l = true := by
  simp [continuesAs, hk, hl]

theorem isWord_of_continuesAs {k l : Kind} (hk : k.isWord = true) (h : k.continuesAs l = true) : l.isWord = true := by
  simp only [continuesAs, Bool.or_eq_true, beq_iff_eq, Bool.and_eq_true] at h
  rcases h with rfl | ⟨-, hl⟩
  · exact hk
  · exact hl

/-- Identifiers and keywords go on alike. -/
theorem keyword_continuesAs (l : Kind) : keyword.continuesAs l = identifier.continuesAs l := by
  cases l <;> rfl

theorem continuesAs_keyword (k : Kind) : k.continuesAs keyword = k.continuesAs identifier := by
  cases k <;> rfl

theorem isWord_iff {k : Kind} : k.isWord = true ↔ k = identifier ∨ k = keyword := by
  cases k <;> simp [isWord]

end Kind

/-- A search finds the element that passes and that no other one which passes comes before. -/
theorem find?_eq_some_iff_idxOf {ks : List Kind} {p : Kind → Bool} {k : Kind} : ks.find? p = some k ↔
    k ∈ ks ∧ p k = true ∧ ∀ l, ks.idxOf l < ks.idxOf k → p l = false := by
  induction ks with
  | nil => simp
  | cons a ks ih =>
    cases ha : p a with
    | true =>
      rw [List.find?_cons_of_pos ha, Option.some.injEq]
      constructor
      · rintro rfl
        exact ⟨List.mem_cons_self, ha, fun l hl => by simp at hl⟩
      · rintro ⟨-, -, hbefore⟩
        refine Decidable.byContradiction fun hne => ?_
        have hfirst : (a :: ks).idxOf a < (a :: ks).idxOf k := by
          simp [List.idxOf_cons, beq_false_of_ne hne]
        rw [hbefore a hfirst] at ha
        cases ha
    | false =>
      rw [List.find?_cons_of_neg (by simp [ha]), ih, List.mem_cons]
      -- Places in the tail count one less, and the first element, which does not pass, is none to look at.
      have hne {j : Kind} (hj : p j = true) : (a == j) = false := by
        rw [beq_eq_false_iff_ne]
        rintro rfl
        rw [ha] at hj
        cases hj
      have hbefore (hk : p k = true) : (∀ l, (a :: ks).idxOf l < (a :: ks).idxOf k → p l = false) ↔
          ∀ l, ks.idxOf l < ks.idxOf k → p l = false := by
        refine forall_congr' fun l => ?_
        cases hl : p l with
        | false => simp
        | true => simp [List.idxOf_cons, hne hl, hne hk]
      constructor
      · rintro ⟨hmem, hk, h⟩
        exact ⟨Or.inr hmem, hk, (hbefore hk).mpr h⟩
      · rintro ⟨hmem, hk, h⟩
        refine ⟨hmem.resolve_left ?_, hk, (hbefore hk).mp h⟩
        rintro rfl
        simpa using hne hk

namespace RuleTable
variable {r : RuleTable} {w : Text} {k : Kind}

/-! ### The kind of a text -/

theorem admits_of_classify (h : r.classify w = some k) : r.admits k w = true :=
  List.find?_some (p := fun k => r.admits k w) h

theorem classify_eq_none_iff : r.classify w = none ↔ ∀ k, r.admits k w = false := by
  simp only [classify, List.find?_eq_none, Bool.not_eq_true]
  exact ⟨fun h k => h k (Kind.mem_precedence k), fun h k _ => h k⟩

theorem classify_eq_some_iff : r.classify w = some k ↔
    r.admits k w = true ∧ ∀ l, Kind.precedence.idxOf l < Kind.precedence.idxOf k → r.admits l w = false := by
  rw [classify, find?_eq_some_iff_idxOf]
  exact and_iff_right (Kind.mem_precedence k)

/-- The tests in their order. -/
theorem classify_eq (r : RuleTable) (w : Text) : r.classify w =
    if r.isLiteral w then some .literal else if r.isKeyword w then some .keyword
    else if isIdentifier w then some .identifier else if r.isOperator w then some .operator
    else if r.isBreaker w then some .breaker else if w == ['\n'] then some .newline
    else if r.isComment w then some .comment else none := by
  simp only [classify, Kind.precedence, List.find?, admits]
  cases r.isLiteral w
  case true => rfl
  cases r.isKeyword w
  case true => rfl
  cases isIdentifier w
  case true => rfl
  cases r.isOperator w
  case true => rfl
  cases r.isBreaker w
  case true => rfl
  cases w == ['\n']
  case true => rfl
  cases r.isComment w <;> rfl

theorem classify_of_isLiteral (h : r.isLiteral w = true) : r.classify w = some .literal := by
  rw [classify_eq, if_pos h]

end RuleTable

end Munch
