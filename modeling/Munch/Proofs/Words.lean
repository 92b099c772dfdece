import Mathlib.Data.List.TakeWhile
import Munch.Proofs.Grammar.Numerals
import Munch.Proofs.Grammar.Words
import Munch.Proofs.Stream

/-! Sources that are one run of letters, digits and underscores. Each has tokens and no error, and its tokens are its
    pieces. It is a single token when it is a numeral, or when it starts with a letter and not with a truth value: in
    any other run some initial part is a literal where a shorter or a longer one is a word. -/

namespace Munch
open RuleTable

/-- A run that is not cut: a numeral, or a word in which no truth value begins. -/
def isWhole (w : Text) : Bool :=
  isNumeral w ||
    (w.head?.any Char.isAlpha && !(['t', 'r', 'u', 'e'].isPrefixOf w) && !(['f', 'a', 'l', 's', 'e'].isPrefixOf w))

variable {c : Char} {w u t cs : Text}

/-! ### Initial parts of numerals -/

namespace Numeral

theorem isRadix_of_append {mark : Char} {isDigit : Char → Bool} (hu : u ≠ []) (h : isRadix mark isDigit (u ++ t) = true) :
    u = ['0'] ∨ isRadix mark isDigit u = true := by
  obtain ⟨v, heq, hall⟩ := isRadix_iff.mp h
  match u with
  | [a] =>
    obtain ⟨rfl, -⟩ := List.cons.inj heq
    exact Or.inl rfl
  | a :: b :: u =>
    simp only [List.cons_append, List.cons.injEq] at heq
    obtain ⟨rfl, rfl, rfl⟩ := heq
    exact Or.inr (isRadix_iff.mpr ⟨u, rfl, fun d hd => hall d (List.mem_append_left t hd)⟩)

theorem isNumeral_of_append (hu : u ≠ []) (hpoint : '.' ∉ u ++ t) (h : isNumeral (u ++ t) = true) : isNumeral u = true := by
  have hzero : isNumeral ['0'] = true := by decide
  have hradix : ∀ {mark isDigit}, isRadix mark isDigit (u ++ t) = true → (isRadix mark isDigit u = true → isNumeral u = true) →
      isNumeral u = true := by
    intro mark isDigit hmark hnumeral
    rcases isRadix_of_append hu hmark with rfl | hmark
    · exact hzero
    · exact hnumeral hmark
  simp only [isNumeral, Bool.or_eq_true] at h
  rcases h with (((h | h) | h) | h) | h
  · simp only [isInteger, Bool.and_eq_true, List.all_eq_true] at h
    exact isNumeral_of_digits hu fun x hx => h.2 x (List.mem_append_left t hx)
  · simp only [isFraction, Bool.and_eq_true, beq_iff_eq] at h
    rw [List.count_eq_zero.mpr hpoint] at h
    cases h.2
  · exact hradix h fun hu => by simp [isNumeral, hu]
  · exact hradix h fun hu => by simp [isNumeral, hu]
  · exact hradix h fun hu => by simp [isNumeral, hu]

end Numeral

/-! ### The first token of a run -/

theorem isBlank_of_isWordChar (h : isWordChar c = true) : isBlank c = false := by
  rw [Bool.eq_false_iff]
  intro hc
  rcases isBlank_iff.mp hc with rfl | rfl | rfl | rfl | rfl <;> exact absurd h (by decide)

theorem isWhole_word (hc : c.isAlpha = true) (hcs : ∀ d ∈ cs, isWordChar d = true) :
    cs.drop (Grammar.word c cs) = [] ↔ isWhole (c :: cs) = true := by
  have hwhole : isWhole (c :: cs) =
      (!(['t', 'r', 'u', 'e'].isPrefixOf (c :: cs)) && !(['f', 'a', 'l', 's', 'e'].isPrefixOf (c :: cs))) := by
    simp only [isWhole, isNumeral_word hc hcs, List.head?_cons, Option.any_some, hc, Bool.false_or, Bool.true_and]
  rw [hwhole, Grammar.word, List.drop_eq_nil_iff]
  have hlen : ∀ x : Text, x.isPrefixOf (c :: cs) = true → x.length ≤ cs.length + 1 := fun x hx =>
    (List.isPrefixOf_iff_prefix.mp hx).length_le
  by_cases htrue : ['t', 'r', 'u', 'e'].isPrefixOf (c :: cs)
  · have : 4 ≤ cs.length + 1 := hlen _ htrue
    simp only [htrue, ↓reduceIte, Bool.not_true, Bool.false_and, Bool.false_eq_true, iff_false]
    omega
  by_cases hfalse : ['f', 'a', 'l', 's', 'e'].isPrefixOf (c :: cs)
  · have : 5 ≤ cs.length + 1 := hlen _ hfalse
    simp only [htrue, hfalse, Bool.false_eq_true, ↓reduceIte, Bool.not_true, Bool.and_false, iff_false]
    omega
  have hrun : Grammar.run isWordChar cs = cs.length := by
    rw [Grammar.run, List.takeWhile_eq_self_iff.mpr hcs]
  simp [htrue, hfalse, hrun]

/-- From a digit or an underscore on, a run is cut only where it would be a numeral no longer. -/
theorem isWhole_numeral {v rest : Text} (hc : c.isDigit = true ∨ c = '_') (hw : ∀ d ∈ c :: (v ++ rest), isWordChar d = true)
    (hcut : standard.Cuts c v .literal rest.head?) : rest = [] ↔ isWhole (c :: (v ++ rest)) = true := by
  have hdigit := Numeral.isDecimalDigit_iff.mpr hc
  have halpha : c.isAlpha = false := by
    rw [Bool.eq_false_iff]
    intro ha
    rw [isDecimalDigit_of_isAlpha ha] at hdigit
    cases hdigit
  have hliteral : ∀ w, standard.isLiteral (c :: w) = isNumeral (c :: w) := fun w => isLiteral_numeral (Or.inl hdigit)
  have hwhole : isWhole (c :: (v ++ rest)) = isNumeral (c :: (v ++ rest)) := by simp [isWhole, halpha]
  rw [hwhole]
  constructor
  · rintro rfl
    rw [List.append_nil, ← hliteral]
    exact admits_of_classify hcut.classify
  · intro hnumeral
    cases rest with
    | nil => rfl
    | cons d rest =>
      have hsplit : c :: (v ++ d :: rest) = (c :: v ++ [d]) ++ rest := by simp
      rw [hsplit] at hnumeral hw
      have hlonger := Numeral.isNumeral_of_append (by simp) (point_notMem_word hw) hnumeral
      have hclass : standard.classify (c :: v ++ [d]) = some .literal := classify_of_isLiteral ((hliteral _).trans hlonger)
      have hends := (endKind?_eq_some_iff.mp hcut.ends).2 d rfl
      rw [growsTo_iff.mpr (Or.inr ⟨_, hclass, Kind.continuesAs_self _⟩)] at hends
      cases hends

theorem exists_cuts_word (hcs : ∀ d ∈ c :: cs, isWordChar d = true) : ∃ v rest k, cs = v ++ rest ∧
    standard.Cuts c v k rest.head? ∧ (rest = [] ↔ isWhole (c :: cs) = true) := by
  have hc : c = '_' ∨ c.isAlpha = true ∨ c.isDigit = true := by
    simpa [isWordChar, Char.isAlphanum] using hcs c List.mem_cons_self
  by_cases ha : c.isAlpha = true
  · exact ⟨_, _, _, (List.take_append_drop _ cs).symm, cuts_word ha cs,
      isWhole_word ha fun d hd => hcs d (List.mem_cons_of_mem c hd)⟩
  · have hd : c.isDigit = true ∨ c = '_' := by
      rcases hc with hc | hc | hc
      · exact Or.inr hc
      · exact absurd hc ha
      · exact Or.inl hc
    have hcut := cuts_numeral (c := c) (hd.imp_right Or.inl) cs
    have hsplit := List.take_append_drop (Grammar.numeral c cs) cs
    have hiff := isWhole_numeral hd (by rwa [hsplit]) hcut
    rw [hsplit] at hiff
    exact ⟨_, _, _, hsplit.symm, hcut, hiff⟩

/-! ### All tokens of a run -/

theorem exists_lexes_word (file : Text) : ∀ (p : Nat) (cs : Text), (∀ d ∈ cs, isWordChar d = true) →
    ∃ ts : List Token, Lexes standard file p cs (ts.map Item.token) ∧ ts.flatMap Token.value = cs ∧
      (isWhole cs = true → ∃ k, ts = [⟨k, cs, ⟨p, p + (cs.length - 1)⟩⟩]) ∧
      (cs ≠ [] → isWhole cs = false → 2 ≤ ts.length)
  | _, [], _ => ⟨[], .nil, rfl, fun h => absurd h (by decide), fun h => absurd rfl h⟩
  | p, c :: cs, hcs => by
    -- By induction on the length of the run: behind its first token there is a shorter one.
    obtain ⟨v, rest, k, rfl, hcut, hwhole⟩ := exists_cuts_word hcs
    have hlt : rest.length < (c :: (v ++ rest)).length := by
      rw [List.length_cons, List.length_append]
      omega
    obtain ⟨ts, h, hvalues, -, -⟩ := exists_lexes_word file (p + v.length + 1) rest fun d hd =>
      hcs d (List.mem_cons_of_mem c (List.mem_append_right v hd))
    refine ⟨⟨k, c :: v, ⟨p, p + v.length⟩⟩ :: ts, .token (isBlank_of_isWordChar (hcs c List.mem_cons_self)) hcut h,
      by simp [hvalues], fun htrue => ⟨k, ?_⟩, fun _ hfalse => ?_⟩
    · obtain rfl := hwhole.mpr htrue
      have hts : ts = [] := List.map_eq_nil_iff.mp (h.unique .nil)
      simp [hts]
    · have hts : ts ≠ [] := by
        rintro rfl
        have hrest : rest = [] := hvalues.symm
        rw [hwhole.mp hrest] at hfalse
        cases hfalse
      have := List.length_pos_iff.mpr hts
      rw [List.length_cons]
      omega
termination_by _ cs => cs.length

/-- A source of letters, digits and underscores has tokens whose values put together are the source. When the run is
    whole there is one, and its kind is that of the whole text; otherwise there are more. -/
theorem tokenize_word (hne : w ≠ []) (hw : ∀ c ∈ w, isWordChar c = true) (file? : Option Text) :
    ∃ ts, tokenize .standard w file? = .ok ts ∧ ts.flatMap Token.value = w ∧
      (∀ t ∈ ts, standard.classify t.value = some t.kind) ∧
      (isWhole w = true → ∃ k, standard.classify w = some k ∧ ts = [⟨k, w, ⟨0, w.length - 1⟩⟩]) ∧
      (isWhole w = false → 2 ≤ ts.length) := by
  obtain ⟨ts, h, hvalues, hone, hmany⟩ := exists_lexes_word (file?.getD Lexer.unnamed) 0 w hw
  have hkinds : ∀ t ∈ ts, standard.classify t.value = some t.kind := by
    intro t ht
    obtain ⟨_, _, _, _, -, -, hcut, hvalue, -⟩ := h.exists_cuts (List.mem_map_of_mem ht)
    rw [hvalue, hcut.classify]
  refine ⟨ts, ?_, hvalues, hkinds, fun htrue => ?_, hmany hne⟩
  · rw [tokenize_of_lexes h, tokensOf_map_token]
  · obtain ⟨k, rfl⟩ := hone htrue
    rw [Nat.zero_add] at hkinds ⊢
    exact ⟨k, hkinds _ List.mem_cons_self, rfl⟩

/-- `0b1` grows on over the underscore, and the run is a single literal. -/
theorem tokenize_word_binary :
    let w := "0b1_01".toList
    w ≠ [] ∧ (∀ c ∈ w, isWordChar c = true) ∧ isWhole w = true ∧
      tokenize .standard w none = .ok [⟨.literal, w, ⟨0, 5⟩⟩] := by
  intro w
  have hne : w ≠ [] := by simp [w]
  have hw : ∀ c ∈ w, isWordChar c = true := List.all_eq_true.mp rfl
  have hwhole : isWhole w = true := by decide
  obtain ⟨ts, hts, -, -, hone, -⟩ := tokenize_word hne hw none
  obtain ⟨k, hk, rfl⟩ := hone hwhole
  have hkind : k = .literal := by
    rw [show standard.classify w = some .literal by decide, Option.some.injEq] at hk
    exact hk.symm
  rw [hkind] at hts
  exact ⟨hne, hw, hwhole, hts⟩

/-- Not every run is one token with the kind of the whole text: `true` is a literal, and it is read as two words. -/
theorem not_forall_word_whole : ¬∀ (w : Text) (file? : Option Text), w ≠ [] → (∀ c ∈ w, isWordChar c = true) →
    ∃ t, tokenize .standard w file? = .ok [t] ∧ t.value = w ∧ standard.classify w = some t.kind := by
  intro h
  obtain ⟨t, ht, -⟩ := h "true".toList none (by simp) (List.all_eq_true.mp rfl)
  have htwo : tokenize .standard "true".toList none =
      .ok [⟨.identifier, "tru".toList, ⟨0, 2⟩⟩, ⟨.identifier, "e".toList, ⟨3, 3⟩⟩] := rfl
  rw [htwo] at ht
  cases ht

/-- Neither is a run that only starts as a numeral. -/
example : tokenize .standard "0b12".toList none =
    .ok [⟨.literal, "0b1".toList, ⟨0, 2⟩⟩, ⟨.literal, "2".toList, ⟨3, 3⟩⟩] := rfl

end Munch
