import Mathlib.Logic.Function.Iterate
import Munch.Proofs.Boundary

/-! Calls of `next`, one after the other. Between tokens a lexer has no candidate; a call that hands out nothing has
    skipped the blanks up to the end, and one that hands out an error leaves a lexer that never changes again. The
    answer for a whole source is read off the calls. -/

namespace Munch

namespace Lexer

/-- The lexer that `n` calls of `next` lead to. -/
def after (lx : Lexer) (n : Nat) : Lexer := (fun lx => lx.next.2)^[n] lx

/-- What the call of `next` hands out that comes after `n` others. -/
def call (lx : Lexer) (n : Nat) : Option Item := (lx.after n).next.1

section
variable {lx lx' : Lexer} {n : Nat}

theorem call_zero (lx : Lexer) : lx.call 0 = lx.next.1 := rfl

theorem call_succ (lx : Lexer) (n : Nat) : lx.call (n + 1) = lx.next.2.call n := rfl

theorem call_congr (h : lx.next = lx'.next) (n : Nat) : lx.call n = lx'.call n := by
  cases n with
  | zero => rw [call_zero, call_zero, h]
  | succ n => rw [call_succ, call_succ, h]

/-- A call that changes nothing is followed by calls that change nothing. -/
theorem after_of_next_eq (h : lx.next.2 = lx) (n : Nat) : lx.after n = lx := Function.iterate_fixed h n

theorem call_of_next_eq (h : lx.next = (none, lx)) (n : Nat) : lx.call n = none := by
  rw [call, after_of_next_eq (by rw [h]), h]

end

/-- The calls of a lexer between tokens hand out its items, and then nothing. -/
theorem call_of_lexes {r : RuleTable} {file : Text} {p : Nat} {cs : Text} {is : List Item} (h : Lexes r file p cs is)
    (n : Nat) : (between r file p cs).call n = is[n]? := by
  induction h generalizing n with
  | nil => exact call_of_next_eq next_nil n
  | blank hc _ ih => rw [call_congr (next_blank hc), ih]
  | token hc hcut _ ih =>
    cases n with
    | zero => rw [call_zero, next_of_cuts hc hcut, List.getElem?_cons_zero]
    | succ n => rw [call_succ, next_of_cuts hc hcut, ih, List.getElem?_cons_succ]
  | error hc hs =>
    cases n with
    | zero => rw [call_zero, next_of_stuck hc hs, List.getElem?_cons_zero]
    | succ n =>
      rw [call_succ, next_of_stuck hc hs, call_of_next_eq (next_of_failed rfl), List.getElem?_cons_succ, List.getElem?_nil]

theorem call_ofSource (r : RuleTable) (source : Text) (file? : Option Text) (n : Nat) :
    (ofSource r source file?).call n = (ofSource r source file?).items[n]? :=
  call_of_lexes (lexes_items r source file?) n

/-! ### What a call does -/

/-- What holds of a lexer and its calls in a source, however it was reached. -/
structure WellBehaved (source : Text) (lx : Lexer) : Prop where
  between : lx.failed = false → lx.start = lx.cursor ∧ lx.cursor ≤ source.length
  atEof_iff : lx.atEof = true ↔ source.length ≤ lx.cursor
  none_iff : lx.failed = false → (lx.next.1 = none ↔ ∀ c ∈ source.drop lx.cursor, c ∈ blanks)
  ended : lx.failed = false → lx.next.1 = none → ∀ n, (lx.next.2.after n).atEof = true
  token : ∀ t, lx.next.1 = some (.token t) → lx.cursor < lx.next.2.cursor
  error : ∀ e, lx.next.1 = some (.error e) → lx.next.2.cursor + 1 = source.length ∧ lx.next.2.atEof = false ∧
    ∀ n, (lx.next.2.after n).next = (none, lx.next.2)

section
variable {source : Text} {lx : Lexer}

theorem atEof_iff_of_rest (h : lx.rest = source.drop lx.cursor) : lx.atEof = true ↔ source.length ≤ lx.cursor := by
  rw [atEof, h, List.isEmpty_iff, List.drop_eq_nil_iff]

theorem HaltsIn.atEof_eq (h : lx.HaltsIn source) : lx.atEof = false := by
  rw [Bool.eq_false_iff, ne_eq, atEof_iff_of_rest h.rest, ← h.cursor]
  exact Nat.not_succ_le_self _

theorem HaltsIn.next_after (h : lx.HaltsIn source) (n : Nat) : (lx.after n).next = (none, lx) := by
  have hnext : lx.next = (none, lx) := next_of_failed h.failed
  rw [after_of_next_eq (by rw [hnext]), hnext]

theorem HaltsIn.wellBehaved (h : lx.HaltsIn source) : lx.WellBehaved source where
  between hf := by simp [h.failed] at hf
  atEof_iff := atEof_iff_of_rest h.rest
  none_iff hf := by simp [h.failed] at hf
  ended hf := by simp [h.failed] at hf
  token t ht := by simp [next_of_failed h.failed] at ht
  error e he := by simp [next_of_failed h.failed] at he

namespace StandsIn

theorem cursor_eq (h : lx.StandsIn source) : lx.cursor = lx.start := by
  rw [cursor, h.candidate, List.length_nil, Nat.add_zero]

theorem rest_eq (h : lx.StandsIn source) : lx.rest = source.drop lx.cursor := by
  rw [h.cursor_eq, h.rest]

theorem next_eq_none_iff (h : lx.StandsIn source) : lx.next.1 = none ↔ ∀ c ∈ lx.rest, isBlank c = true := by
  rcases h.next_cases with ⟨hnone, hblank, -⟩ | ⟨hblank, ⟨t, htoken, -⟩ | ⟨e, herror, -⟩⟩
  · exact iff_of_true hnone hblank
  · exact iff_of_false (by simp [htoken]) hblank
  · exact iff_of_false (by simp [herror]) hblank

theorem of_next_none (h : lx.StandsIn source) (hnone : lx.next.1 = none) :
    lx.next.2.StandsIn source ∧ lx.next.2.rest = [] := by
  rcases h.next_cases with ⟨-, -, hstands, hnil⟩ | ⟨-, ⟨t, htoken, -⟩ | ⟨e, herror, -⟩⟩
  · exact ⟨hstands, hnil⟩
  · rw [htoken] at hnone
    cases hnone
  · rw [herror] at hnone
    cases hnone

theorem of_next_token {t : Token} (h : lx.StandsIn source) (ht : lx.next.1 = some (.token t)) :
    lx.next.2.StandsIn source ∧ lx.start < lx.next.2.start := by
  rcases h.next_cases with ⟨hnone, -⟩ | ⟨-, ⟨-, -, hstands, hlt⟩ | ⟨e, herror, -⟩⟩
  · rw [hnone] at ht
    cases ht
  · exact ⟨hstands, hlt⟩
  · rw [herror] at ht
    cases ht

theorem of_next_error {e : LexError} (h : lx.StandsIn source) (he : lx.next.1 = some (.error e)) :
    lx.next.2.HaltsIn source := by
  rcases h.next_cases with ⟨hnone, -⟩ | ⟨-, ⟨t, htoken, -⟩ | ⟨-, -, hhalts⟩⟩
  · rw [hnone] at he
    cases he
  · rw [htoken] at he
    cases he
  · exact hhalts

/-- At the end of the source a call changes nothing. -/
theorem next_of_rest_nil (h : lx.StandsIn source) (hnil : lx.rest = []) : lx.next = (none, lx) := by
  rw [h.eq_between, ← h.rest, hnil, next_nil]

theorem wellBehaved (h : lx.StandsIn source) : lx.WellBehaved source where
  between _ := ⟨h.cursor_eq.symm, h.cursor_eq ▸ h.le⟩
  atEof_iff := atEof_iff_of_rest h.rest_eq
  none_iff _ := by simpa only [h.rest_eq, mem_blanks_iff] using h.next_eq_none_iff
  ended _ hnone n := by
    obtain ⟨hstands, hnil⟩ := h.of_next_none hnone
    rw [after_of_next_eq (by rw [hstands.next_of_rest_nil hnil]), atEof, hnil, List.isEmpty_nil]
  token t ht := by
    obtain ⟨hstands, hlt⟩ := h.of_next_token ht
    rwa [h.cursor_eq, hstands.cursor_eq]
  error e he := by
    have hhalts := h.of_next_error he
    exact ⟨hhalts.cursor, hhalts.atEof_eq, hhalts.next_after⟩

end StandsIn

theorem Reachable.wellBehaved {r : RuleTable} {file? : Option Text} (h : Reachable r source file? lx) :
    lx.WellBehaved source := by
  rcases h.standsIn_or_haltsIn with h | h
  · exact h.wellBehaved
  · exact h.wellBehaved

end

end Lexer

/-! ### The answer for a whole source -/

section
variable (r : RuleTable) (source : Text) (file? : Option Text)

theorem tokenize_eq_ok_iff_call (ts : List Token) : tokenize r source file? = .ok ts ↔
    ∀ n, (Lexer.ofSource r source file?).call n = (ts[n]?).map Item.token := by
  rw [tokenize_eq_tokensOf_items, tokensOf_eq_ok_iff, List.ext_getElem?_iff]
  simp only [Lexer.call_ofSource, List.getElem?_map]

theorem tokenize_eq_error_iff_call (e : LexError) : tokenize r source file? = .error e ↔
    ∃ n, (Lexer.ofSource r source file?).call n = some (.error e) ∧
      ∀ i < n, ∃ t, (Lexer.ofSource r source file?).call i = some (.token t) := by
  rw [tokenize_eq_tokensOf_items, tokensOf_eq_error_iff]
  simp only [Lexer.call_ofSource]

/-- The calls that hand out something are the first ones, and no more than there are characters. -/
theorem exists_calls_le : ∃ m ≤ source.length, ∀ n, (Lexer.ofSource r source file?).call n ≠ none ↔ n < m := by
  refine ⟨(Lexer.ofSource r source file?).items.length, (lexes_items r source file?).length_le, fun n => ?_⟩
  rw [Lexer.call_ofSource, ne_eq, List.getElem?_eq_none_iff, Nat.not_le]

/-- A lexer behaves well in every state that calls of `next` lead to. The answer for a source is the tokens that the
    calls hand out up to the first one that hands out nothing, or the first error among them; and one call more than
    there are characters is enough. -/
theorem calls_wellBehaved :
    (∀ lx, Lexer.Reachable r source file? lx → lx.WellBehaved source) ∧
    (∀ ts, tokenize r source file? = .ok ts ↔
      ∀ n, (Lexer.ofSource r source file?).call n = (ts[n]?).map Item.token) ∧
    (∀ e, tokenize r source file? = .error e ↔ ∃ n, (Lexer.ofSource r source file?).call n = some (.error e) ∧
      ∀ i < n, ∃ t, (Lexer.ofSource r source file?).call i = some (.token t)) ∧
    ∃ m ≤ source.length, ∀ n, (Lexer.ofSource r source file?).call n ≠ none ↔ n < m :=
  ⟨fun _ => Lexer.Reachable.wellBehaved, tokenize_eq_ok_iff_call r source file?, tokenize_eq_error_iff_call r source file?,
    exists_calls_le r source file?⟩

end

end Munch
