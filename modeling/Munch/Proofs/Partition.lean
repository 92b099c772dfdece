import Munch.Proofs.Spacing

/-! The items of a source partition it: tokens in their order, an error that reaches to the end if there is one, and
    blanks everywhere else. -/

namespace Munch

/-- The tokens `ts` and the error `e?` partition a source. -/
structure Partitions (r : RuleTable) (source : Text) (ts : List Token) (e? : Option LexError) : Prop where
  bounds : ∀ t ∈ ts, t.span.first ≤ t.span.last ∧ t.span.last < source.length
  ordered : ts.Pairwise fun t u => t.span.last < u.span.first
  value : ∀ t ∈ ts, t.value = t.span.slice source
  nonempty : ∀ t ∈ ts, t.value ≠ []
  kind : ∀ t ∈ ts, r.classify t.value = some t.kind
  error : ∀ e, e? = some e → (∀ t ∈ ts, t.span.last < e.span.first) ∧ e.span.first ≤ e.span.last ∧
    e.span.last + 1 = source.length ∧ e.token = source.drop e.span.first
  gaps : ∀ i c, source[i]? = some c → (∀ t ∈ ts, ¬t.span.Contains i) → (∀ e, e? = some e → ¬e.span.Contains i) →
    c ∈ blanks ∧ c ≠ '\n'
  rebuilt : ∃ gap ps, BlankGaps gap ps ∧ ps.map Prod.fst = ts ∧ placed 0 gap ps = ts ∧
    source = spaced gap ps ++ (e?.map LexError.token).getD []

theorem ne_newline_of_mem_blanks {c : Char} (h : c ∈ blanks) : c ≠ '\n' := by
  rintro rfl
  exact absurd h (by decide)

section
variable {r : RuleTable} {file source gap : Text} {ps : List (Token × Text)} {e? : Option LexError}

theorem Laid.error_span (h : Laid r file 0 source gap ps e?) {e : LexError} (he : e? = some e) :
    e.span.first = (spaced gap ps).length ∧ e.span.first ≤ e.span.last ∧ e.span.last + 1 = source.length ∧
      e.token = source.drop e.span.first := by
  obtain ⟨hne, -, hspan⟩ := h.error e he
  have hpos : 0 < e.token.length := List.length_pos_iff.mpr hne
  have htext : source = spaced gap ps ++ e.token := by simpa [he] using h.text
  have hlen : source.length = (spaced gap ps).length + e.token.length := by rw [htext, List.length_append]
  refine ⟨by simp [hspan], ?_, ?_, ?_⟩
  · rw [hspan]
    exact Nat.le_add_right _ _
  · rw [hspan, hlen]
    simp only
    omega
  · rw [hspan, htext]
    simp

theorem Laid.partitions (h : Laid r file 0 source gap ps e?) : Partitions r source (ps.map Prod.fst) e? := by
  have hts := h.placed
  have hlen : (spaced gap ps).length ≤ source.length := by
    rw [h.text, List.length_append]
    exact Nat.le_add_right _ _
  have hbounds : ∀ t ∈ ps.map Prod.fst, t.span.first ≤ t.span.last ∧ t.span.last < (spaced gap ps).length := by
    intro t ht
    obtain ⟨-, h1, h2⟩ := placed_bounds h.nonempty (hts ▸ ht)
    exact ⟨h1, by simpa using h2⟩
  have hmem : ∀ t ∈ ps.map Prod.fst, ∃ x ∈ ps, x.1 = t := fun t ht => List.mem_map.mp ht
  constructor
  case bounds => exact fun t ht => ⟨(hbounds t ht).1, Nat.lt_of_lt_of_le (hbounds t ht).2 hlen⟩
  case ordered => exact hts ▸ placed_ordered h.nonempty
  case value =>
    intro t ht
    rw [h.text]
    exact value_eq_slice h.nonempty [] _ rfl (hts ▸ ht)
  case nonempty =>
    intro t ht
    obtain ⟨x, hx, rfl⟩ := hmem t ht
    exact h.nonempty x hx
  case kind =>
    intro t ht
    obtain ⟨x, hx, rfl⟩ := hmem t ht
    exact h.kind x hx
  case error =>
    intro e he
    obtain ⟨hfirst, h1, h2, h3⟩ := h.error_span he
    exact ⟨fun t ht => hfirst ▸ (hbounds t ht).2, h1, h2, h3⟩
  case gaps =>
    intro i c hc hi he
    suffices hblank : c ∈ blanks from ⟨hblank, ne_newline_of_mem_blanks hblank⟩
    by_cases hin : i < (spaced gap ps).length
    · rw [h.text, List.getElem?_append_left hin] at hc
      exact mem_blanks_of_not_contains (p := 0) h.blank hc fun t ht => by simpa using hi t (hts ▸ ht)
    · -- Past the last gap there is only the error, which reaches to the end of the source.
      have hlt : i < source.length := (List.getElem?_eq_some_iff.mp hc).1
      cases e? with
      | none =>
        have htext : source = spaced gap ps := by simpa using h.text
        exact absurd (htext ▸ hlt) hin
      | some e =>
        obtain ⟨hfirst, -, hlast, -⟩ := h.error_span rfl
        exact absurd ⟨by omega, by omega⟩ (he e rfl)
  case rebuilt => exact ⟨gap, ps, h.blank, rfl, hts, h.text⟩

end

theorem tokensOf_append_toList (ts : List Token) (e? : Option LexError) :
    tokensOf (ts.map Item.token ++ (e?.map Item.error).toList) =
      match e? with
      | none => .ok ts
      | some e => .error e := by
  cases e? with
  | none => simpa using tokensOf_map_token ts
  | some e => exact tokensOf_append_error ts e []

/-- Whatever a lexer hands out, by any number of calls, is the beginning of one list of items: the tokens and then
    the error of a partition of its source. The answer for the whole source is all the tokens, or the error. -/
theorem items_partition (r : RuleTable) (source : Text) (file? : Option Text) :
    ∃ (ts : List Token) (e? : Option LexError),
      (Lexer.ofSource r source file?).items = ts.map Item.token ++ (e?.map Item.error).toList ∧
      (∀ n, ((Lexer.ofSource r source file?).pull (fun _ => false) n).1 =
        (Lexer.ofSource r source file?).items.take n) ∧
      tokenize r source file? = (match e? with | none => .ok ts | some e => .error e) ∧
      Partitions r source ts e? := by
  have h := lexes_items r source file?
  obtain ⟨gap, ps, e?, his, hlaid⟩ := h.laid
  refine ⟨ps.map Prod.fst, e?, his, fun n => Lexer.pull_of_lexes (fun _ => rfl) h n, ?_, hlaid.partitions⟩
  rw [tokenize_eq_tokensOf_items, his, tokensOf_append_toList]

end Munch
