import Munch.Dump

/-! Lines of the token dump. Whatever is in a token, its line holds no newline, so a dump has as many newlines as tokens. -/

namespace Munch

namespace Text

theorem not_mem_decimal {c : Char} (hc : c.isDigit = false) (n : Nat) : c ∉ decimal n := by
  intro h
  rw [Nat.isDigit_of_mem_toDigits (by omega) (by omega) h] at hc
  cases hc

theorem newline_not_mem_padRight {w : Text} (h : '\n' ∉ w) (width : Nat) : '\n' ∉ padRight width w := by
  simp [padRight, h, List.mem_replicate]

theorem count_newline_unlines {ls : List Text} (h : ∀ l ∈ ls, '\n' ∉ l) : (unlines ls).count '\n' = ls.length := by
  induction ls with
  | nil => rfl
  | cons l ls ih =>
    obtain ⟨hl, hls⟩ := List.forall_mem_cons.mp h
    have hrest := ih hls
    rw [unlines] at hrest ⊢
    rw [List.flatMap_cons, List.count_append, List.count_append, List.count_eq_zero_of_not_mem hl, hrest]
    simp [Nat.add_comm]

end Text

theorem Kind.isUpper_of_mem_name {k : Kind} {c : Char} (h : c ∈ k.name) : c.isUpper = true := by
  have hall : k.name.all Char.isUpper = true := by cases k <;> rfl
  exact List.all_eq_true.mp hall c h

theorem Kind.not_mem_name {c : Char} (hc : c.isUpper = false) (k : Kind) : c ∉ k.name := by
  intro h
  rw [isUpper_of_mem_name h] at hc
  cases hc

theorem Span.not_mem_render {c : Char} (hc : c.isDigit = false) (hmarks : c ∉ ['[', '.', ']']) (s : Span) :
    c ∉ s.render := by
  have hfirst := Text.not_mem_decimal hc s.first
  have hlast := Text.not_mem_decimal hc s.last
  simp only [render, List.cons_append, List.mem_cons, List.mem_append, List.not_mem_nil, or_false, not_or] at hmarks ⊢
  exact ⟨hmarks.1, ⟨⟨hfirst, hmarks.2.1, hmarks.2.1, hmarks.2.1⟩, hlast⟩, hmarks.2.2⟩

namespace Token

theorem newline_not_mem_flatten (w : Text) : '\n' ∉ flatten w := by
  intro h
  obtain ⟨c, -, hc⟩ := List.mem_flatMap.mp h
  split at hc
  · simp at hc
  · rename_i hne
    exact hne (List.mem_singleton.mp hc).symm

theorem newline_not_mem_dumpLine (t : Token) : '\n' ∉ t.dumpLine := by
  have hkind := Text.newline_not_mem_padRight (t.kind.not_mem_name rfl) 10
  have hspan := Text.newline_not_mem_padRight (t.span.not_mem_render rfl (by decide)) 14
  have htype : '\n' ∉ "TYPE: ".toList := by decide
  have hpos : '\n' ∉ "  POS: ".toList := by decide
  have hvalue : '\n' ∉ "  VALUE: \"".toList := by decide
  unfold dumpLine
  simp only [List.mem_append, not_or]
  exact ⟨⟨⟨⟨⟨⟨htype, hkind⟩, hpos⟩, hspan⟩, hvalue⟩, newline_not_mem_flatten t.value⟩, by decide⟩

end Token

end Munch
