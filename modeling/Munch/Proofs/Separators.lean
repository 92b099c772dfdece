import Munch.Proofs.Composition
import Munch.Proofs.Spacing
import Munch.Proofs.Grammar.Agreement

/-! Separators. Under the standard rules no candidate of some kind goes on over a blank, a breaker, `-` or `=`, and none
    but a line comment goes on over a newline. A source is therefore read before and after such a character as if the
    two parts stood alone. -/

namespace Munch
open RuleTable

/-- The kind of the token that a separator is, and `none` for the blanks, which are skipped. -/
def separatorKind? (c : Char) : Option Kind :=
  if c = '\n' then some .newline
  else if c ∈ ['(', ')', '\x7b', '\x7d', ','] then some .breaker
  else if c ∈ ['-', '='] then some .operator
  else none

/-- The token of a separator at position `p`, if it is one. -/
def separatorTokens (p : Nat) (c : Char) : List Token := (separatorKind? c).toList.map fun k => ⟨k, [c], ⟨p, p⟩⟩

/-- The characters that end what stands before them. -/
def separators : List Char :=
  [' ', '\t', '\x0b', '\x0c', '\r', '(', ')', '\x7b', '\x7d', ',', '-', '=', '\n']

/-- The character `c` separates what follows from a text of `n` characters with the tokens `ts`: a newline does so
    unless the text ends inside a line comment. -/
structure Separates (ts : List Token) (n : Nat) (c : Char) : Prop where
  mem : c ∈ separators
  line : c = '\n' → ∀ t ∈ ts, t.kind = .comment → ['/', '/'] <+: t.value → ¬t.span.Contains (n - 1)

/-! ### Ending before a separator -/

section
variable {c : Char} {v : Text} {k l : Kind}

theorem ends_separator (hc : c ∈ separators) : ends .literal c = false ∧ isWordChar c = false := by
  have hall : (separators.all fun c => !ends .literal c && !isWordChar c) = true := by decide
  simpa using List.all_eq_true.mp hall c hc

theorem ne_nil_of_classify (hv : standard.classify v = some k) : v ≠ [] := by
  rintro rfl
  rw [show standard.classify [] = none from rfl] at hv
  cases hv

theorem isCommentOpener_separator (hc : c ∈ separators) : standard.isCommentOpener (v ++ [c]) = false := by
  rw [Bool.eq_false_iff, ne_eq, isCommentOpener_iff]
  intro hmem
  have hlast : (v ++ [c]).getLast? = some '/' ∨ (v ++ [c]).getLast? = some '*' := by
    simp only [List.mem_cons, List.not_mem_nil, or_false] at hmem
    rcases hmem with h | h <;> simp [h]
  rw [List.getLast?_concat] at hlast
  rcases hlast with h | h <;> cases h <;> exact absurd hc (by decide)

/-- No operator but `:=` has a character before its last one, and a colon has no kind. -/
theorem isOperator_append (hv : standard.classify v = some k) : standard.isOperator (v ++ [c]) = false := by
  rw [Bool.eq_false_iff, ne_eq, isOperator_iff]
  intro hmem
  have hoperators : ∀ w ∈ standard.operators, w.length = 1 ∨ w = [':', '='] := by simp [standard]
  rcases hoperators _ hmem with h | h
  · exact ne_nil_of_classify hv (by simpa using h)
  · have hcolon : v = [':'] := by simpa using congrArg List.dropLast h
    rw [hcolon, show standard.classify [':'] = none from rfl] at hv
    cases hv

theorem isBreaker_append (hv : v ≠ []) : standard.isBreaker (v ++ [c]) = false := by
  rw [Bool.eq_false_iff, ne_eq, isBreaker_iff]
  intro hmem
  have hbreakers : ∀ w ∈ standard.breakers, w.length = 1 := by simp [standard]
  exact hv (by simpa using hbreakers _ hmem)

/-- A comment that goes on over a newline is a line comment. -/
theorem isComment_append_newline (hv : standard.isComment v = true) (h : standard.isComment (v ++ ['\n']) = true) :
    ['/', '/'] <+: v := by
  rw [isComment_iff] at hv h
  rcases hv with ⟨hv, -⟩ | ⟨hv, -⟩
  · exact List.isPrefixOf_iff_prefix.mp hv
  · obtain ⟨t, rfl⟩ := List.isPrefixOf_iff_prefix.mp hv
    simp [List.isPrefixOf, List.isSuffixOf] at h

/-- A candidate of some kind ends before a separator, but for a line comment before a newline. -/
theorem growsTo_separator (hv : standard.classify v = some k) (hc : c ∈ separators)
    (hline : c = '\n' → k = .comment → ¬['/', '/'] <+: v) : standard.growsTo k (v ++ [c]) = false := by
  refine growsTo_eq_false (isCommentOpener_separator hc) fun l hl => ?_
  cases l with
  | literal => exact admits_eq_false_of_ends (ends_separator hc).1
  | keyword | identifier => exact admits_eq_false_of_ends (ends_separator hc).2
  | operator => exact isOperator_append hv
  | breaker => exact isBreaker_append (ne_nil_of_classify hv)
  | newline => simp [admits, List.append_eq_singleton_iff, ne_nil_of_classify hv]
  | comment =>
    rw [Bool.eq_false_iff]
    intro hcomment
    obtain rfl := Kind.eq_of_continuesAs_right rfl hl
    obtain rfl : c = '\n' := by
      have hend := ends_of_admits hcomment
      simp only [ends, Bool.or_eq_true, beq_iff_eq] at hend
      refine hend.resolve_right ?_
      rintro rfl
      exact absurd hc (by decide)
    exact hline rfl rfl (isComment_append_newline (admits_of_classify hv) hcomment)

theorem isBlank_separator (hc : c ∈ separators) (hk : separatorKind? c = none) : isBlank c = true := by
  have hall : (separators.all fun c => (separatorKind? c).isSome || isBlank c) = true := by decide
  simpa [hk] using List.all_eq_true.mp hall c hc

/-- A separator that is no blank is a token, whatever follows it. -/
theorem cuts_separator (hk : separatorKind? c = some k) (next? : Option Char) :
    isBlank c = false ∧ standard.Cuts c [] k next? := by
  unfold separatorKind? at hk
  split at hk
  · next hn =>
    cases hk
    rw [hn]
    exact ⟨rfl, cuts_newline⟩
  split at hk
  · next hb =>
    cases hk
    have hall : (['(', ')', '\x7b', '\x7d', ','].all fun c => !isBlank c) = true := by decide
    exact ⟨by simpa using List.all_eq_true.mp hall c hb, cuts_breaker hb⟩
  split at hk
  · next ho =>
    cases hk
    have hsign : isBlank c = false ∧ standard.classify [c] = some .operator ∧ c ≠ ':' ∧ c ≠ '/' := by
      simp only [List.mem_cons, List.not_mem_nil, or_false] at ho
      rcases ho with rfl | rfl <;> decide
    obtain ⟨hblank, hclass, hcolon, hslash⟩ := hsign
    exact ⟨hblank, cuts_sign hclass (by simp) hcolon fun d _ => isCommentOpener_eq_false hslash⟩
  · cases hk

end

/-! ### Derivations around a separator -/

section
variable {file file' : Text} {p : Nat} {a b : Text} {c : Char} {ts : List Token} {is : List Item}

theorem Lexes.separator (hc : c ∈ separators) (h : Lexes .standard file (p + 1) b is) :
    Lexes .standard file p (c :: b) ((separatorTokens p c).map Item.token ++ is) := by
  cases hk : separatorKind? c with
  | none => simpa [separatorTokens, hk] using Lexes.blank (isBlank_separator hc hk) h
  | some k =>
    obtain ⟨hblank, hcut⟩ := cuts_separator hk b.head?
    simpa [separatorTokens, hk] using Lexes.token (v := []) hblank hcut h

theorem Lexes.separated (h : Lexes .standard file 0 a (ts.map Item.token)) (hc : Separates ts a.length c)
    (hb : Lexes .standard file' 0 b is) : Lexes .standard file' 0 (a ++ c :: b)
      ((ts ++ separatorTokens a.length c).map Item.token ++ is.map (Item.shift (a.length + 1))) := by
  rw [List.map_append, List.append_assoc]
  refine h.append (fun t ht hlast d hd => ?_) ?_
  · -- The token reaches to the separator, so that a line comment would hold the last character of `a`.
    cases hd
    obtain ⟨i, x, v, tail, -, -, hcut, hvalue, hspan⟩ := h.exists_cuts (List.mem_map_of_mem ht)
    rw [hvalue]
    refine growsTo_separator hcut.classify hc.mem fun hn hk hprefix => hc.line hn t ht hk (hvalue ▸ hprefix) ?_
    rw [hspan] at hlast ⊢
    simp only [Span.Contains] at hlast ⊢
    omega
  · rw [Nat.zero_add]
    exact Lexes.separator hc.mem (by simpa using hb.shift (a.length + 1))

end

/-! ### Sources around a separator -/

/-- A source that is cut at a separator has the tokens of the part before it, the token of the separator unless it is a
    blank, and the items of the part after it at the places where they stand. An error in that part is the error of the
    source, and the lexer hands out all those tokens before it. -/
theorem tokenize_separated {a b : Text} {c : Char} {ts : List Token} {file? file?' : Option Text}
    (h : tokenize .standard a file? = .ok ts) (hc : Separates ts a.length c) :
    (Lexer.ofSource .standard (a ++ c :: b) file?').items =
      (ts ++ separatorTokens a.length c).map Item.token ++
        (Lexer.ofSource .standard b file?').items.map (Item.shift (a.length + 1)) ∧
    tokenize .standard (a ++ c :: b) file?' =
      ((tokenize .standard b file?').map fun us =>
        ts ++ separatorTokens a.length c ++ us.map (Token.shift (a.length + 1))).mapError
        (LexError.shift (a.length + 1)) := by
  have hlexes := lexes_items .standard a file?
  rw [tokenize_eq_tokensOf_items, tokensOf_eq_ok_iff] at h
  rw [h] at hlexes
  have hall := hlexes.separated hc (lexes_items .standard b file?')
  refine ⟨(lexes_items .standard (a ++ c :: b) file?').unique hall, ?_⟩
  rw [tokenize_of_lexes hall, tokensOf_tokens_append, Item.shift, tokensOf_map, ← tokenize_eq_tokensOf_items]
  cases tokenize .standard b file?' <;> rfl

/-- A newline separates what stands before it from a literal that is left open: the line comment ends before the blank. -/
theorem tokenize_separated_newline :
    let a := "x//y\n ".toList
    let ts : List Token := [⟨.identifier, ['x'], ⟨0, 0⟩⟩, ⟨.comment, "//y\n".toList, ⟨1, 4⟩⟩]
    tokenize .standard a none = .ok ts ∧ Separates ts a.length '\n' ∧
      tokenize .standard (a ++ '\n' :: "z 'w".toList) none = .error ⟨"'w".toList, ⟨9, 10⟩, Lexer.unnamed⟩ := by
  intro a ts
  have h : tokenize .standard a none = .ok ts := rfl
  have hc : Separates ts a.length '\n' := ⟨by simp [separators], fun _ => by simp [ts, a, Span.Contains]⟩
  refine ⟨h, hc, ?_⟩
  rw [(tokenize_separated h hc).2]
  rfl

/-- A plus sign is no separator: the fraction before it goes on. -/
example : tokenize .standard "1.+2".toList none = .ok [⟨.literal, "1.+2".toList, ⟨0, 3⟩⟩] := rfl

end Munch
