import Munch.Proofs.Grammar.Enclosed
import Munch.Proofs.Grammar.Numerals
import Munch.Proofs.Grammar.Words
import Munch.Proofs.Stream

/-! The lexer with the standard rules agrees with the grammar. At each character that is not skipped the rules cut off
    the token that the grammar reads there, and are stuck where the grammar reads none. -/

namespace Munch
open RuleTable

variable {c d : Char} {cs : Text} {k : Kind} {next? : Option Char}

/-! ### Signs -/

/-- No newline, operator or breaker but `:=` has two characters. -/
theorem growsTo_sign (hk : k ∈ [.newline, .operator, .breaker]) (hc : c ≠ ':')
    (ho : standard.isCommentOpener [c, d] = false) : standard.growsTo k [c, d] = false := by
  refine growsTo_eq_false ho fun l hl => ?_
  simp only [List.mem_cons, List.not_mem_nil, or_false] at hk
  rcases hk with rfl | rfl | rfl <;> obtain rfl := Kind.eq_of_continuesAs rfl hl
  · simp [admits]
  · simp [admits, isOperator, standard, hc]
  · simp [admits, isBreaker, standard]

theorem cuts_sign (hclass : standard.classify [c] = some k) (hk : k ∈ [.newline, .operator, .breaker]) (hc : c ≠ ':')
    (ho : ∀ d, next? = some d → standard.isCommentOpener [c, d] = false) : standard.Cuts c [] k next? :=
  ⟨trivial, endKind?_eq_some_iff.mpr ⟨hclass, fun d hd => growsTo_sign hk hc (ho d hd)⟩⟩

theorem cuts_operator (hc : c ∈ ['=', '+', '-', '*', '/']) (hline : ¬(c = '/' ∧ cs.head? = some '/'))
    (hblock : ¬(c = '/' ∧ cs.head? = some '*')) : standard.Cuts c [] .operator cs.head? := by
  have hclass : standard.classify [c] = some .operator ∧ c ≠ ':' := by
    simp only [List.mem_cons, List.not_mem_nil, or_false] at hc
    rcases hc with rfl | rfl | rfl | rfl | rfl <;> decide
  refine cuts_sign hclass.1 (by decide) hclass.2 fun d hd => ?_
  rw [Bool.eq_false_iff, ne_eq, isCommentOpener_iff]
  intro hmem
  simp only [List.mem_cons, List.cons.injEq, List.not_mem_nil, or_false, and_true] at hmem
  rcases hmem with ⟨rfl, rfl⟩ | ⟨rfl, rfl⟩
  · exact hline ⟨rfl, hd⟩
  · exact hblock ⟨rfl, hd⟩

theorem cuts_breaker (hc : c ∈ ['(', ')', '\x7b', '\x7d', ',']) : standard.Cuts c [] .breaker next? := by
  have hclass : standard.classify [c] = some .breaker ∧ c ≠ ':' ∧ c ≠ '/' := by
    simp only [List.mem_cons, List.not_mem_nil, or_false] at hc
    rcases hc with rfl | rfl | rfl | rfl | rfl <;> decide
  exact cuts_sign hclass.1 (by decide) hclass.2.1 fun d _ => isCommentOpener_eq_false hclass.2.2

theorem cuts_newline : standard.Cuts '\n' [] .newline next? :=
  cuts_sign (by decide) (by decide) (by decide) fun _ _ => isCommentOpener_eq_false (by decide)

theorem cuts_define : standard.Cuts ':' ['='] .operator next? := by
  refine ⟨⟨by decide, trivial⟩, endKind?_eq_some_iff.mpr ⟨by decide, fun d _ => growsTo_eq_false ?_ fun l hl => ?_⟩⟩
  · simp [isCommentOpener, standard]
  · obtain rfl := Kind.eq_of_continuesAs rfl hl
    simp [admits, isOperator, standard]

/-! ### Places where no token begins -/

theorem stuck_of_classify (h : ∀ u t, cs = u ++ t → standard.classify (c :: u) = none) : standard.Stuck c cs :=
  ⟨growsThrough_of_unclassified fun u d t hu => h u (d :: t) hu, h cs [] (List.append_nil cs).symm⟩

/-- A colon that no equals sign follows is part of no token. -/
theorem stuck_colon (h : cs.head? ≠ some '=') : standard.Stuck ':' cs := by
  refine stuck_of_classify fun u t hu => classify_eq_none_iff.mpr fun l => ?_
  cases l with
  | operator =>
    rw [Bool.eq_false_iff, ne_eq, admits, isOperator_iff]
    intro hmem
    obtain rfl : u = ['='] := by simpa [standard] using hmem
    exact h (by simp [hu])
  | _ => exact admits_eq_false_of_starts (by decide)

/-- A character that the grammar does not name starts no text of any kind. -/
theorem stuck_other (hn : c ≠ '\n') (ha : ¬c.isAlpha) (hd : ¬(c.isDigit ∨ c = '_' ∨ c = '.'))
    (hq : ¬(c = '\'' ∨ c = '\x60')) (hcolon : c ≠ ':') (ho : c ∉ ['=', '+', '-', '*', '/'])
    (hb : c ∉ ['(', ')', '\x7b', '\x7d', ',']) (cs : Text) : standard.Stuck c cs := by
  refine stuck_of_classify fun u t _ => classify_eq_none_iff.mpr fun l => admits_eq_false_of_starts ?_
  have hletter : ∀ x : Char, x.isAlpha = true → c ≠ x := fun x hx hcx => ha (hcx ▸ hx)
  have hword : isWordChar c = false := by
    simp only [not_or] at hd
    simp [isWordChar, Char.isAlphanum, ha, hd]
  rw [Bool.eq_false_iff]
  intro hl
  cases l with
  | literal =>
    simp only [starts, Bool.or_eq_true, List.contains_iff_mem, Numeral.isFractionChar_iff,
      Numeral.isDecimalDigit_iff, List.mem_cons, List.not_mem_nil, or_false] at hl
    rcases hl with (h | h | h | h) | (h | h) | h | h | h
    · exact hq (Or.inl h)
    · exact hq (Or.inr h)
    · exact hletter 't' (by decide) h
    · exact hletter 'f' (by decide) h
    · exact hd (Or.inl h)
    · exact hd (Or.inr (Or.inl h))
    · exact hd (Or.inr (Or.inr h))
    · exact hletter 'E' (by decide) h
    · exact ho (by simp [h])
  | keyword => simp [starts, hword] at hl
  | identifier => simp [starts, hword] at hl
  | operator =>
    rcases List.mem_cons.mp (List.contains_iff_mem.mp hl) with h | h
    · exact hcolon h
    · exact ho h
  | breaker => exact hb (List.contains_iff_mem.mp hl)
  | newline => exact hn (beq_iff_eq.mp hl)
  | comment => exact ho (by simp [beq_iff_eq.mp hl])

/-! ### Tokens -/

/-- What the rules do at `c` when the grammar says that a token begins there, or that none does. -/
def Agrees (c : Char) (cs : Text) : Option (Kind × Nat) → Prop
  | some (k, n) => standard.Cuts c (cs.take n) k (cs.drop n).head?
  | none => standard.Stuck c cs

theorem agrees_lexeme (c : Char) (cs : Text) : Agrees c cs (Grammar.lexeme c cs) := by
  unfold Grammar.lexeme
  by_cases hn : c = '\n'
  · rw [if_pos hn, hn]
    exact cuts_newline
  rw [if_neg hn]
  by_cases ha : c.isAlpha
  · rw [if_pos ha]
    exact cuts_word ha cs
  rw [if_neg ha]
  by_cases hd : c.isDigit ∨ c = '_' ∨ c = '.'
  · rw [if_pos hd]
    exact cuts_numeral hd cs
  rw [if_neg hd]
  by_cases hq : c = '\'' ∨ c = '\x60'
  · rw [if_pos hq]
    have hbound : c ∈ ['\'', '\x60'] := by simpa using hq
    cases h : Grammar.quoted c cs with
    | none => exact stuck_quoted hbound h
    | some n => exact cuts_quoted hbound h
  rw [if_neg hq]
  by_cases hline : c = '/' ∧ cs.head? = some '/'
  · rw [if_pos hline]
    obtain ⟨rfl, hhead⟩ := hline
    obtain ⟨cs, rfl⟩ := List.head?_eq_some_iff.mp hhead
    rw [List.tail_cons]
    cases h : Grammar.lineComment cs with
    | none => exact stuck_lineComment h
    | some n => exact cuts_lineComment h
  rw [if_neg hline]
  by_cases hblock : c = '/' ∧ cs.head? = some '*'
  · rw [if_pos hblock]
    obtain ⟨rfl, hhead⟩ := hblock
    obtain ⟨cs, rfl⟩ := List.head?_eq_some_iff.mp hhead
    rw [List.tail_cons]
    cases h : Grammar.blockComment cs with
    | none => exact stuck_blockComment h
    | some n => exact cuts_blockComment h
  rw [if_neg hblock]
  by_cases hdefine : c = ':' ∧ cs.head? = some '='
  · rw [if_pos hdefine]
    obtain ⟨rfl, hhead⟩ := hdefine
    obtain ⟨cs, rfl⟩ := List.head?_eq_some_iff.mp hhead
    exact cuts_define
  rw [if_neg hdefine]
  by_cases ho : c ∈ ['=', '+', '-', '*', '/']
  · rw [if_pos ho]
    exact cuts_operator ho hline hblock
  rw [if_neg ho]
  by_cases hb : c ∈ ['(', ')', '\x7b', '\x7d', ',']
  · rw [if_pos hb]
    exact cuts_breaker hb
  rw [if_neg hb]
  by_cases hcolon : c = ':'
  · rw [hcolon]
    exact stuck_colon fun hhead => hdefine ⟨hcolon, hhead⟩
  · exact stuck_other hn ha hd hq hcolon ho hb cs

/-! ### Texts -/

theorem exists_lexes_tokens (file : Text) (p : Nat) (cs : Text) :
    ∃ is, Lexes standard file p cs is ∧ tokensOf is = Grammar.tokens file p cs := by
  fun_induction Grammar.tokens file p cs with
  | case1 p => exact ⟨[], .nil, rfl⟩
  | case2 p c cs hc ih =>
    obtain ⟨is, h, htokens⟩ := ih
    exact ⟨is, .blank (by simpa [isBlank_iff] using hc) h, htokens⟩
  | case3 p c cs hc hlex =>
    have hs := agrees_lexeme c cs
    rw [hlex] at hs
    exact ⟨_, .error (by simpa [Bool.eq_false_iff, isBlank_iff] using hc) hs, rfl⟩
  | case4 p c cs hc k n hlex v ih =>
    obtain ⟨is, h, htokens⟩ := ih
    have hcut := agrees_lexeme c cs
    rw [hlex] at hcut
    have := Lexes.token (p := p) (by simpa [Bool.eq_false_iff, isBlank_iff] using hc) hcut h
    rw [List.take_append_drop] at this
    refine ⟨_, this, ?_⟩
    rw [tokensOf, htokens]

/-- The tokens of every source, or its error, are the ones that the grammar reads in it. -/
theorem tokenize_eq_grammar (source : Text) (file? : Option Text) :
    tokenize .standard source file? = Grammar.tokens (file?.getD Lexer.unnamed) 0 source := by
  obtain ⟨is, h, htokens⟩ := exists_lexes_tokens (file?.getD Lexer.unnamed) 0 source
  rw [tokenize_of_lexes h, htokens]

/-- A truth value is read as two words: the first ends before the letter that would complete it. -/
example : tokenize .standard "true".toList none =
    .ok [⟨.identifier, "tru".toList, ⟨0, 2⟩⟩, ⟨.identifier, "e".toList, ⟨3, 3⟩⟩] := rfl

end Munch
