import Munch.Proofs.Calls
import Munch.Proofs.Composition

/-! What a lexer reads. The tokens of a source are settled by its characters up to one past the last of them, whatever
    comes after that one. Behind a token nothing that was read before counts: the lexer goes on as one that starts there. -/

namespace Munch

/-! ### One character of lookahead -/

/-- A text that agrees with `a ++ rest` beyond `a` goes on after `a` with the same character. -/
theorem exists_append_of_take_eq {a rest y : Text} {n : Nat} (h : (a ++ rest).take n = y.take n) (hn : a.length < n) :
    ∃ rest', y = a ++ rest' ∧ rest'.head? = rest.head? := by
  have htake : y.take a.length = a := calc
    y.take a.length = (y.take n).take a.length := by rw [List.take_take, Nat.min_eq_left (Nat.le_of_lt hn)]
    _ = ((a ++ rest).take n).take a.length := by rw [h]
    _ = a := by rw [List.take_take, Nat.min_eq_left (Nat.le_of_lt hn), List.take_left]
  have hhead : y[a.length]? = (a ++ rest)[a.length]? := by
    rw [← List.getElem?_take_of_lt hn, ← h, List.getElem?_take_of_lt hn]
  refine ⟨y.drop a.length, ?_, ?_⟩
  · conv_lhs => rw [← List.take_append_drop a.length y, htake]
  · rw [List.head?_drop, hhead, ← List.head?_drop, List.drop_left]

section
variable {r : RuleTable} {x y : Text} {n : Nat} {ts : List Token}

theorem prefix_items_of_take_eq (hxy : x.take n = y.take n) (hn : ∀ t, ts.getLast? = some t → t.span.last + 1 < n)
    (file? file?' : Option Text) (h : ts.map Item.token <+: (Lexer.ofSource r x file?).items) :
    ts.map Item.token <+: (Lexer.ofSource r y file?').items := by
  cases hlast : ts.getLast? with
  | none =>
    rw [List.getLast?_eq_none_iff.mp hlast]
    exact List.nil_prefix
  | some t =>
    obtain ⟨is, his⟩ := h
    obtain ⟨a, rest, rfl, hreach, ha, -, hends⟩ := (his ▸ lexes_items r x file?).split
    have hlt : a.length < n := by
      have := hn t hlast
      rw [reach_of_getLast? hlast] at hreach
      omega
    obtain ⟨rest', rfl, hhead⟩ := exists_append_of_take_eq hxy hlt
    obtain ⟨js, hjs⟩ := exists_lexes r (file?'.getD Lexer.unnamed) (0 + a.length) rest'
    have hy := ha.append (fun u hu hend d hd => hends u hu hend d (hhead ▸ hd)) hjs
    exact ⟨js, hy.unique (lexes_items r _ file?')⟩

/-- Two sources that agree on their first `n` characters have the same first tokens, when the character after the last
    of these is still a common one. What follows in either source, and whether one of them fails there, does not matter. -/
theorem tokens_prefix_items_iff (hxy : x.take n = y.take n) (hn : ∀ t, ts.getLast? = some t → t.span.last + 1 < n)
    (file? file?' : Option Text) :
    ts.map Item.token <+: (Lexer.ofSource r x file?).items ↔ ts.map Item.token <+: (Lexer.ofSource r y file?').items :=
  ⟨prefix_items_of_take_eq hxy hn file? file?', prefix_items_of_take_eq hxy.symm hn file?' file?⟩

end

/-- The slash in common settles that the numeral before it has ended, though it opens a comment that is never closed in
    one source and is an operator in the other. -/
theorem tokens_prefix_items_iff_slash :
    let x := "x:=1/*".toList
    let y := "x:=1/ y".toList
    let ts : List Token := [⟨.identifier, ['x'], ⟨0, 0⟩⟩, ⟨.operator, [':', '='], ⟨1, 2⟩⟩, ⟨.literal, ['1'], ⟨3, 3⟩⟩]
    x.take 5 = y.take 5 ∧ (∀ t, ts.getLast? = some t → t.span.last + 1 < 5) ∧
      ts.map Item.token <+: (Lexer.ofSource .standard x none).items ∧
      ts.map Item.token <+: (Lexer.ofSource .standard y none).items := by
  intro x y ts
  have hxy : x.take 5 = y.take 5 := rfl
  have hn : ∀ t, ts.getLast? = some t → t.span.last + 1 < 5 := by
    intro t ht
    cases ht
    decide
  have hx : ts.map Item.token <+: (Lexer.ofSource .standard x none).items :=
    ⟨[.error ⟨['/', '*'], ⟨4, 5⟩, Lexer.unnamed⟩], rfl⟩
  exact ⟨hxy, hn, hx, (tokens_prefix_items_iff hxy hn none none).mp hx⟩

/-- A token up to the place where the sources part may go on behind it. -/
example : (Lexer.ofSource .standard "1".toList none).items = [.token ⟨.literal, "1".toList, ⟨0, 0⟩⟩] ∧
    (Lexer.ofSource .standard "1.5".toList none).items = [.token ⟨.literal, "1.5".toList, ⟨0, 2⟩⟩] := ⟨rfl, rfl⟩

/-! ### Starting behind a token -/

section
variable {r : RuleTable} {source file : Text} {file? : Option Text} {p : Nat} {cs : Text} {is : List Item} {t : Token}

theorem Lexes.exists_tokens_before (h : Lexes r file p cs is) (ht : .token t ∈ is) :
    ∃ ts js, is = (ts ++ [t]).map Item.token ++ js := by
  induction h with
  | nil => cases ht
  | blank _ _ ih => exact ih ht
  | token _ _ _ ih =>
    rcases List.mem_cons.mp ht with h | h
    · cases h
      exact ⟨[], _, rfl⟩
    · obtain ⟨ts, js, rfl⟩ := ih h
      exact ⟨_ :: ts, js, rfl⟩
  | error => simp at ht

theorem items_eq_of_split {ts : List Token} (h : (Lexer.ofSource r source file?).items = ts.map Item.token ++ is) :
    (∀ t ∈ ts, t.span.last < reach 0 ts) ∧
      is = (Lexer.ofSource r (source.drop (reach 0 ts)) file?).items.map (Item.shift (reach 0 ts)) := by
  obtain ⟨a, rest, rfl, hreach, ha, hrest, -⟩ := (h ▸ lexes_items r source file?).split
  rw [Nat.zero_add] at hreach
  rw [← hreach, List.drop_left]
  refine ⟨fun t ht => ?_, ?_⟩
  · have := ha.last_lt (List.mem_map_of_mem ht)
    rwa [Nat.zero_add] at this
  · exact hrest.unique ((lexes_items r rest file?).shift a.length)

/-- Behind a token, and at the start, a lexer hands out what a lexer of the rest hands out, each item moved to where it
    stands: `ts` are the tokens before that place. An error of the rest is the error of the source, with the same text. -/
theorem items_restart (hp : p = 0 ∨ ∃ t, .token t ∈ (Lexer.ofSource r source file?).items ∧ p = t.span.last + 1) :
    ∃ ts : List Token, (∀ t ∈ ts, t.span.last < p) ∧
      (Lexer.ofSource r source file?).items =
        ts.map Item.token ++ (Lexer.ofSource r (source.drop p) file?).items.map (Item.shift p) ∧
      (∀ n, (Lexer.ofSource r source file?).call (ts.length + n) =
        ((Lexer.ofSource r (source.drop p) file?).call n).map (Item.shift p)) ∧
      tokenize r source file? = ((tokenize r (source.drop p) file?).map fun us =>
        ts ++ us.map (Token.shift p)).mapError (LexError.shift p) := by
  obtain ⟨ts, is, rfl, his⟩ : ∃ ts is, reach 0 ts = p ∧
      (Lexer.ofSource r source file?).items = ts.map Item.token ++ is := by
    rcases hp with rfl | ⟨t, ht, rfl⟩
    · exact ⟨[], _, rfl, rfl⟩
    · obtain ⟨ts, js, h⟩ := (lexes_items r source file?).exists_tokens_before ht
      exact ⟨ts ++ [t], js, reach_of_getLast? List.getLast?_concat, h⟩
  obtain ⟨hlast, rfl⟩ := items_eq_of_split his
  refine ⟨ts, hlast, his, fun n => ?_, ?_⟩
  · rw [Lexer.call_ofSource, Lexer.call_ofSource, his, List.getElem?_append_right (by simp)]
    simp
  · rw [tokenize_eq_tokensOf_items, his, tokensOf_append_shift, ← tokenize_eq_tokensOf_items]

end

/-- Behind `tru`, which ended before a letter, the blank and the open literal are read as at the start of a source. -/
theorem items_restart_literal :
    let source := "true 'x".toList
    Item.token ⟨.identifier, "tru".toList, ⟨0, 2⟩⟩ ∈ (Lexer.ofSource .standard source none).items ∧
      tokenize .standard (source.drop 3) none = .error ⟨"'x".toList, ⟨2, 3⟩, Lexer.unnamed⟩ ∧
      tokenize .standard source none = .error ⟨"'x".toList, ⟨5, 6⟩, Lexer.unnamed⟩ := by
  intro source
  have ht : Item.token ⟨.identifier, "tru".toList, ⟨0, 2⟩⟩ ∈ (Lexer.ofSource .standard source none).items :=
    List.mem_cons_self
  have hrest : tokenize .standard (source.drop 3) none = .error ⟨"'x".toList, ⟨2, 3⟩, Lexer.unnamed⟩ := rfl
  obtain ⟨ts, -, -, -, htokenize⟩ := items_restart (p := 3) (Or.inr ⟨_, ht, rfl⟩)
  rw [htokenize, hrest]
  exact ⟨ht, rfl, rfl⟩

end Munch
