import Munch.Proofs.Grammar.Enclosed
import Munch.Proofs.Stream

/-! Where comments end. A comment ends at the first closer behind its opener, but a line comment goes on over the newlines
    directly after the first one, and the closer of `/*/` shares the star of the opener. -/

namespace Munch
open RuleTable

/-- The text `x` stands at the end of `w` and nowhere before. -/
def OnlyAtEnd (x w : Text) : Prop := x <:+ w ∧ ∀ u v, w = u ++ x ++ v → v = []

theorem onlyAtEnd_concat {x w : Text} {y : Char} (hend : x <:+ w ++ [y]) (hbefore : ¬x <:+: w) :
    OnlyAtEnd x (w ++ [y]) := by
  refine ⟨hend, fun u v huv => ?_⟩
  rcases List.eq_nil_or_concat v with rfl | ⟨v, z, rfl⟩
  · rfl
  · rw [List.concat_eq_append, ← List.append_assoc] at huv
    exact absurd ⟨u, v, (List.append_inj_left' huv rfl).symm⟩ hbefore

/-! ### Comments of either pair -/

section
variable {c : Char} {v : Text} {next? : Option Char}

theorem isComment_head (h : standard.isComment (c :: v) = true) :
    c = '/' ∧ ((∃ t, v = '/' :: t) ∨ ∃ t, v = '*' :: t) := by
  simp only [isComment_iff, List.isPrefixOf_iff_prefix] at h
  rcases h with ⟨⟨t, ht⟩, -⟩ | ⟨⟨t, ht⟩, -⟩
  · cases ht
    exact ⟨rfl, Or.inl ⟨t, rfl⟩⟩
  · cases ht
    exact ⟨rfl, Or.inr ⟨t, rfl⟩⟩

theorem exists_of_cuts_line (h : standard.Cuts '/' ('/' :: v) .comment next?) :
    ∃ body n, v = body ++ '\n' :: List.replicate n '\n' ∧ OnlyAtEnd ['\n'] (body ++ ['\n']) ∧ next? ≠ some '\n' := by
  obtain ⟨body, b, rfl, -, hopen, hb, hnext⟩ := encloses_line.exists_closed h.grows.2 h.ends
  have hnewlines : b = List.replicate b.length '\n' := List.eq_replicate_of_mem fun y hy => beq_iff_eq.mp (hb y hy)
  refine ⟨body, b.length, by rw [← hnewlines], onlyAtEnd_concat (List.suffix_append body _) ?_, fun hn => ?_⟩
  · rintro ⟨u, t, rfl⟩
    have := hopen u '\n' t (by simp)
    cases this
  · have := hnext '\n' hn
    cases this

/-- The star before the closing slash is that of the opener, or it stands behind the opener. -/
theorem exists_of_cuts_block (h : standard.Cuts '/' ('*' :: v) .comment next?) :
    v = ['/'] ∨ ∃ body, v = body ++ ['*', '/'] ∧ OnlyAtEnd ['*', '/'] (body ++ ['*', '/']) := by
  obtain ⟨a, b, rfl, hstar, hopen, hb, -⟩ := encloses_block.exists_closed h.grows.2 h.ends
  obtain rfl : b = [] := by
    cases b with
    | nil => rfl
    | cons y b =>
      have := hb y List.mem_cons_self
      cases this
  rcases List.eq_nil_or_concat a with rfl | ⟨body, x, rfl⟩
  · exact Or.inl rfl
  obtain rfl : x = '*' := by simpa using hstar
  rw [List.concat_eq_append] at hopen
  have honly : OnlyAtEnd ['*', '/'] ((body ++ ['*']) ++ ['/']) := by
    refine onlyAtEnd_concat (by simp) ?_
    rintro ⟨u, t, hu⟩
    have := hopen (u ++ ['*']) '/' t (by rw [← hu]; simp)
    simp at this
  exact Or.inr ⟨body, by simp, by simpa using honly⟩

end

/-! ### Comments of a source -/

section
variable {source : Text} {file? : Option Text} {t : Token}

/-- A comment other than `/*/` is the opener of a pair, a body and the closer, which stands behind the opener at the end
    only. A line comment goes on from there over all newlines that follow. -/
theorem comment_ends_at_closer (ht : .token t ∈ (Lexer.ofSource standard source file?).items) (hk : t.kind = .comment)
    (hne : t.value ≠ "/*/".toList) :
    ∃ p ∈ standard.commentPairs, ∃ body n, t.value = p.opener ++ body ++ p.closer ++ List.replicate n '\n' ∧
      OnlyAtEnd p.closer (body ++ p.closer) ∧ (p.closer ≠ ['\n'] → n = 0) ∧
      (p.closer = ['\n'] → source[t.span.last + 1]? ≠ some '\n') := by
  obtain ⟨i, c, v, rest, hdrop, -, hcut, hvalue, hspan⟩ := (lexes_items standard source file?).exists_cuts ht
  have hnext : source[t.span.last + 1]? = rest.head? := by
    rw [hspan, Nat.zero_add, getElem?_of_drop hdrop]
  rw [hk] at hcut
  obtain ⟨rfl, ⟨v, rfl⟩ | ⟨v, rfl⟩⟩ := isComment_head (admits_of_classify hcut.classify)
  · obtain ⟨body, n, rfl, honly, hend⟩ := exists_of_cuts_line hcut
    exact ⟨⟨['/', '/'], ['\n']⟩, by simp [standard], body, n, by simp [hvalue], honly, fun h => absurd rfl h,
      fun _ => by rwa [hnext]⟩
  · rcases exists_of_cuts_block hcut with rfl | ⟨body, rfl, honly⟩
    · exact absurd hvalue hne
    · exact ⟨⟨['/', '*'], ['*', '/']⟩, by simp [standard], body, 0, by simp [hvalue], honly, fun _ => rfl,
        fun h => by cases h⟩

end

/-- The closer of the other pair does not end `//*/`, and both newlines belong to it. -/
theorem comment_ends_at_closer_line :
    let source := "x//*/\n\ny".toList
    let t : Token := ⟨.comment, "//*/\n\n".toList, ⟨1, 6⟩⟩
    Item.token t ∈ (Lexer.ofSource standard source none).items ∧ t.value ≠ "/*/".toList ∧
      ∃ body n, t.value = "//".toList ++ body ++ ['\n'] ++ List.replicate n '\n' ∧ OnlyAtEnd ['\n'] (body ++ ['\n']) := by
  intro source t
  have ht : Item.token t ∈ (Lexer.ofSource standard source none).items := by
    have hitems : (Lexer.ofSource standard source none).items =
        [.token ⟨.identifier, ['x'], ⟨0, 0⟩⟩, .token t, .token ⟨.identifier, ['y'], ⟨7, 7⟩⟩] := rfl
    simp [hitems]
  have hne : t.value ≠ "/*/".toList := by decide
  obtain ⟨p, hp, body, n, hvalue, honly, -⟩ := comment_ends_at_closer ht rfl hne
  refine ⟨ht, hne, body, n, ?_⟩
  simp only [standard, List.mem_cons, List.not_mem_nil, or_false] at hp
  rcases hp with rfl | rfl
  · exact ⟨hvalue, honly⟩
  · simp [t] at hvalue

/-- A text is the opener of a pair, a body and the closer, which stands behind the opener at the end only. -/
def EndsAtCloser (v : Text) : Prop :=
  ∃ p ∈ standard.commentPairs, ∃ body, v = p.opener ++ body ++ p.closer ∧ OnlyAtEnd p.closer (body ++ p.closer)

/-- Not every comment is so: the second newline of a line comment is another closer, and that of `/*/` does not stand behind
    the opener. -/
theorem comment_beyond_closer :
    ((Lexer.ofSource standard "// a\n\n".toList none).items = [.token ⟨.comment, "// a\n\n".toList, ⟨0, 5⟩⟩] ∧
      ¬EndsAtCloser "// a\n\n".toList) ∧
    ((Lexer.ofSource standard "/*/".toList none).items = [.token ⟨.comment, "/*/".toList, ⟨0, 2⟩⟩] ∧
      ¬EndsAtCloser "/*/".toList) := by
  refine ⟨⟨rfl, ?_⟩, ⟨rfl, ?_⟩⟩
  · rintro ⟨p, hp, body, hvalue, -, honly⟩
    simp only [standard, List.mem_cons, List.not_mem_nil, or_false] at hp
    rcases hp with rfl | rfl
    · have hbody : " a\n".toList ++ ['\n'] = body ++ ['\n'] := by simpa using hvalue
      obtain rfl := List.append_inj_left' hbody rfl
      exact absurd (honly " a".toList ['\n'] rfl) (by simp)
    · simp at hvalue
  · rintro ⟨p, hp, body, hvalue, -⟩
    simp only [standard, List.mem_cons, List.not_mem_nil, or_false] at hp
    rcases hp with rfl | rfl
    · simp at hvalue
    · have hlen := congrArg List.length hvalue
      simp at hlen

end Munch
