import Munch.Proofs.Grammar.Basic

/-! Quoted literals and comments under the standard rules. All of them are open texts of no kind until a character
    closes them, and go on only as long as the characters after that one would close them too. -/

namespace Munch
open RuleTable

/-- After the opener `w`, which has no kind, a text is of kind `k` when its last character closes it and of no kind
    otherwise. Whether a character closes depends on the one before it, which is `last` for the first one. -/
structure Encloses (w : Text) (last : Char) (closes : Char → Char → Bool) (closer : Char) (k : Kind) : Prop where
  unclassified : standard.classify w = none
  classify : ∀ u y, standard.classify (w ++ (u ++ [y])) = if closes (u.getLastD last) y then some k else none
  notOpener : ∀ u y, standard.isCommentOpener (w ++ (u ++ [y])) = false
  eq_closer : ∀ prev y, closes prev y = true → y = closer

namespace Encloses
variable {w a b u v cs rest : Text} {last closer x y : Char} {closes : Char → Char → Bool} {k : Kind} {n : Nat}

theorem classify_eq_none (h : Encloses w last closes closer k)
    (hv : ∀ u y t, v = u ++ y :: t → closes (u.getLastD last) y = false) : standard.classify (w ++ v) = none := by
  rcases List.eq_nil_or_concat v with rfl | ⟨u, y, rfl⟩
  · simpa using h.unclassified
  · rw [List.concat_eq_append, h.classify, hv u y [] (List.concat_eq_append)]
    rfl

theorem grows_open (h : Encloses w last closes closer k)
    (hv : ∀ u y t, v = u ++ y :: t → closes (u.getLastD last) y = false) : standard.GrowsThrough w (v ++ [x]) := by
  refine growsThrough_of_unclassified fun u d t hu => h.classify_eq_none fun u' y t' hu' => ?_
  obtain ⟨t'', rfl⟩ : u <+: v := by
    refine List.prefix_of_prefix_length_le ⟨d :: t, hu.symm⟩ (List.prefix_append v [x]) ?_
    have := congrArg List.length hu
    simp only [List.length_append, List.length_cons, List.length_nil] at this
    omega
  exact hv u' y (t' ++ t'') (by simp [hu'])

theorem growsTo_eq (h : Encloses w last closes closer k) (u : Text) (y : Char) :
    standard.growsTo k (w ++ (u ++ [y])) = closes (u.getLastD last) y := by
  rw [growsTo, h.notOpener, h.classify]
  cases closes (u.getLastD last) y
  · rfl
  · simp [Kind.continuesAs_self]

theorem classify_closed (h : Encloses w last closes closer k) (hx : closes (a.getLastD last) x = true) :
    standard.classify (w ++ (a ++ [x])) = some k := by
  rw [h.classify, if_pos hx]

/-- Before the next character stands the closer, whichever character of a run of closers has been reached. -/
theorem growsTo_closed (h : Encloses w last closes closer k) (hx : closes (a.getLastD last) x = true) (y : Char) :
    standard.growsTo k (w ++ (a ++ [x]) ++ [y]) = closes closer y := by
  rw [List.append_assoc, h.growsTo_eq, List.getLastD_concat, h.eq_closer _ _ hx]

theorem cuts_closed (h : Encloses w last closes closer k) (hx : closes (a.getLastD last) x = true)
    (hb : ∀ y ∈ b, closes closer y = true) (hrest : ∀ d, rest.head? = some d → closes closer d = false) :
    standard.GrowsThrough (w ++ (a ++ [x])) b ∧ standard.endKind? (w ++ (a ++ x :: b)) rest.head? = some k := by
  induction b generalizing a x with
  | nil =>
    refine ⟨trivial, endKind?_eq_some_iff.mpr ⟨h.classify_closed hx, fun d hd => ?_⟩⟩
    rw [h.growsTo_closed hx, hrest d hd]
  | cons y b ih =>
    obtain ⟨hy, hb⟩ := List.forall_mem_cons.mp hb
    have hlast : closes ((a ++ [x]).getLastD last) y = true := by
      rw [List.getLastD_concat, h.eq_closer _ _ hx, hy]
    obtain ⟨hgrows, hends⟩ := ih hlast hb
    refine ⟨⟨endKind?_of_growsTo (h.classify_closed hx) ?_, ?_⟩, ?_⟩
    · rw [h.growsTo_closed hx, hy]
    · rwa [List.append_assoc]
    · rwa [List.append_cons]

/-- Where a text is closed, it is cut off with all characters directly after that would close it too. -/
theorem cuts_upTo (h : Encloses w last closes closer k) (hn : Grammar.upTo closes last cs = some n) :
    standard.GrowsThrough w (cs.take (n + Grammar.run (closes closer) (cs.drop n))) ∧
      standard.endKind? (w ++ cs.take (n + Grammar.run (closes closer) (cs.drop n)))
        (cs.drop (n + Grammar.run (closes closer) (cs.drop n))).head? = some k := by
  obtain ⟨a, x, b, rfl, rfl, hx, hopen⟩ := Grammar.exists_of_upTo hn
  have hdrop : (a ++ x :: b).drop (a.length + 1) = b := by simp
  rw [hdrop]
  obtain ⟨b, rest, rfl, hm, hb, hrest⟩ := Grammar.exists_run (closes closer) b
  have htake : (a ++ x :: (b ++ rest)).take (a.length + 1 + b.length) = a ++ x :: b := by
    rw [Nat.add_assoc, List.take_length_add_append, Nat.add_comm 1, List.take_succ_cons, List.take_left]
  have hrest' : (a ++ x :: (b ++ rest)).drop (a.length + 1 + b.length) = rest := by
    rw [Nat.add_assoc, List.drop_length_add_append, Nat.add_comm 1, List.drop_succ_cons, List.drop_left]
  obtain ⟨hgrows, hends⟩ := h.cuts_closed hx hb hrest
  rw [hm, htake, hrest']
  refine ⟨?_, hends⟩
  rw [List.append_cons, growsThrough_append]
  exact ⟨h.grows_open hopen, hgrows⟩

theorem stuck_upTo (h : Encloses w last closes closer k) (hn : Grammar.upTo closes last cs = none) :
    standard.GrowsThrough w cs ∧ standard.classify (w ++ cs) = none := by
  have hopen : ∀ u y t, cs = u ++ y :: t → closes (u.getLastD last) y = false :=
    fun u y t hcs => Grammar.closes_of_upTo_eq_none hn hcs
  exact ⟨(growsThrough_append.mp (h.grows_open (x := closer) hopen)).1, h.classify_eq_none hopen⟩

theorem endKind?_closed (h : Encloses w last closes closer k) (hx : closes (a.getLastD last) x = true) (y : Char) :
    standard.endKind? (w ++ (a ++ [x])) (some y) = if closes closer y then none else some k := by
  rw [endKind?, h.classify_closed hx]
  simp only [Option.any_some, h.growsTo_closed hx, Option.filter_some]
  cases closes closer y <;> rfl

/-- Once a text is closed it grows by the characters that would close it too, and ends before any other. -/
theorem closes_of_ends {l : Kind} {next? : Option Char} (h : Encloses w last closes closer k)
    (hx : closes (a.getLastD last) x = true) (hg : standard.GrowsThrough (w ++ (a ++ [x])) b)
    (he : standard.endKind? (w ++ (a ++ x :: b)) next? = some l) :
    (∀ y ∈ b, closes closer y = true) ∧ ∀ d, next? = some d → closes closer d = false := by
  induction b generalizing a x with
  | nil =>
    refine ⟨by simp, fun d hd => ?_⟩
    rw [hd, h.endKind?_closed hx] at he
    cases hclose : closes closer d with
    | false => rfl
    | true => simp [hclose] at he
  | cons y b ih =>
    obtain ⟨hends, hg⟩ := hg
    have hy : closes closer y = true := by
      rw [h.endKind?_closed hx] at hends
      cases hclose : closes closer y with
      | false => simp [hclose] at hends
      | true => rfl
    have hlast : closes ((a ++ [x]).getLastD last) y = true := by
      rw [List.getLastD_concat, h.eq_closer _ _ hx, hy]
    obtain ⟨hb, hnext⟩ := ih hlast (by rwa [List.append_assoc] at hg) (by rwa [List.append_cons] at he)
    exact ⟨List.forall_mem_cons.mpr ⟨hy, hb⟩, hnext⟩

/-- A token so enclosed has been closed by its first closer, and ends with the characters directly after that one that
    would close it too. -/
theorem exists_closed {l : Kind} {next? : Option Char} (h : Encloses w last closes closer k)
    (hg : standard.GrowsThrough w v) (he : standard.endKind? (w ++ v) next? = some l) :
    ∃ a b, v = a ++ closer :: b ∧ closes (a.getLastD last) closer = true ∧
      (∀ u y t, a = u ++ y :: t → closes (u.getLastD last) y = false) ∧ (∀ y ∈ b, closes closer y = true) ∧
      ∀ d, next? = some d → closes closer d = false := by
  cases hn : Grammar.upTo closes last v with
  | none =>
    have hclass := (endKind?_eq_some_iff.mp he).1
    rw [(h.stuck_upTo hn).2] at hclass
    cases hclass
  | some n =>
    obtain ⟨a, x, b, rfl, -, hx, hopen⟩ := Grammar.exists_of_upTo hn
    obtain rfl := h.eq_closer _ _ hx
    rw [List.append_cons, growsThrough_append] at hg
    obtain ⟨hb, hnext⟩ := h.closes_of_ends hx hg.2 he
    exact ⟨a, b, rfl, hx, hopen, hb, hnext⟩

end Encloses

/-! ### Quoted literals -/

variable {c : Char} {w cs : Text} {k : Kind}

/-- A text that passes the test of at most one kind has that kind or none. -/
theorem classify_eq_ite (h : ∀ l, l ≠ k → standard.admits l w = false) :
    standard.classify w = if standard.admits k w then some k else none := by
  cases hw : standard.classify w with
  | none => rw [classify_eq_none_iff.mp hw k]; rfl
  | some l =>
    have hl := admits_of_classify hw
    by_cases hlk : l = k
    · rw [← hlk, if_pos hl]
    · simp [h l hlk] at hl

theorem isLiteral_quoted {bound : Char} (hq : bound ∈ ['\'', '\x60']) (w : Text) :
    standard.isLiteral (bound :: w) = isBounded bound (bound :: w) := by
  have hnumeral : isNumeral (bound :: w) = false := by
    rw [Bool.eq_false_iff]
    intro h
    rcases Numeral.of_isNumeral h with h | ⟨h, -⟩
    · have hbound := h bound List.mem_cons_self
      simp only [List.mem_cons, List.not_mem_nil, or_false] at hq
      rcases hq with rfl | rfl <;> exact absurd hbound (by decide)
    · cases h
      exact absurd hq (by decide)
  simp only [List.mem_cons, List.not_mem_nil, or_false] at hq
  rcases hq with rfl | rfl <;> simp [isLiteral, isBounded, isBool, standard, hnumeral]

theorem isBounded_append {bound : Char} (hb : bound ≠ '\\') (u : Text) (y : Char) :
    isBounded bound (bound :: (u ++ [y])) = (u.getLastD bound != '\\' && y == bound) := by
  have hescaped : (u.getLast? != some '\\') = (u.getLastD bound != '\\') := by
    rcases List.eq_nil_or_concat u with rfl | ⟨u, z, rfl⟩
    · simp [bne, hb]
    · simp [bne]
  simp only [isBounded, beq_self_eq_true, Bool.true_and, List.getLast?_concat, List.dropLast_concat, hescaped]
  rw [Bool.and_comm]
  rfl

theorem encloses_quoted {bound : Char} (hq : bound ∈ ['\'', '\x60']) :
    Encloses [bound] bound (fun prev y => prev != '\\' && y == bound) bound .literal where
  unclassified := by
    simp only [List.mem_cons, List.not_mem_nil, or_false] at hq
    rcases hq with rfl | rfl <;> decide
  classify u y := by
    have hstarts : ∀ l, l ≠ .literal → starts l bound = false := by
      intro l hl
      simp only [List.mem_cons, List.not_mem_nil, or_false] at hq
      rcases hq with rfl | rfl <;> revert hl <;> cases l <;> decide
    have hb : bound ≠ '\\' := by
      rintro rfl
      exact absurd hq (by decide)
    rw [List.singleton_append, classify_eq_ite fun l hl => admits_eq_false_of_starts (hstarts l hl), admits,
      isLiteral_quoted hq, isBounded_append hb]
  notOpener u y := by
    refine isCommentOpener_eq_false ?_
    rintro rfl
    exact absurd hq (by decide)
  eq_closer prev y h := by
    simp only [Bool.and_eq_true, beq_iff_eq] at h
    exact h.2

theorem cuts_quoted {n : Nat} (hq : c ∈ ['\'', '\x60']) (hn : Grammar.quoted c cs = some n) :
    standard.Cuts c (cs.take n) .literal (cs.drop n).head? := by
  simp only [Grammar.quoted, Option.map_eq_some_iff] at hn
  obtain ⟨m, hm, rfl⟩ := hn
  have hrun : (fun y => c != '\\' && y == c) = (· == c) := by
    have hc : (c != '\\') = true := by
      rw [bne_iff_ne]
      rintro rfl
      exact absurd hq (by decide)
    simp only [hc, Bool.true_and]
  obtain ⟨hgrows, hends⟩ := (encloses_quoted hq).cuts_upTo hm
  rw [hrun] at hgrows hends
  exact ⟨hgrows, hends⟩

theorem stuck_quoted (hq : c ∈ ['\'', '\x60']) (hn : Grammar.quoted c cs = none) : standard.Stuck c cs := by
  obtain ⟨hgrows, hclass⟩ := (encloses_quoted hq).stuck_upTo (Option.map_eq_none_iff.mp hn)
  exact ⟨hgrows, hclass⟩

/-! ### Comments -/

/-- A slash and a further character have no kind but that of a comment. -/
theorem classify_slash (m : Char) (v : Text) :
    standard.classify ('/' :: m :: v) = if standard.isComment ('/' :: m :: v) then some .comment else none := by
  refine classify_eq_ite (k := .comment) fun l hl => ?_
  cases l with
  | operator => simp [admits, isOperator, standard]
  | comment => exact absurd rfl hl
  | _ => exact admits_eq_false_of_starts (by decide)

theorem isComment_line (u : Text) (y : Char) : standard.isComment ('/' :: '/' :: (u ++ [y])) = (y == '\n') := by
  rw [Bool.eq_iff_iff, isComment_iff]
  simp [List.isSuffixOf, List.isPrefixOf, eq_comm (a := '\n')]

/-- The star before the closing slash may be the one of the opener. -/
theorem isComment_block (u : Text) (y : Char) :
    standard.isComment ('/' :: '*' :: (u ++ [y])) = (u.getLastD '*' == '*' && y == '/') := by
  rw [Bool.eq_iff_iff, isComment_iff]
  rcases List.eq_nil_or_concat u with rfl | ⟨u, z, rfl⟩
  · simp [List.isSuffixOf, List.isPrefixOf, eq_comm (a := '/')]
  · simp [List.isSuffixOf, List.isPrefixOf, eq_comm (a := '/'), eq_comm (a := '*'), and_comm]

theorem encloses_line : Encloses ['/', '/'] '/' (fun _ y => y == '\n') '\n' .comment where
  unclassified := by decide
  classify u y := by
    rw [← isComment_line u y]
    exact classify_slash '/' _
  notOpener u y := by
    simp [isCommentOpener, standard]
  eq_closer _ y h := beq_iff_eq.mp h

theorem cuts_lineComment {n : Nat} (hn : Grammar.lineComment cs = some n) :
    standard.Cuts '/' ('/' :: cs.take n) .comment (cs.drop n).head? := by
  simp only [Grammar.lineComment, Option.map_eq_some_iff] at hn
  obtain ⟨m, hm, rfl⟩ := hn
  obtain ⟨hgrows, hends⟩ := encloses_line.cuts_upTo hm
  exact ⟨⟨by decide, hgrows⟩, hends⟩

theorem stuck_lineComment (hn : Grammar.lineComment cs = none) : standard.Stuck '/' ('/' :: cs) := by
  obtain ⟨hgrows, hclass⟩ := encloses_line.stuck_upTo (Option.map_eq_none_iff.mp hn)
  exact ⟨⟨by decide, hgrows⟩, hclass⟩

theorem encloses_block : Encloses ['/', '*'] '*' (fun prev y => prev == '*' && y == '/') '/' .comment where
  unclassified := by decide
  classify u y := by
    rw [← isComment_block u y]
    exact classify_slash '*' _
  notOpener u y := by
    simp [isCommentOpener, standard]
  eq_closer _ y h := by
    simp only [Bool.and_eq_true, beq_iff_eq] at h
    exact h.2

theorem cuts_blockComment {n : Nat} (hn : Grammar.blockComment cs = some n) :
    standard.Cuts '/' ('*' :: cs.take n) .comment (cs.drop n).head? := by
  -- No slash goes on behind the closing one, as no star stands before it.
  have hrun : ∀ t, Grammar.run (fun y => '/' == '*' && y == '/') t = 0 := by
    rintro (_ | _) <;> rfl
  obtain ⟨hgrows, hends⟩ := encloses_block.cuts_upTo hn
  rw [hrun, Nat.add_zero] at hgrows hends
  exact ⟨⟨by decide, hgrows⟩, hends⟩

theorem stuck_blockComment (hn : Grammar.blockComment cs = none) : standard.Stuck '/' ('*' :: cs) := by
  obtain ⟨hgrows, hclass⟩ := encloses_block.stuck_upTo hn
  exact ⟨⟨by decide, hgrows⟩, hclass⟩

end Munch
