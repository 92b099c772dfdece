import Munch.Proofs.Grammar.Enclosed
import Munch.Proofs.Stream

/-! Where quoted literals end. A literal ends at the first bound behind its opening one that no backslash stands directly
    before, and goes on over the bounds directly after that one, because with each of them it is still a literal. -/

namespace Munch
open RuleTable

/-- The characters `q` of a text with no backslash directly before them are its first character and its last `n + 1` ones,
    and the first is none of the last. -/
def BoundsAtEnds (q : Char) (n : Nat) (w : Text) : Prop :=
  n + 2 ≤ w.length ∧ ∀ i < w.length, (w[i]? = some q ∧ (w.take i).getLast? ≠ some '\\') ↔ (i = 0 ∨ w.length ≤ i + (n + 1))

instance (q : Char) (n : Nat) (w : Text) : Decidable (BoundsAtEnds q n w) := inferInstanceAs (Decidable (_ ∧ _))

section
variable {q : Char} {n : Nat} {w a : Text}

/-! ### Bounds of a text -/

theorem boundsAtEnds_iff_split : BoundsAtEnds q n w ↔ n + 2 ≤ w.length ∧
    ∀ u y t, w = u ++ y :: t → ((y = q ∧ u.getLast? ≠ some '\\') ↔ (u = [] ∨ t.length ≤ n)) := by
  refine and_congr_right fun _ => ⟨?_, fun h i hi => ?_⟩
  · rintro h u y t rfl
    have hbound := h u.length (by simp)
    have hlen : (u ++ y :: t).length ≤ u.length + (n + 1) ↔ t.length ≤ n := by
      rw [List.length_append, List.length_cons]
      omega
    rwa [List.getElem?_append_right (Nat.le_refl _), Nat.sub_self, List.getElem?_cons_zero, List.take_left,
      Option.some.injEq, List.length_eq_zero_iff, hlen] at hbound
  · have hsplit := h (w.take i) w[i] (w.drop (i + 1)) (by rw [← List.drop_eq_getElem_cons hi, List.take_append_drop])
    have hlen : (w.drop (i + 1)).length ≤ n ↔ w.length ≤ i + (n + 1) := by
      rw [List.length_drop]
      omega
    have hnil : w.take i = [] ↔ i = 0 := by
      rw [← List.length_eq_zero_iff, List.length_take, Nat.min_eq_left (Nat.le_of_lt hi)]
    rwa [hlen, hnil, ← Option.some.injEq, ← List.getElem?_eq_getElem hi] at hsplit

theorem getLast?_cons_ne_iff {c : Char} {u : Text} : (q :: u).getLast? ≠ some c ↔ u.getLastD q ≠ c := by
  rw [List.getLast?_cons, List.getLastD_eq_getLast?, ne_eq, Option.some.injEq]

theorem getLastD_append_replicate (hq : q ≠ '\\') (ha : a.getLastD q ≠ '\\') (m : Nat) :
    (a ++ List.replicate m q).getLastD q ≠ '\\' := by
  cases m with
  | zero => simpa using ha
  | succ m => rwa [List.replicate_succ', ← List.append_assoc, List.getLastD_concat]

/-- A text of an opening bound, a body in which nothing closes, the bound that closes it, and that bound `n` times more. -/
theorem boundsAtEnds_of_open (hq : q ≠ '\\') (hclosed : a.getLastD q ≠ '\\')
    (hopen : ∀ u y t, a = u ++ y :: t → u.getLastD q ≠ '\\' → y ≠ q) :
    BoundsAtEnds q n (q :: (a ++ List.replicate (n + 1) q)) := by
  refine boundsAtEnds_iff_split.mpr ⟨by simp, fun u y t h => ?_⟩
  cases u with
  | nil =>
    cases h
    simp
  | cons x u =>
    rw [List.cons_append, List.cons.injEq] at h
    obtain ⟨rfl, h⟩ := h
    rw [getLast?_cons_ne_iff]
    rcases List.append_eq_append_iff.mp h with ⟨b, rfl, hb⟩ | ⟨b, rfl, hb⟩
    · obtain ⟨hlen, hb, ht⟩ := List.append_eq_replicate_iff.mp hb.symm
      rw [List.length_cons] at hlen
      have hu := getLastD_append_replicate hq hclosed b.length
      rw [← hb] at hu
      exact iff_of_true ⟨List.eq_of_mem_replicate (ht ▸ List.mem_cons_self), hu⟩ (Or.inr (by omega))
    · cases b with
      | nil =>
        rw [List.append_nil] at hclosed
        cases hb
        exact iff_of_true ⟨rfl, hclosed⟩ (Or.inr (Nat.le_of_eq List.length_replicate))
      | cons z b =>
        rw [List.cons_append, List.cons.injEq] at hb
        obtain ⟨rfl, rfl⟩ := hb
        refine iff_of_false (fun hy => hopen u y b rfl hy.2 hy.1) ?_
        simp only [List.length_append, List.length_replicate, reduceCtorEq, false_or]
        omega

theorem exists_open_of_boundsAtEnds (h : BoundsAtEnds q n w) :
    ∃ a, w = q :: (a ++ List.replicate (n + 1) q) ∧ a.getLastD q ≠ '\\' ∧
      ∀ u y t, a = u ++ y :: t → u.getLastD q ≠ '\\' → y ≠ q := by
  obtain ⟨hlen, hsplit⟩ := boundsAtEnds_iff_split.mp h
  obtain ⟨x, a, b, rfl, hb⟩ : ∃ x a b, w = x :: (a ++ b) ∧ b.length = n + 1 := by
    cases w with
    | nil => cases hlen
    | cons x w =>
      rw [List.length_cons] at hlen
      exact ⟨x, _, _, by rw [List.take_append_drop (w.length - (n + 1))], by rw [List.length_drop]; omega⟩
  obtain rfl : x = q := ((hsplit [] x (a ++ b) rfl).mpr (Or.inl rfl)).1
  have hbounds : b = List.replicate (n + 1) x := by
    refine List.eq_replicate_iff.mpr ⟨hb, fun y hy => ?_⟩
    obtain ⟨s, t, rfl⟩ := List.append_of_mem hy
    rw [List.length_append, List.length_cons] at hb
    exact ((hsplit (x :: (a ++ s)) y t (by simp)).mpr (Or.inr (by omega))).1
  rw [hbounds] at hsplit ⊢
  refine ⟨a, rfl, ?_, fun u y t ha hu hy => ?_⟩
  · exact getLast?_cons_ne_iff.mp ((hsplit (x :: a) x _ rfl).mpr (Or.inr (Nat.le_of_eq List.length_replicate))).2
  · have hy' := (hsplit (x :: u) y (t ++ List.replicate (n + 1) x) (by simp [ha])).mp ⟨hy, getLast?_cons_ne_iff.mpr hu⟩
    simp only [List.length_append, List.length_replicate, reduceCtorEq, false_or] at hy'
    omega

/-! ### Quoted literals -/

theorem closes_eq_false_iff {prev y : Char} : (prev != '\\' && y == q) = false ↔ (prev ≠ '\\' → y ≠ q) := by
  simp

theorem ne_backslash_of_bound (hq : q ∈ ['\'', '\x60']) : q ≠ '\\' := by
  rintro rfl
  exact absurd hq (by decide)

theorem boundsAtEnds_of_cuts {v : Text} {next? : Option Char} (hq : q ∈ ['\'', '\x60'])
    (h : standard.Cuts q v .literal next?) : ∃ n, BoundsAtEnds q n (q :: v) ∧ next? ≠ some q := by
  have hne := ne_backslash_of_bound hq
  obtain ⟨a, b, rfl, hclosed, hopen, hb, hnext⟩ := (encloses_quoted hq).exists_closed h.grows h.ends
  have hbounds : q :: b = List.replicate (b.length + 1) q := by
    refine List.eq_replicate_iff.mpr ⟨rfl, List.forall_mem_cons.mpr ⟨rfl, fun y hy => ?_⟩⟩
    simpa [hne] using hb y hy
  refine ⟨b.length, ?_, fun hn => ?_⟩
  · rw [hbounds]
    exact boundsAtEnds_of_open hne (by simpa using hclosed) fun u y t ha => closes_eq_false_iff.mp (hopen u y t ha)
  · simpa [hne] using hnext q hn

/-- A literal goes on behind its first closing bound over the bounds that follow it, and no further. -/
theorem cuts_of_boundsAtEnds {v : Text} (hq : q ∈ ['\'', '\x60']) (h : BoundsAtEnds q 0 (q :: v)) (rest : Text) :
    standard.Cuts q (v ++ rest.takeWhile (· == q)) .literal (rest.dropWhile (· == q)).head? := by
  have hne := ne_backslash_of_bound hq
  obtain ⟨a, hv, hclosed, hopen⟩ := exists_open_of_boundsAtEnds h
  obtain rfl : v = a ++ [q] := List.cons.inj hv |>.2
  have hb : ∀ y ∈ rest.takeWhile (· == q), (q != '\\' && y == q) = true := fun y hy => by
    simpa [hne] using List.all_eq_true.mp List.all_takeWhile y hy
  have hrest : ∀ d, (rest.dropWhile (· == q)).head? = some d → (q != '\\' && d == q) = false := fun d hd => by
    have := List.head?_dropWhile_not (· == q) rest
    rw [hd] at this
    simpa using fun _ => this
  obtain ⟨hgrows, hends⟩ := (encloses_quoted hq).cuts_closed (a := a) (x := q) (by simpa using hclosed) hb hrest
  refine ⟨growsThrough_append.mpr ⟨?_, hgrows⟩, ?_⟩
  · exact (encloses_quoted hq).grows_open fun u y t ha => closes_eq_false_iff.mpr (hopen u y t ha)
  · rwa [List.append_assoc, List.singleton_append]

theorem Lexes.quoted {file u rest : Text} {p : Nat} {is : List Item} (hq : q ∈ ['\'', '\x60']) (hu : BoundsAtEnds q 0 u)
    (h : Lexes standard file (p + (u ++ rest.takeWhile (· == q)).length) (rest.dropWhile (· == q)) is) :
    Lexes standard file p (u ++ rest) (.token ⟨.literal, u ++ rest.takeWhile (· == q),
      ⟨p, p + ((u ++ rest.takeWhile (· == q)).length - 1)⟩⟩ :: is) := by
  obtain ⟨a, rfl, -⟩ := exists_open_of_boundsAtEnds hu
  have hblank : isBlank q = false := by
    simp only [List.mem_cons, List.not_mem_nil, or_false] at hq
    rcases hq with rfl | rfl <;> decide
  have := Lexes.token hblank (cuts_of_boundsAtEnds hq hu rest) h
  rwa [List.append_assoc, List.takeWhile_append_dropWhile] at this

/-! ### Quoted literals of a source -/

variable {q' : Char} {u v : Text} {source : Text} {file? : Option Text} {t : Token}

theorem exists_boundsAtEnds (hq : q ∈ ['\'', '\x60']) (ht : .token t ∈ (Lexer.ofSource standard source file?).items)
    (hk : t.kind = .literal) (hhead : t.value.head? = some q) :
    ∃ n, BoundsAtEnds q n t.value ∧ source[t.span.last + 1]? ≠ some q := by
  obtain ⟨i, c, v, rest, hdrop, -, hcut, hvalue, hspan⟩ := (lexes_items standard source file?).exists_cuts ht
  obtain rfl : c = q := by simpa [hvalue] using hhead
  rw [hk] at hcut
  obtain ⟨n, hbounds, hnext⟩ := boundsAtEnds_of_cuts hq hcut
  refine ⟨n, hvalue ▸ hbounds, ?_⟩
  rwa [hspan, Nat.zero_add, getElem?_of_drop hdrop]

/-- The first item of a source that starts with a literal is the literal and the bounds that follow it. -/
theorem head?_items_quoted (hq : q ∈ ['\'', '\x60']) (hu : BoundsAtEnds q 0 u) (rest : Text) (file? : Option Text) :
    (Lexer.ofSource standard (u ++ rest) file?).items.head? = some (.token ⟨.literal, u ++ rest.takeWhile (· == q),
      ⟨0, (u ++ rest.takeWhile (· == q)).length - 1⟩⟩) := by
  obtain ⟨is, h⟩ := exists_lexes standard (file?.getD Lexer.unnamed) (0 + (u ++ rest.takeWhile (· == q)).length)
    (rest.dropWhile (· == q))
  rw [← (Lexes.quoted hq hu h).unique (lexes_items standard _ file?), List.head?_cons, Nat.zero_add]

theorem tokenize_quoted_append (hq : q ∈ ['\'', '\x60']) (hq' : q' ∈ ['\'', '\x60']) (hu : BoundsAtEnds q 0 u)
    (hv : BoundsAtEnds q' 0 v) (hne : q' ≠ q) (file? : Option Text) : tokenize .standard (u ++ v) file? =
      .ok [⟨.literal, u, ⟨0, u.length - 1⟩⟩, ⟨.literal, v, ⟨u.length, u.length + (v.length - 1)⟩⟩] := by
  have hstart : v.takeWhile (· == q) = [] ∧ v.dropWhile (· == q) = v := by
    obtain ⟨a, rfl, -⟩ := exists_open_of_boundsAtEnds hv
    simp [hne]
  have hempty : Lexes standard (file?.getD Lexer.unnamed) (u.length + (v ++ []).length) [] [] := .nil
  have hsecond : Lexes standard (file?.getD Lexer.unnamed) u.length (v ++ []) _ := Lexes.quoted hq' hv hempty
  have hfirst : Lexes standard (file?.getD Lexer.unnamed) 0 (u ++ v) _ :=
    Lexes.quoted hq hu (by simpa [hstart] using hsecond)
  rw [tokenize_of_lexes hfirst, hstart.1, List.append_nil, Nat.zero_add]
  rfl

end

/-- The bounds of a literal that count are its first character and the run at its end, which no further bound follows in the
    source. Literals next to each other are read as they are when their bounds differ; when their bounds are the same, those
    at the start of the second belong to the first. -/
theorem literal_ends_at_bounds {q : Char} (hq : q ∈ ['\'', '\x60']) :
    (∀ (source : Text) (file? : Option Text) (t : Token), .token t ∈ (Lexer.ofSource standard source file?).items →
      t.kind = .literal → t.value.head? = some q →
        ∃ n, BoundsAtEnds q n t.value ∧ source[t.span.last + 1]? ≠ some q) ∧
    ∀ (u v : Text) (q' : Char) (file? : Option Text), q' ∈ ['\'', '\x60'] → BoundsAtEnds q 0 u → BoundsAtEnds q' 0 v →
      (q' ≠ q → tokenize .standard (u ++ v) file? =
        .ok [⟨.literal, u, ⟨0, u.length - 1⟩⟩, ⟨.literal, v, ⟨u.length, u.length + (v.length - 1)⟩⟩]) ∧
      (q' = q → (Lexer.ofSource standard (u ++ v) file?).items.head? = some (.token
        ⟨.literal, u ++ v.takeWhile (· == q), ⟨0, (u ++ v.takeWhile (· == q)).length - 1⟩⟩)) :=
  ⟨fun _ _ _ ht hk hhead => exists_boundsAtEnds hq ht hk hhead, fun _ v _ file? hq' hu hv =>
    ⟨fun hne => tokenize_quoted_append hq hq' hu hv hne file?, fun _ => head?_items_quoted hq hu v file?⟩⟩

/-- The bound behind the first closing one belongs to `'it\'s''`, as another bound than that of the literal does not. -/
theorem literal_ends_at_bounds_escaped :
    let source := "x:='it\\'s''`a`".toList
    let t : Token := ⟨.literal, "'it\\'s''".toList, ⟨3, 10⟩⟩
    Item.token t ∈ (Lexer.ofSource standard source none).items ∧
      (∃ n, BoundsAtEnds '\'' n t.value ∧ source[t.span.last + 1]? ≠ some '\'') ∧
      BoundsAtEnds '\'' 0 "'a'".toList ∧ BoundsAtEnds '\x60' 0 "`\\``".toList ∧
      tokenize .standard ("'a'".toList ++ "`\\``".toList) none =
        .ok [⟨.literal, "'a'".toList, ⟨0, 2⟩⟩, ⟨.literal, "`\\``".toList, ⟨3, 6⟩⟩] := by
  intro source t
  have hitems : (Lexer.ofSource standard source none).items =
      [.token ⟨.identifier, ['x'], ⟨0, 0⟩⟩, .token ⟨.operator, [':', '='], ⟨1, 2⟩⟩, .token t,
        .token ⟨.literal, "`a`".toList, ⟨11, 13⟩⟩] := rfl
  have ht : Item.token t ∈ (Lexer.ofSource standard source none).items := by simp [hitems]
  have hu : BoundsAtEnds '\'' 0 "'a'".toList := by decide
  have hv : BoundsAtEnds '\x60' 0 "`\\``".toList := by decide
  obtain ⟨hends, hpairs⟩ := literal_ends_at_bounds (q := '\'') (by decide)
  exact ⟨ht, hends source none t ht rfl rfl, hu, hv, (hpairs _ _ '\x60' none (by decide) hu hv).1 (by decide)⟩

/-- Not every literal ends with its first closing bound: that of `'a'` is followed by the one that opens `'b'`. -/
theorem not_forall_literal_closed : ¬∀ (source : Text) (file? : Option Text) (t : Token) (q : Char), q ∈ ['\'', '\x60'] →
    .token t ∈ (Lexer.ofSource standard source file?).items → t.kind = .literal → t.value.head? = some q →
      BoundsAtEnds q 0 t.value := by
  intro h
  have hitems : (Lexer.ofSource standard "'a''b'".toList none).items =
      [.token ⟨.literal, "'a''".toList, ⟨0, 3⟩⟩, .token ⟨.identifier, ['b'], ⟨4, 4⟩⟩,
        .error ⟨['\''], ⟨5, 5⟩, Lexer.unnamed⟩] := rfl
  have hbounds := h "'a''b'".toList none ⟨.literal, "'a''".toList, ⟨0, 3⟩⟩ '\'' (by decide) (hitems ▸ List.mem_cons_self)
    rfl rfl
  exact absurd hbounds (by decide)

end Munch
