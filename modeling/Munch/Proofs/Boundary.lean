import Mathlib.Order.Bounds.Basic
import Munch.Proofs.Spacing

/-! Where a token ends, by positions of the source. The token that starts at `s` ends at the least position from `s`
    on where the candidate has a kind and does not grow, and it is an error when there is no such position. -/

namespace Munch

namespace RuleTable

/-- The candidate from `s` to `e` grows: there is one more character, and with it the candidate opens a comment, or
    is of the same kind, or is a word as it was before. -/
def Growable (r : RuleTable) (source : Text) (s e : Nat) : Prop :=
  e + 1 < source.length ∧ (r.isCommentOpener (Span.slice ⟨s, e + 1⟩ source) = true ∨
    ∃ k l, r.classify (Span.slice ⟨s, e⟩ source) = some k ∧ r.classify (Span.slice ⟨s, e + 1⟩ source) = some l ∧
      (l = k ∨ (k ∈ [Kind.identifier, Kind.keyword] ∧ l ∈ [Kind.identifier, Kind.keyword])))

/-- The candidate from `s` stops at `e`: it has a kind there and does not grow. -/
def Stops (r : RuleTable) (source : Text) (s e : Nat) : Prop :=
  e < source.length ∧ (∃ k, r.classify (Span.slice ⟨s, e⟩ source) = some k) ∧ ¬r.Growable source s e

end RuleTable

/-- The lexer stands between two tokens of a source: its candidate is empty, it has not failed, and what it has not
    read is what the source holds from its position on. -/
structure Lexer.StandsIn (source : Text) (lx : Lexer) : Prop where
  failed : lx.failed = false
  candidate : lx.candidate = []
  le : lx.start ≤ source.length
  rest : lx.rest = source.drop lx.start

/-- The lexer has halted at the last character of a source. -/
structure Lexer.HaltsIn (source : Text) (lx : Lexer) : Prop where
  failed : lx.failed = true
  cursor : lx.cursor + 1 = source.length
  rest : lx.rest = source.drop lx.cursor

/-- From position `p` on, `s` is the first one whose character is not skipped. -/
structure NextUnskipped (source : Text) (p s : Nat) : Prop where
  le : p ≤ s
  lt : s < source.length
  skipped : ∀ i c, p ≤ i → i < s → source[i]? = some c → c ∈ blanks
  unskipped : ∀ c, source[s]? = some c → c ∉ blanks

/-! ### Positions and initial parts -/

section
variable {r : RuleTable} {source v rest : Text} {s : Nat} {c : Char}

theorem slice_of_drop (h : source.drop s = c :: (v ++ rest)) : Span.slice ⟨s, s + v.length⟩ source = c :: v := by
  simp only [Span.slice, h]
  rw [show s + v.length + 1 - s = v.length + 1 by omega]
  simp

theorem length_of_drop (h : source.drop s = c :: v) : source.length = s + v.length + 1 := by
  have := congrArg List.length h
  simp only [List.length_drop, List.length_cons] at this
  omega

theorem growable_iff {k : Kind} (h : source.drop s = c :: (v ++ rest)) (hk : r.classify (c :: v) = some k) :
    r.Growable source s (s + v.length) ↔ ∃ d, rest.head? = some d ∧ r.growsTo k (c :: v ++ [d]) = true := by
  have hlen := length_of_drop h
  rw [List.length_append] at hlen
  cases rest with
  | nil => simp [RuleTable.Growable, hlen]
  | cons d rest =>
    have hd : source.drop s = c :: ((v ++ [d]) ++ rest) := by simpa using h
    have hw := slice_of_drop hd
    rw [List.length_append, List.length_singleton, ← Nat.add_assoc] at hw
    have hlt : s + v.length + 1 < source.length := by
      rw [List.length_cons] at hlen
      omega
    simp only [RuleTable.Growable, slice_of_drop h, hw, hk, hlt, true_and, List.head?_cons, Option.some.injEq,
      exists_eq_left', List.cons_append, RuleTable.growsTo_iff]
    refine or_congr Iff.rfl ⟨?_, ?_⟩
    · rintro ⟨k', l, hk', hl, hkl⟩
      refine ⟨l, hl, ?_⟩
      cases hk'
      simpa [Kind.continuesAs, Kind.isWord_iff] using hkl
    · rintro ⟨l, hl, hkl⟩
      exact ⟨k, l, rfl, hl, by simpa [Kind.continuesAs, Kind.isWord_iff] using hkl⟩

/-- Stopping at a position is ending there as a token. -/
theorem stops_iff (h : source.drop s = c :: (v ++ rest)) :
    r.Stops source s (s + v.length) ↔ ∃ k, r.endKind? (c :: v) rest.head? = some k := by
  have hlt : s + v.length < source.length := by
    have := length_of_drop h
    rw [List.length_append] at this
    omega
  simp only [RuleTable.Stops, hlt, slice_of_drop h, true_and, RuleTable.endKind?_eq_some_iff]
  constructor
  · rintro ⟨⟨k, hk⟩, hg⟩
    refine ⟨k, hk, fun d hd => ?_⟩
    rw [Bool.eq_false_iff]
    exact fun hgrow => hg ((growable_iff h hk).mpr ⟨d, hd, hgrow⟩)
  · rintro ⟨k, hk, hg⟩
    refine ⟨⟨k, hk⟩, fun hgrow => ?_⟩
    obtain ⟨d, hd, hgrow⟩ := (growable_iff h hk).mp hgrow
    rw [hg d hd] at hgrow
    cases hgrow

theorem exists_split (h : source.drop s = c :: v) {e : Nat} (hs : s ≤ e) (he : e < source.length) :
    ∃ u t, v = u ++ t ∧ e = s + u.length := by
  have hlen := length_of_drop h
  refine ⟨v.take (e - s), v.drop (e - s), (List.take_append_drop _ _).symm, ?_⟩
  rw [List.length_take]
  omega

theorem not_stops_of_growsThrough (h : source.drop s = c :: (v ++ rest)) (hg : r.GrowsThrough [c] v) {e : Nat}
    (hs : s ≤ e) (he : e < s + v.length) : ¬r.Stops source s e := by
  have hlen := length_of_drop h
  rw [List.length_append] at hlen
  obtain ⟨u, t, hut, rfl⟩ := exists_split h hs (by omega)
  obtain ⟨d, t', rfl⟩ : ∃ d t', v = u ++ d :: t' := by
    rcases List.append_eq_append_iff.mp hut with ⟨a, rfl, -⟩ | ⟨a, rfl, -⟩
    · rw [List.length_append] at he
      omega
    · cases a with
      | nil => simp at he
      | cons d a => exact ⟨d, a, rfl⟩
  have hsplit : source.drop s = c :: (u ++ (d :: (t' ++ rest))) := by simpa using h
  rw [stops_iff hsplit]
  rintro ⟨k, hk⟩
  have := RuleTable.growsThrough_iff.mp hg u d t' rfl
  rw [List.singleton_append] at this
  simp [this] at hk

/-- The lexer cuts a token off at the least position where its candidate stops. -/
theorem isLeast_of_cuts {k : Kind} (h : source.drop s = c :: (v ++ rest)) (hcut : r.Cuts c v k rest.head?) :
    IsLeast {e | s ≤ e ∧ r.Stops source s e} (s + v.length) := by
  refine ⟨⟨Nat.le_add_right _ _, (stops_iff h).mpr ⟨k, hcut.ends⟩⟩, fun e he => ?_⟩
  by_contra hlt
  exact not_stops_of_growsThrough h hcut.grows he.1 (Nat.not_le.mp hlt) he.2

theorem not_stops_of_stuck (h : source.drop s = c :: v) (hs : r.Stuck c v) (e : Nat) (he : s ≤ e) :
    ¬r.Stops source s e := by
  have hlen := length_of_drop h
  have h' : source.drop s = c :: (v ++ []) := by simpa using h
  rcases Nat.lt_trichotomy e (s + v.length) with hlt | rfl | hlt
  · exact not_stops_of_growsThrough h' hs.grows he hlt
  · rw [stops_iff h', List.head?_nil]
    simp [RuleTable.endKind?_none, hs.unclassified]
  · rintro ⟨hlt', -⟩
    omega

end

/-! ### States between tokens -/

namespace Lexer
variable {source : Text} {lx : Lexer} {s : Nat}

theorem StandsIn.eq_between (h : lx.StandsIn source) :
    lx = between lx.rules lx.file lx.start (source.drop lx.start) := by
  obtain ⟨rules, file, start, candidate, rest, failed⟩ := lx
  simp only [between, mk.injEq, true_and]
  exact ⟨h.candidate, h.rest, h.failed⟩

theorem next_blanks {r : RuleTable} {file : Text} {p : Nat} {b cs : Text} (hb : ∀ c ∈ b, isBlank c = true) :
    (between r file p (b ++ cs)).next = (between r file (p + b.length) cs).next := by
  induction b generalizing p with
  | nil => rfl
  | cons c b ih =>
    rw [List.cons_append, next_blank (hb c List.mem_cons_self), ih fun d hd => hb d (List.mem_cons_of_mem _ hd),
      List.length_cons, Nat.add_assoc, Nat.add_comm 1]

/-- The blanks before the next character that is not skipped change nothing. -/
theorem StandsIn.next_eq (h : lx.StandsIn source) (hs : NextUnskipped source lx.start s) :
    lx.next = (between lx.rules lx.file s (source.drop s)).next := by
  have hsplit : source.drop lx.start = (source.drop lx.start).take (s - lx.start) ++ source.drop s := by
    conv_lhs => rw [← List.take_append_drop (s - lx.start) (source.drop lx.start)]
    rw [List.drop_drop, Nat.add_sub_cancel' hs.le]
  have hlen : ((source.drop lx.start).take (s - lx.start)).length = s - lx.start := by
    have := hs.lt
    rw [List.length_take, List.length_drop]
    omega
  rw [h.eq_between, hsplit, next_blanks, hlen, Nat.add_sub_cancel' hs.le]
  · rfl
  · intro c hc
    obtain ⟨i, hi⟩ := List.mem_iff_getElem?.mp hc
    have hlt := (List.getElem?_eq_some_iff.mp hi).1
    rw [hlen] at hlt
    rw [List.getElem?_take_of_lt hlt, List.getElem?_drop] at hi
    exact mem_blanks_iff.mp (hs.skipped _ c (Nat.le_add_right _ _) (by omega) hi)

/-- The lexers that calls of `next` lead to from the start of a source. -/
inductive Reachable (r : RuleTable) (source : Text) (file? : Option Text) : Lexer → Prop
  | start : Reachable r source file? (ofSource r source file?)
  | next {lx : Lexer} (h : Reachable r source file? lx) : Reachable r source file? lx.next.2

theorem exists_blanks (cs : Text) : ∃ b rest, cs = b ++ rest ∧ (∀ c ∈ b, isBlank c = true) ∧
    (rest = [] ∨ ∃ c v, rest = c :: v ∧ isBlank c = false) := by
  induction cs with
  | nil => exact ⟨[], [], rfl, by simp, Or.inl rfl⟩
  | cons c cs ih =>
    cases hc : isBlank c with
    | false => exact ⟨[], c :: cs, rfl, by simp, Or.inr ⟨c, cs, rfl, hc⟩⟩
    | true =>
      obtain ⟨b, rest, rfl, hb, hrest⟩ := ih
      exact ⟨c :: b, rest, rfl, by simpa [hc] using hb, hrest⟩

/-- What a call of `next` does to a lexer between tokens: only blanks are left, and it skips them; or it hands out a
    token and stands behind it; or it hands out an error and halts. -/
theorem StandsIn.next_cases (h : lx.StandsIn source) :
    (lx.next.1 = none ∧ (∀ c ∈ lx.rest, isBlank c = true) ∧ lx.next.2.StandsIn source ∧ lx.next.2.rest = []) ∨
    (¬(∀ c ∈ lx.rest, isBlank c = true) ∧
      ((∃ t, lx.next.1 = some (.token t) ∧ lx.next.2.StandsIn source ∧ lx.start < lx.next.2.start) ∨
        ∃ e, lx.next.1 = some (.error e) ∧ lx.next.2.HaltsIn source)) := by
  obtain ⟨b, rest, hsplit, hb, hrest⟩ := exists_blanks lx.rest
  have hdrop : source.drop (lx.start + b.length) = rest := by
    rw [← List.drop_drop, ← h.rest, hsplit, List.drop_left]
  have hlen : source.length = lx.start + b.length + rest.length := by
    have := congrArg List.length (h.rest.symm.trans hsplit)
    have := h.le
    simp only [List.length_drop, List.length_append] at *
    omega
  have hnext : lx.next = (between lx.rules lx.file (lx.start + b.length) rest).next := by
    rw [← next_blanks hb, ← hsplit, h.rest, ← h.eq_between]
  rw [hnext, hsplit]
  rcases hrest with rfl | ⟨c, v, rfl, hc⟩
  · rw [next_nil]
    exact Or.inl ⟨rfl, by simpa using hb, ⟨rfl, rfl, by simp [between, hlen], hdrop.symm⟩, rfl⟩
  refine Or.inr ⟨fun hall => ?_, ?_⟩
  · have := hall c (List.mem_append_right b List.mem_cons_self)
    simp [hc] at this
  rcases lx.rules.cuts_or_stuck c v with ⟨u, rest, k, rfl, hcut⟩ | hstuck
  · rw [next_of_cuts hc hcut]
    simp only [List.length_cons, List.length_append] at hlen
    refine Or.inl ⟨_, rfl, ⟨rfl, rfl, by simp only [between]; omega, ?_⟩, by simp only [between]; omega⟩
    simp only [between, Nat.add_assoc _ u.length]
    rw [← List.drop_drop, hdrop]
    simp
  · rw [next_of_stuck hc hstuck]
    have hlast := congrArg (List.drop (c :: v).dropLast.length) (List.dropLast_concat_getLast (List.cons_ne_nil c v))
    rw [List.drop_left] at hlast
    refine Or.inr ⟨_, rfl, rfl, ?_, ?_⟩
    · simp only [cursor, hlen, List.length_dropLast, List.length_cons]
      omega
    · rw [cursor, ← List.drop_drop, hdrop, ← hlast]

/-- A reachable lexer stands between tokens or has halted. -/
theorem Reachable.standsIn_or_haltsIn {r : RuleTable} {file? : Option Text} (h : Reachable r source file? lx) :
    lx.StandsIn source ∨ lx.HaltsIn source := by
  induction h with
  | start => exact Or.inl ⟨rfl, rfl, Nat.zero_le _, rfl⟩
  | @next lx _ ih =>
    rcases ih with h | h
    · rcases h.next_cases with ⟨-, -, h', -⟩ | ⟨-, ⟨-, -, h', -⟩ | ⟨-, -, h'⟩⟩
      · exact Or.inl h'
      · exact Or.inl h'
      · exact Or.inr h'
    · rw [next_of_failed h.failed]
      exact Or.inr h

theorem Reachable.standsIn {r : RuleTable} {file? : Option Text} (h : Reachable r source file? lx)
    (hf : lx.failed = false) : lx.StandsIn source := by
  refine h.standsIn_or_haltsIn.resolve_right fun hhalts => ?_
  rw [hhalts.failed] at hf
  cases hf

end Lexer

/-- From the next character that is not skipped on, a lexer between tokens hands out the token that ends at the least
    position where the candidate stops, and the error up to the end of the source exactly when it stops nowhere. -/
theorem next_iff_least_stop {source : Text} {lx : Lexer} {s : Nat} (hlx : lx.StandsIn source)
    (hs : NextUnskipped source lx.start s) :
    (∀ e, (∃ k, lx.rules.classify (Span.slice ⟨s, e⟩ source) = some k ∧
        lx.next.1 = some (.token ⟨k, Span.slice ⟨s, e⟩ source, ⟨s, e⟩⟩)) ↔
      IsLeast {e | s ≤ e ∧ lx.rules.Stops source s e} e) ∧
    (lx.next.1 = some (.error ⟨Span.slice ⟨s, source.length - 1⟩ source, ⟨s, source.length - 1⟩, lx.file⟩) ↔
      ∀ e, s ≤ e → ¬lx.rules.Stops source s e) := by
  obtain ⟨c, v, hdrop⟩ : ∃ c v, source.drop s = c :: v :=
    List.exists_cons_of_length_pos (by rw [List.length_drop]; exact Nat.sub_pos_of_lt hs.lt)
  have hget : source[s]? = some c := by rw [← List.head?_drop, hdrop, List.head?_cons]
  have hc : isBlank c = false := not_mem_blanks_iff.mp (hs.unskipped c hget)
  rw [hlx.next_eq hs, hdrop]
  rcases lx.rules.cuts_or_stuck c v with ⟨u, rest, k, rfl, hcut⟩ | hstuck
  · have hleast := isLeast_of_cuts hdrop hcut
    rw [Lexer.next_of_cuts hc hcut]
    refine ⟨fun e => ⟨?_, fun he => ?_⟩, ⟨by simp, fun h => absurd hleast.1.2 (h _ hleast.1.1)⟩⟩
    · rintro ⟨k', -, htok⟩
      simp only [Option.some.injEq, Item.token.injEq, Token.mk.injEq, Span.mk.injEq, true_and] at htok
      exact htok.2.2 ▸ hleast
    · obtain rfl := he.unique hleast
      exact ⟨k, by rw [slice_of_drop hdrop]; exact hcut.classify, by rw [slice_of_drop hdrop]⟩
  · have hnone := not_stops_of_stuck hdrop hstuck
    have hlen := length_of_drop hdrop
    have hlast : source.length - 1 = s + v.length := by omega
    have hdrop' : source.drop s = c :: (v ++ []) := by rw [hdrop, List.append_nil]
    rw [Lexer.next_of_stuck hc hstuck, hlast, slice_of_drop hdrop']
    refine ⟨fun e => ⟨by simp, fun he => absurd he.1.2 (hnone e he.1.1)⟩, ⟨fun _ => hnone, fun _ => rfl⟩⟩

/-- After `use ` the comment `//x` goes on to its newline: `/` alone would be an operator, but it does not stop. -/
theorem next_iff_least_stop_comment :
    let source := "use //x\n".toList
    let lx := (Lexer.ofSource .standard source none).next.2
    lx.StandsIn source ∧ NextUnskipped source lx.start 4 ∧
      IsLeast {e | 4 ≤ e ∧ RuleTable.standard.Stops source 4 e} 7 := by
  intro source lx
  have hlx : lx.StandsIn source := (Lexer.Reachable.start.next).standsIn rfl
  have hs : NextUnskipped source lx.start 4 := by
    refine ⟨by decide, by decide, fun i c hi hi' hc => ?_, fun c hc => ?_⟩
    · obtain rfl : i = 3 := Nat.le_antisymm (Nat.le_of_lt_succ hi') hi
      cases hc
      decide
    · cases hc
      decide
  exact ⟨hlx, hs, ((next_iff_least_stop hlx hs).1 7).mp ⟨.comment, by decide, by decide⟩⟩

end Munch
