import Munch.Lexer.Basic
import Munch.Proofs.Classify

/-! How a candidate grows. A candidate ends at the first character where it has a kind and does not go on with the
    character after it; until then it grows. From a character that is no blank the lexer therefore either cuts a
    token off, or is stuck at the end of the source with a candidate of no kind. -/

namespace Munch

namespace RuleTable
variable {r : RuleTable} {w v : Text} {k : Kind} {c d : Char} {next? : Option Char}

/-! ### Going on -/

theorem growsTo_iff : r.growsTo k w = true ↔
    r.isCommentOpener w = true ∨ ∃ l, r.classify w = some l ∧ k.continuesAs l = true := by
  simp [growsTo, Option.any_eq_true]

/-- A candidate does not go on to a text that opens no comment and passes no test of a kind to go on with. -/
theorem growsTo_eq_false (ho : r.isCommentOpener w = false)
    (h : ∀ l, k.continuesAs l = true → r.admits l w = false) : r.growsTo k w = false := by
  rw [Bool.eq_false_iff, ne_eq, growsTo_iff]
  rintro (h' | ⟨l, hw, hl⟩)
  · simp [ho] at h'
  · simpa [h l hl] using admits_of_classify hw

/-- The kind of the token that ends with the candidate `w` when `next?` follows it, or `none` when the candidate
    goes on, as one of no kind always does. -/
def endKind? (r : RuleTable) (w : Text) (next? : Option Char) : Option Kind :=
  (r.classify w).filter fun k => !next?.any fun d => r.growsTo k (w ++ [d])

theorem endKind?_eq_some_iff : r.endKind? w next? = some k ↔
    r.classify w = some k ∧ ∀ d, next? = some d → r.growsTo k (w ++ [d]) = false := by
  cases next? <;> simp [endKind?, Option.filter_eq_some_iff]

theorem endKind?_none : r.endKind? w none = r.classify w := by
  cases h : r.classify w <;> simp [endKind?, h]

theorem endKind?_of_classify_eq_none (h : r.classify w = none) : r.endKind? w next? = none := by
  simp [endKind?, h]

theorem endKind?_of_growsTo (h : r.classify w = some k) (hd : r.growsTo k (w ++ [d]) = true) :
    r.endKind? w (some d) = none := by
  simp [endKind?, h, hd]

theorem endKind?_of_continuesAs {l : Kind} (h : r.classify w = some k) (hd : r.classify (w ++ [d]) = some l)
    (hl : k.continuesAs l = true) : r.endKind? w (some d) = none :=
  endKind?_of_growsTo h (growsTo_iff.mpr (Or.inr ⟨l, hd, hl⟩))

theorem verdict_eq (h : (w.isEmpty && isBlank c) = false) : r.verdict w c next? =
    match r.endKind? (w ++ [c]) next? with
    | some k => .emit k
    | none => if next?.isSome then .grow else .reject := by
  simp only [verdict, h, Bool.false_eq_true, ↓reduceIte]
  cases hk : r.classify (w ++ [c]) with
  | none => cases next? <;> simp [endKind?, hk]
  | some k =>
    cases next? with
    | none => simp [endKind?, hk, Option.filter]
    | some d => cases hg : r.growsTo k (w ++ [c, d]) <;> simp [endKind?, hk, hg, Option.filter]

/-! ### Growing through a text -/

/-- The candidate `w` grows through the characters of a text, one after the other. -/
def GrowsThrough (r : RuleTable) : Text → Text → Prop
  | _, [] => True
  | w, d :: v => r.endKind? w (some d) = none ∧ GrowsThrough r (w ++ [d]) v

@[simp] theorem growsThrough_nil : r.GrowsThrough w [] := trivial

@[simp] theorem growsThrough_cons :
    r.GrowsThrough w (d :: v) ↔ r.endKind? w (some d) = none ∧ r.GrowsThrough (w ++ [d]) v := Iff.rfl

theorem growsThrough_append {u : Text} :
    r.GrowsThrough w (u ++ v) ↔ r.GrowsThrough w u ∧ r.GrowsThrough (w ++ u) v := by
  induction u generalizing w with
  | nil => simp
  | cons d u ih => simp [ih, and_assoc]

theorem growsThrough_iff : r.GrowsThrough w v ↔
    ∀ u d t, v = u ++ d :: t → r.endKind? (w ++ u) (some d) = none := by
  constructor
  · rintro h u d t rfl
    exact (growsThrough_append.mp h).2.1
  · intro h
    induction v generalizing w with
    | nil => trivial
    | cons d v ih =>
      refine ⟨by simpa using h [] d v rfl, ih fun u e t hv => ?_⟩
      simpa using h (d :: u) e t (by simp [hv])

theorem growsThrough_of_unclassified (h : ∀ u d t, v = u ++ d :: t → r.classify (w ++ u) = none) :
    r.GrowsThrough w v :=
  growsThrough_iff.mpr fun u d t hv => endKind?_of_classify_eq_none (h u d t hv)

/-- A candidate grows through a text when it has a kind at each initial part, and these kinds go on as one another. -/
theorem growsThrough_of_classify {K : Kind → Prop} (hK : ∀ k l, K k → K l → k.continuesAs l = true)
    (h : ∀ u t, v = u ++ t → ∃ k, r.classify (w ++ u) = some k ∧ K k) : r.GrowsThrough w v := by
  rw [growsThrough_iff]
  rintro u d t rfl
  obtain ⟨k, hk, hKk⟩ := h u (d :: t) rfl
  obtain ⟨l, hl, hKl⟩ := h (u ++ [d]) t (by simp)
  exact endKind?_of_continuesAs hk (by simpa using hl) (hK k l hKk hKl)

/-- From `c` on, the lexer cuts off the token `c :: v` of kind `k` when `next?` is the character after it. -/
structure Cuts (r : RuleTable) (c : Char) (v : Text) (k : Kind) (next? : Option Char) : Prop where
  grows : r.GrowsThrough [c] v
  ends : r.endKind? (c :: v) next? = some k

/-- From `c` on, the candidate grows through all of `v`, which ends the source, and has no kind there. -/
structure Stuck (r : RuleTable) (c : Char) (v : Text) : Prop where
  grows : r.GrowsThrough [c] v
  unclassified : r.classify (c :: v) = none

theorem Cuts.classify (h : r.Cuts c v k next?) : r.classify (c :: v) = some k :=
  (endKind?_eq_some_iff.mp h.ends).1

/-- A cut depends on its next character only in that the candidate does not go on with it. -/
theorem Cuts.of_growsTo (h : r.Cuts c v k next?) {next?' : Option Char}
    (hn : ∀ d, next?' = some d → r.growsTo k (c :: v ++ [d]) = false) : r.Cuts c v k next?' :=
  ⟨h.grows, endKind?_eq_some_iff.mpr ⟨h.classify, hn⟩⟩

theorem Cuts.of_none (h : r.Cuts c v k next?) : r.Cuts c v k none := h.of_growsTo fun d hd => by cases hd

/-- A candidate ends somewhere in the characters after it, or grows through them all and has no kind. -/
theorem ends_or_grows (r : RuleTable) (w rest : Text) :
    (∃ v rest' k, rest = v ++ rest' ∧ r.GrowsThrough w v ∧ r.endKind? (w ++ v) rest'.head? = some k) ∨
      (r.GrowsThrough w rest ∧ r.classify (w ++ rest) = none) := by
  induction rest generalizing w with
  | nil =>
    cases h : r.classify w with
    | none => exact Or.inr ⟨trivial, by simpa using h⟩
    | some k => exact Or.inl ⟨[], [], k, rfl, trivial, by simpa [endKind?_none] using h⟩
  | cons d rest ih =>
    cases h : r.endKind? w (some d) with
    | some k => exact Or.inl ⟨[], d :: rest, k, rfl, trivial, by simpa using h⟩
    | none =>
      rcases ih (w ++ [d]) with ⟨v, rest', k, rfl, hg, he⟩ | ⟨hg, hk⟩
      · exact Or.inl ⟨d :: v, rest', k, rfl, ⟨h, hg⟩, by simpa using he⟩
      · exact Or.inr ⟨⟨h, hg⟩, by simpa using hk⟩

theorem cuts_or_stuck (r : RuleTable) (c : Char) (cs : Text) :
    (∃ v rest k, cs = v ++ rest ∧ r.Cuts c v k rest.head?) ∨ r.Stuck c cs := by
  rcases r.ends_or_grows [c] cs with ⟨v, rest, k, hcs, hg, he⟩ | ⟨hg, hk⟩
  · exact Or.inl ⟨v, rest, k, hcs, hg, he⟩
  · exact Or.inr ⟨hg, hk⟩

end RuleTable

/-! ### The scan -/

namespace Lexer
variable {r : RuleTable} {file : Text} {p : Nat} {w v rest : Text} {c : Char} {k : Kind}

/-- A lexer between tokens, at position `p` and before the characters `rest`. -/
def between (r : RuleTable) (file : Text) (p : Nat) (rest : Text) : Lexer := ⟨r, file, p, [], rest, false⟩

theorem ofSource_eq_between (r : RuleTable) (source : Text) (file? : Option Text) :
    ofSource r source file? = between r (file?.getD unnamed) 0 source := rfl

theorem scan_blank (hc : isBlank c = true) : scan r file p [] (c :: rest) = scan r file (p + 1) [] rest := by
  rw [scan_cons]
  simp [RuleTable.verdict, hc]

theorem scan_grow {d : Char} (hc : (w.isEmpty && isBlank c) = false) (hd : r.endKind? (w ++ [c]) (some d) = none) :
    scan r file p w (c :: d :: rest) = scan r file p (w ++ [c]) (d :: rest) := by
  rw [scan_cons]
  simp [RuleTable.verdict_eq hc, hd]

theorem scan_of_ends (file : Text) (p : Nat) (hc : (w.isEmpty && isBlank c) = false) (hg : r.GrowsThrough (w ++ [c]) v)
    (he : r.endKind? (w ++ c :: v) rest.head? = some k) :
    scan r file p w (c :: (v ++ rest)) =
      (some (.token ⟨k, w ++ c :: v, ⟨p, p + w.length + v.length⟩⟩),
        between r file (p + w.length + v.length + 1) rest) := by
  induction v generalizing w c with
  | nil =>
    rw [scan_cons]
    simp [RuleTable.verdict_eq hc, he, between]
  | cons d v ih =>
    rw [List.cons_append, scan_grow hc hg.1, ih (by simp) hg.2 (by simpa using he)]
    simp [Nat.add_assoc, Nat.add_comm 1]

theorem scan_of_grows (file : Text) (p : Nat) (hc : (w.isEmpty && isBlank c) = false) (hg : r.GrowsThrough (w ++ [c]) v)
    (hk : r.classify (w ++ c :: v) = none) :
    scan r file p w (c :: v) =
      (some (.error ⟨w ++ c :: v, ⟨p, p + w.length + v.length⟩, file⟩),
        ⟨r, file, p, (w ++ c :: v).dropLast, [(c :: v).getLast (List.cons_ne_nil c v)], true⟩) := by
  induction v generalizing w c with
  | nil =>
    rw [scan_cons]
    simp [RuleTable.verdict_eq hc, RuleTable.endKind?_none, hk]
  | cons d v ih =>
    rw [scan_grow hc hg.1, ih (by simp) hg.2 (by simpa using hk)]
    simp [Nat.add_assoc, Nat.add_comm 1]

end Lexer

end Munch
