import Munch.Proofs.Classify
import Munch.RuleTable.Update

/-! What more rules do to the kinds of texts. A rule lets texts pass the test for one kind, and so takes over those of
    them whose kind, if they have any, comes later in the order of the tests. No text loses its kind, and it does not
    matter in which order rules are added. -/

namespace Munch

namespace RuleTable

/-! ### One more rule -/

namespace Addition

/-- Whether a rule alone makes a text pass the test for a kind. -/
def grants : Addition → Kind → Text → Bool
  | .keyword w, .keyword, v | .breaker w, .breaker, v | .operator w, .operator, v => v == w
  | .commentPair p, .comment, v => p.encloses v
  | _, _, _ => false

/-- The one kind whose test a rule lets texts pass. -/
def kind : Addition → Kind
  | .keyword _ => .keyword
  | .breaker _ => .breaker
  | .operator _ => .operator
  | .commentPair _ => .comment

end Addition

/-- Whether a text of kind `k?`, or of none, is of kind `k` as soon as it passes the test for it. -/
def yieldsTo (k? : Option Kind) (k : Kind) : Bool :=
  k?.all fun l => Kind.precedence.idxOf k < Kind.precedence.idxOf l

variable {r : RuleTable} {x : Addition} {xs ys : List Addition} {v w : Text} {k : Kind}

theorem admits_add (r : RuleTable) (x : Addition) (k : Kind) (v : Text) :
    (r.add x).admits k v = (r.admits k v || x.grants k v) := by
  cases x <;> cases k <;>
    simp [add, admits, Addition.grants, isKeyword, isBreaker, isOperator, isComment, isLiteral, isBool, Bool.beq_eq_decide_eq]

theorem classify_add_eq (h : ∀ k, x.grants k v = false) : (r.add x).classify v = r.classify v := by
  simp only [classify, admits_add, h, Bool.or_false]

theorem eq_kind_of_grants (h : x.grants k v = true) : k = x.kind := by
  have heq : x.grants k v = (k == x.kind && x.grants x.kind v) := by cases x <;> cases k <;> rfl
  rw [heq, Bool.and_eq_true, beq_iff_eq] at h
  exact h.1

theorem classify_add_of_yieldsTo (hx : x.grants x.kind v = true) (hv : yieldsTo (r.classify v) x.kind = true) :
    (r.add x).classify v = some x.kind := by
  rw [classify_eq_some_iff]
  refine ⟨by rw [admits_add, hx, Bool.or_true], fun l hl => ?_⟩
  have hgrants : x.grants l v = false := by
    rw [Bool.eq_false_iff]
    intro h
    rw [eq_kind_of_grants h] at hl
    exact Nat.lt_irrefl _ hl
  rw [admits_add, hgrants, Bool.or_false, Bool.eq_false_iff]
  intro hadmits
  -- A text that passes the earlier test has a kind that is not later than it.
  cases hk : r.classify v with
  | none =>
    rw [classify_eq_none_iff.mp hk l] at hadmits
    cases hadmits
  | some k =>
    rw [hk, yieldsTo, Option.all_some, decide_eq_true_eq] at hv
    rw [(classify_eq_some_iff.mp hk).2 l (Nat.lt_trans hl hv)] at hadmits
    cases hadmits

theorem classify_add_of_not_yieldsTo (hv : yieldsTo (r.classify v) x.kind = false) :
    (r.add x).classify v = r.classify v := by
  cases hk : r.classify v with
  | none => simp [hk, yieldsTo] at hv
  | some k =>
    rw [hk, yieldsTo, Option.all_some, decide_eq_false_iff_not, Nat.not_lt] at hv
    obtain ⟨hadmits, hbefore⟩ := classify_eq_some_iff.mp hk
    rw [classify_eq_some_iff, admits_add, hadmits, Bool.true_or]
    refine ⟨rfl, fun l hl => ?_⟩
    rw [admits_add, hbefore l hl, Bool.false_or, Bool.eq_false_iff]
    intro hgrants
    rw [eq_kind_of_grants hgrants] at hl
    exact Nat.not_lt.mpr hv hl

/-- A rule gives its kind to the texts that it lets pass the test and whose kind it precedes, and changes no other. -/
theorem classify_add (r : RuleTable) (x : Addition) (v : Text) : (r.add x).classify v =
    if x.grants x.kind v && yieldsTo (r.classify v) x.kind then some x.kind else r.classify v := by
  cases hx : x.grants x.kind v with
  | false =>
    refine classify_add_eq fun k => ?_
    rw [Bool.eq_false_iff]
    intro h
    obtain rfl := eq_kind_of_grants h
    rw [hx] at h
    cases h
  | true =>
    cases hv : yieldsTo (r.classify v) x.kind with
    | false => exact classify_add_of_not_yieldsTo hv
    | true => exact classify_add_of_yieldsTo hx hv

theorem classify_add_ne_none (h : r.classify v ≠ none) : (r.add x).classify v ≠ none := by
  rw [classify_add]
  split
  · exact Option.some_ne_none _
  · exact h

theorem yieldsTo_keyword {k? : Option Kind} :
    yieldsTo k? .keyword = true ↔ k? ≠ some .literal ∧ k? ≠ some .keyword := by
  cases k? with
  | none => decide
  | some k => cases k <;> decide

theorem yieldsTo_operator {k? : Option Kind} :
    yieldsTo k? .operator = true ↔ k? ∈ [none, some .breaker, some .newline, some .comment] := by
  cases k? with
  | none => decide
  | some k => cases k <;> decide

theorem yieldsTo_breaker {k? : Option Kind} :
    yieldsTo k? .breaker = true ↔ k? ∈ [none, some .newline, some .comment] := by
  cases k? with
  | none => decide
  | some k => cases k <;> decide

theorem yieldsTo_comment {k? : Option Kind} : yieldsTo k? .comment = true ↔ k? = none := by
  cases k? with
  | none => decide
  | some k => cases k <;> decide

theorem encloses_iff {p : CommentPair} : p.encloses v = true ↔ p.opener <+: v ∧ p.closer <:+ v := by
  rw [CommentPair.encloses, Bool.and_eq_true, List.isPrefixOf_iff_prefix, List.isSuffixOf_iff_suffix]

/-! ### Many more rules -/

/-- A table with more rules, added one after the other. -/
def addAll (r : RuleTable) (xs : List Addition) : RuleTable := xs.foldl add r

theorem admits_addAll : (r.addAll xs).admits k v = (r.admits k v || xs.any fun x => x.grants k v) := by
  induction xs generalizing r with
  | nil => simp [addAll]
  | cons x xs ih => rw [addAll, List.foldl_cons, ← addAll, ih, admits_add, List.any_cons, Bool.or_assoc]

theorem classify_addAll_ne_none (h : r.classify v ≠ none) : (r.addAll xs).classify v ≠ none := by
  induction xs generalizing r with
  | nil => exact h
  | cons x xs ih => exact ih (classify_add_ne_none h)

/-- Neither the order of the rules counts nor how often one is added. -/
theorem classify_addAll_congr (h : ∀ x, x ∈ xs ↔ x ∈ ys) : (r.addAll xs).classify v = (r.addAll ys).classify v := by
  have hany (k : Kind) : (xs.any fun x => x.grants k v) = ys.any fun x => x.grants k v := by
    rw [Bool.eq_iff_iff, List.any_eq_true, List.any_eq_true]
    simp only [h]
  simp only [classify, admits_addAll, hany]

/-- What each sort of rule does to the kind of a text. A reserved word is a keyword unless it is a literal; an operator or a
    breaker gives its kind to its own text, if that had none or a later one; and a comment pair gives its kind to the texts
    without one that it encloses. Whatever rules are added, no text loses its kind, and their order does not matter. -/
theorem kinds_with_more_rules (r : RuleTable) :
    (∀ w v, (r.add (.keyword w)).classify v =
      if v = w ∧ r.classify v ≠ some .literal then some .keyword else r.classify v) ∧
    (∀ w v, (r.add (.operator w)).classify v =
      if v = w ∧ r.classify v ∈ [none, some .breaker, some .newline, some .comment] then some .operator
      else r.classify v) ∧
    (∀ w v, (r.add (.breaker w)).classify v =
      if v = w ∧ r.classify v ∈ [none, some .newline, some .comment] then some .breaker else r.classify v) ∧
    (∀ p v, (r.add (.commentPair p)).classify v =
      if (p.opener <+: v ∧ p.closer <:+ v) ∧ r.classify v = none then some .comment else r.classify v) ∧
    (∀ xs v, r.classify v ≠ none → (r.addAll xs).classify v ≠ none) ∧
    ∀ xs ys, xs.Perm ys → ∀ v, (r.addAll xs).classify v = (r.addAll ys).classify v := by
  refine ⟨fun w v => ?keyword, fun w v => ?operator, fun w v => ?breaker, fun p v => ?comment,
    fun xs v => classify_addAll_ne_none, fun xs ys h v => classify_addAll_congr fun x => h.mem_iff⟩
  case keyword =>
    rw [classify_add]
    by_cases hk : r.classify v = some .keyword
    · simp [hk, Addition.kind]
    · simp only [Addition.kind, Addition.grants, Bool.and_eq_true, beq_iff_eq, yieldsTo_keyword, ne_eq, hk,
        not_false_eq_true, and_true]
  case operator => simp only [classify_add, Addition.kind, Addition.grants, Bool.and_eq_true, beq_iff_eq, yieldsTo_operator]
  case breaker => simp only [classify_add, Addition.kind, Addition.grants, Bool.and_eq_true, beq_iff_eq, yieldsTo_breaker]
  case comment => simp only [classify_add, Addition.kind, Addition.grants, Bool.and_eq_true, encloses_iff, yieldsTo_comment]

/-- Of three rules that fit one text, that of the earliest kind decides, though it was added last. -/
example : (standard.addAll [.commentPair ⟨['#'], ['#']⟩, .breaker ['#'], .operator ['#']]).classify ['#'] = some .operator :=
  by decide

end RuleTable

end Munch
