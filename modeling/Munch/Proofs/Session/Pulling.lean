import Munch.Lexer.Session
import Munch.Proofs.Calls

/-! Pulling from a lexer. Whatever a lexer has been through, it has a list of items left, and a call of `next` takes the
    first one of them. So every step of a session takes a first part of what is left, whether its answer shows these
    items or loses them, and what it takes and answers can be told from the items left alone. -/

namespace Munch

namespace Lexer
variable {lx lx' : Lexer} {i : Item} {stop : Item → Bool} {n m : Nat}

/-! ### The items left -/

/-- What a scan of at most `n` characters leaves: nothing to read, or less than `n` behind a token, or a lexer that has
    failed. -/
theorem scan_cases (r : RuleTable) (file : Text) (p : Nat) (w : Text) {rest : Text} (hn : rest.length ≤ n) :
    (∃ lx, scan r file p w rest = (none, lx) ∧ lx.rest = []) ∨
    (∃ t lx, scan r file p w rest = (some (.token t), lx) ∧ lx.rest.length < n) ∨
    (∃ e lx, scan r file p w rest = (some (.error e), lx) ∧ lx.failed = true) := by
  induction rest generalizing p w with
  | nil => exact Or.inl ⟨_, rfl, rfl⟩
  | cons c rest ih =>
    rw [scan_cons]
    cases r.verdict w c rest.head? with
    | skip => exact ih (p + 1) [] (Nat.le_of_succ_le hn)
    | grow => exact ih p (w ++ [c]) (Nat.le_of_succ_le hn)
    | emit k => exact Or.inr (Or.inl ⟨_, _, rfl, hn⟩)
    | reject => exact Or.inr (Or.inr ⟨_, _, rfl, rfl⟩)

/-- A call that hands out nothing or an error is followed by calls that hand out nothing, and one that hands out a
    token leaves less to read. -/
theorem next_cases (lx : Lexer) :
    (∃ lx', lx.next = (none, lx') ∧ lx'.next = (none, lx')) ∨
    (∃ t lx', lx.next = (some (.token t), lx') ∧ lx'.rest.length < lx.rest.length) ∨
    (∃ e lx', lx.next = (some (.error e), lx') ∧ lx'.next = (none, lx')) := by
  cases hf : lx.failed with
  | true => exact Or.inl ⟨lx, next_of_failed hf, next_of_failed hf⟩
  | false =>
    rw [next_of_not_failed hf]
    rcases scan_cases lx.rules lx.file lx.start lx.candidate (Nat.le_refl lx.rest.length) with
      ⟨lx', h, hrest⟩ | h | ⟨e, lx', h, hfailed⟩
    · exact Or.inl ⟨lx', h, next_of_rest_eq_nil hrest⟩
    · exact Or.inr (Or.inl h)
    · exact Or.inr (Or.inr ⟨e, lx', h, next_of_failed hfailed⟩)

theorem pull_succ_of_next_some (h : lx.next = (some i, lx')) (n : Nat) : lx.pull stop (n + 1) =
    if stop i then ([i], lx') else (i :: (lx'.pull stop n).1, (lx'.pull stop n).2) := by
  simp only [pull_succ, h]

/-- More calls than there are characters take the same items, however many they are. -/
theorem pull_enough (hn : lx.rest.length < n) (hm : lx.rest.length < m) :
    (lx.pull stop n).1 = (lx.pull stop m).1 := by
  induction n generalizing lx m with
  | zero => cases hn
  | succ n ih =>
    obtain ⟨m, rfl⟩ := Nat.exists_eq_succ_of_ne_zero (Nat.ne_zero_of_lt hm)
    rcases lx.next_cases with ⟨lx', h, -⟩ | ⟨t, lx', h, hlt⟩ | ⟨e, lx', h, hlast⟩
    · rw [pull_of_next_none h, pull_of_next_none h]
    · rw [pull_succ_of_next_some h, pull_succ_of_next_some h, apply_ite Prod.fst, apply_ite Prod.fst,
        ih (m := m) (by omega) (by omega)]
    · rw [pull_succ_of_next_some h, pull_succ_of_next_some h, apply_ite Prod.fst, apply_ite Prod.fst,
        pull_of_next_none hlast, pull_of_next_none hlast]

theorem items_of_next_none (h : lx.next = (none, lx')) : lx.items = [] ∧ lx'.items = [] := by
  rcases lx.next_cases with ⟨lx'', h', hlast⟩ | ⟨t, lx'', h', -⟩ | ⟨e, lx'', h', -⟩ <;> cases h.symm.trans h'
  exact ⟨pull_of_next_none h _, pull_of_next_none hlast _⟩

/-- A call of `next` takes the first of the items that are left. -/
theorem items_of_next_some (h : lx.next = (some i, lx')) : lx.items = i :: lx'.items := by
  rw [items, calls, pull_succ_of_next_some h]
  refine congrArg (i :: ·) ?_
  rcases lx.next_cases with ⟨lx'', h', -⟩ | ⟨t, lx'', h', hlt⟩ | ⟨e, lx'', h', hlast⟩ <;> cases h.symm.trans h'
  · exact pull_enough hlt (Nat.lt_succ_self _)
  · rw [items, pull_of_next_none hlast, pull_of_next_none hlast]

theorem next_eq_head? (lx : Lexer) : lx.next.1 = lx.items.head? := by
  rcases hnext : lx.next with ⟨_ | i, lx'⟩
  · rw [(items_of_next_none hnext).1, List.head?_nil]
  · rw [items_of_next_some hnext, List.head?_cons]

/-- An error is the last item. -/
theorem items_of_next_error {e : LexError} (h : lx.next = (some (.error e), lx')) : lx'.items = [] := by
  rcases lx.next_cases with ⟨lx'', h', -⟩ | ⟨t, lx'', h', -⟩ | ⟨e', lx'', h', hlast⟩ <;> cases h.symm.trans h'
  exact pull_of_next_none hlast _

theorem file_scan (r : RuleTable) (file : Text) (p : Nat) (w rest : Text) : (scan r file p w rest).2.file = file := by
  induction rest generalizing p w with
  | nil => rfl
  | cons c rest ih =>
    rw [scan_cons]
    cases r.verdict w c rest.head? with
    | skip => exact ih (p + 1) []
    | grow => exact ih p (w ++ [c])
    | emit k => rfl
    | reject => rfl

theorem file_next (lx : Lexer) : lx.next.2.file = lx.file := by
  cases hf : lx.failed with
  | true => rw [next_of_failed hf]
  | false => rw [next_of_not_failed hf, file_scan]

/-! ### What pulling takes -/

/-- Calls of `next` lead from one lexer to another, and hand out the items `is` on the way. -/
inductive Pulls : Lexer → List Item → Lexer → Prop
  | refl {lx : Lexer} : Pulls lx [] lx
  | none {lx lx' lx'' : Lexer} {is : List Item} (h : lx.next = (none, lx')) (hs : Pulls lx' is lx'') : Pulls lx is lx''
  | some {lx lx' lx'' : Lexer} {i : Item} {is : List Item} (h : lx.next = (some i, lx')) (hs : Pulls lx' is lx'') :
      Pulls lx (i :: is) lx''

/-- What calls hand out is taken from the items left, first come first served. -/
theorem Pulls.items_eq {is : List Item} (h : Pulls lx is lx') : lx.items = is ++ lx'.items := by
  induction h with
  | refl => rfl
  | none h _ ih =>
    obtain ⟨hnil, hnil'⟩ := items_of_next_none h
    rw [← ih, hnil, hnil']
  | some h _ ih => rw [items_of_next_some h, ih, List.cons_append]

theorem Pulls.file_eq {is : List Item} (h : Pulls lx is lx') : lx'.file = lx.file := by
  induction h with
  | refl => rfl
  | @none lx _ _ _ h _ ih => rw [ih, ← file_next lx, h]
  | @some lx _ _ _ _ h _ ih => rw [ih, ← file_next lx, h]

theorem pulls_pull (stop : Item → Bool) (n : Nat) (lx : Lexer) : Pulls lx (lx.pull stop n).1 (lx.pull stop n).2 := by
  induction n generalizing lx with
  | zero => exact .refl
  | succ n ih =>
    rcases hnext : lx.next with ⟨_ | i, lx'⟩
    · simpa only [pull_succ, hnext] using Pulls.none hnext .refl
    · rw [pull_succ_of_next_some hnext]
      split
      · exact .some hnext .refl
      · exact .some hnext (ih lx')

end Lexer

/-- The first items, up to the first one that satisfies `stop`, this one included. -/
def throughFirst (stop : Item → Bool) : List Item → List Item
  | [] => []
  | i :: is => i :: if stop i then [] else throughFirst stop is

theorem throughFirst_cases (stop : Item → Bool) (is : List Item) :
    (∃ skipped i rest, is = skipped ++ i :: rest ∧ (∀ j ∈ skipped, stop j = false) ∧ stop i = true ∧
      throughFirst stop is = skipped ++ [i]) ∨
    ((∀ j ∈ is, stop j = false) ∧ throughFirst stop is = is) := by
  induction is with
  | nil => exact Or.inr ⟨by simp, rfl⟩
  | cons i is ih =>
    cases hi : stop i with
    | true => exact Or.inl ⟨[], i, is, rfl, by simp, hi, by simp [throughFirst, hi]⟩
    | false =>
      rcases ih with ⟨skipped, j, rest, rfl, hskipped, hj, hthrough⟩ | ⟨hnone, hthrough⟩
      · exact Or.inl ⟨i :: skipped, j, rest, rfl, by simpa [hi] using hskipped, hj, by simp [throughFirst, hi, hthrough]⟩
      · exact Or.inr ⟨by simpa [hi] using hnone, by simp [throughFirst, hi, hthrough]⟩

theorem length_throughFirst_le (stop : Item → Bool) (is : List Item) : (throughFirst stop is).length ≤ is.length := by
  rcases throughFirst_cases stop is with ⟨skipped, i, rest, rfl, -, -, h⟩ | ⟨-, h⟩ <;> simp [h]

namespace Lexer
variable {lx lx' : Lexer} {i : Item} {stop : Item → Bool} {n m : Nat}

theorem pull_eq (stop : Item → Bool) (n : Nat) (lx : Lexer) : (lx.pull stop n).1 = (throughFirst stop lx.items).take n := by
  induction n generalizing lx with
  | zero => rfl
  | succ n ih =>
    rcases hnext : lx.next with ⟨_ | i, lx'⟩
    · rw [pull_of_next_none hnext, (items_of_next_none hnext).1]
      rfl
    · rw [pull_succ_of_next_some hnext, items_of_next_some hnext, throughFirst, List.take_succ_cons]
      cases stop i <;> simp [ih]

theorem length_items_le (lx : Lexer) : lx.items.length ≤ lx.calls := by
  rw [items, pull_eq]
  exact List.length_take_le _ _

/-- Without a limit, pulling goes on to the first item that stops it, or to the end. -/
theorem pull_calls_eq (stop : Item → Bool) (lx : Lexer) : (lx.pull stop lx.calls).1 = throughFirst stop lx.items := by
  rw [pull_eq]
  exact List.take_of_length_le (Nat.le_trans (length_throughFirst_le stop _) lx.length_items_le)

/-- Pulling up to the first error is not cut short: the error is the last item. -/
theorem throughFirst_isError_items (lx : Lexer) : throughFirst Item.isError lx.items = lx.items := by
  generalize his : lx.items = is
  induction is generalizing lx with
  | nil => rfl
  | cons i is ih =>
    rcases hnext : lx.next with ⟨_ | j, lx'⟩
    · rw [(items_of_next_none hnext).1] at his
      cases his
    · rw [items_of_next_some hnext] at his
      obtain ⟨rfl, hrest⟩ := List.cons.inj his
      cases j with
      | token t => simpa [throughFirst, Item.isError] using ih lx' hrest
      | error e =>
        rw [items_of_next_error hnext] at hrest
        simp [throughFirst, ← hrest]

theorem pull_isError_eq (n : Nat) (lx : Lexer) : (lx.pull Item.isError n).1 = lx.items.take n := by
  rw [pull_eq, throughFirst_isError_items]

theorem take_eq (lx : Lexer) (n : Nat) : (lx.take n).1 = tokensOf (lx.items.take n) := by
  rw [← pull_isError_eq]
  rfl

end Lexer

/-! ### Steps on a lexer -/

/-- What a search for a token of kind `k` stops at: such a token, or an error. -/
def Item.endsSearch (k : Kind) (i : Item) : Bool := i.isError || i.isKind k

theorem Lexer.find?_eq (lx : Lexer) (k : Kind) : (lx.find? k).1 =
    (lx.pull (Item.endsSearch k) lx.calls).1.getLast?.filter (Item.endsSearch k) := rfl

namespace Command

/-- The number of the lexer that a step works on, and what the step answers and leaves of this lexer. A step that opens
    a lexer works on none. -/
def use? : Command → Option (Nat × (Lexer → Answer × Lexer))
  | .create .. | .clone _ => none
  | .file i => some (i, fun lx => (.file lx.file, lx))
  | .next i => some (i, fun lx => (.item lx.next.1, lx.next.2))
  | .take i n => some (i, fun lx => (.tokens (lx.take n).1, (lx.take n).2))
  | .collect i => some (i, fun lx => (.tokens lx.collect.1, lx.collect.2))
  | .find i k => some (i, fun lx => (.item (lx.find? k).1, (lx.find? k).2))

/-- The items that a step takes from the lexer that it works on. -/
def taken (lx : Lexer) : Command → List Item
  | .create .. | .clone _ | .file _ => []
  | .next _ => lx.next.1.toList
  | .take _ n => (lx.pull Item.isError n).1
  | .collect _ => (lx.pull Item.isError lx.calls).1
  | .find _ k => (lx.pull (Item.endsSearch k) lx.calls).1

/-- What a step answers on a lexer of the file `name` with the items `left`, and which of them it takes. `next` takes the
    first one. `take` takes as many as its limit allows, and `collect` takes all; they answer the tokens, or the error
    among them. `find` takes the items up to the first one that ends its search, or all, and answers this one alone. -/
inductive Serves (name : Text) (left : List Item) : Command → Answer → List Item → Prop
  | file (i : Nat) : Serves name left (.file i) (.file name) []
  | next (i : Nat) : Serves name left (.next i) (.item left.head?) (left.take 1)
  | take (i n : Nat) : Serves name left (.take i n) (.tokens (tokensOf (left.take n))) (left.take n)
  | collect (i : Nat) : Serves name left (.collect i) (.tokens (tokensOf left)) left
  | found (i : Nat) {k : Kind} {skipped rest : List Item} {x : Item} (hleft : left = skipped ++ x :: rest)
      (hskipped : ∀ y ∈ skipped, y.endsSearch k = false) (hx : x.endsSearch k = true) :
      Serves name left (.find i k) (.item (some x)) (skipped ++ [x])
  | missed (i : Nat) {k : Kind} (hleft : ∀ y ∈ left, y.endsSearch k = false) :
      Serves name left (.find i k) (.item none) left

variable {c : Command} {i : Nat} {f : Lexer → Answer × Lexer}

theorem opens_or_uses (c : Command) : (∃ rules source file?, c = .create rules source file?) ∨ (∃ i, c = .clone i) ∨
    ∃ i f, c.use? = some (i, f) := by
  cases c with
  | create rules source file? => exact Or.inl ⟨rules, source, file?, rfl⟩
  | clone i => exact Or.inr (Or.inl ⟨i, rfl⟩)
  | file | next | take | collect | find => exact Or.inr (Or.inr ⟨_, _, rfl⟩)

/-- What a step takes is what its calls of `next` hand out. -/
theorem pulls_taken (h : c.use? = some (i, f)) (lx : Lexer) : lx.Pulls (c.taken lx) (f lx).2 := by
  cases c with
  | create | clone => cases h
  | file =>
    cases h
    exact .refl
  | next =>
    cases h
    simp only [taken]
    rcases hnext : lx.next with ⟨_ | i, lx'⟩
    · exact .none hnext .refl
    · exact .some hnext .refl
  | take | collect | find =>
    cases h
    exact Lexer.pulls_pull _ _ lx

theorem serves_taken (h : c.use? = some (i, f)) (lx : Lexer) : c.Serves lx.file lx.items (f lx).1 (c.taken lx) := by
  cases c with
  | create | clone => cases h
  | file i =>
    cases h
    exact .file i
  | next i =>
    cases h
    simp only [taken, lx.next_eq_head?, ← List.take_one]
    exact .next i
  | take i n =>
    cases h
    simp only [taken, lx.take_eq, Lexer.pull_isError_eq]
    exact .take i n
  | collect i =>
    cases h
    simp only [taken, lx.collect_eq_take, lx.take_eq, Lexer.pull_isError_eq, List.take_of_length_le lx.length_items_le]
    exact .collect i
  | find i k =>
    cases h
    simp only [taken, lx.find?_eq, Lexer.pull_calls_eq]
    rcases throughFirst_cases (Item.endsSearch k) lx.items with
      ⟨skipped, x, rest, hleft, hskipped, hx, h⟩ | ⟨hnone, h⟩
    · rw [h, List.getLast?_concat, Option.filter_some, if_pos hx]
      exact .found i hleft hskipped hx
    · have hlast : lx.items.getLast?.filter (Item.endsSearch k) = none := by
        rw [Option.filter_eq_none_iff]
        intro y hy
        simp [hnone y (List.mem_of_getLast? hy)]
      rw [h, hlast]
      exact .missed i hnone

end Command

end Munch
