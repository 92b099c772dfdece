import Munch.Lexer.Pull
import Munch.Proofs.Growth

/-! The items of a source. They are derived from its characters alone: a blank is skipped, a token is cut off where
    its candidate ends, and a candidate that never ends is an error. Whatever way the items are taken from a lexer,
    they are the ones so derived. -/

namespace Munch

/-! ### Tokens of items -/

theorem tokensOf_map_token (ts : List Token) : tokensOf (ts.map Item.token) = .ok ts := by
  induction ts with
  | nil => rfl
  | cons t ts ih => simp [tokensOf, ih, Except.map]

theorem tokensOf_append_error (ts : List Token) (e : LexError) (is : List Item) :
    tokensOf (ts.map Item.token ++ .error e :: is) = .error e := by
  induction ts with
  | nil => rfl
  | cons t ts ih => simp [tokensOf, ih, Except.map]

/-- An item with its token changed by `g`, or its error by `h`. -/
def Item.map (g : Token → Token) (h : LexError → LexError) : Item → Item
  | .token t => .token (g t)
  | .error e => .error (h e)

theorem tokensOf_map (g : Token → Token) (h : LexError → LexError) (is : List Item) :
    tokensOf (is.map (Item.map g h)) = ((tokensOf is).map (List.map g)).mapError h := by
  induction is with
  | nil => rfl
  | cons i is ih =>
    cases i with
    | error e => rfl
    | token t =>
      simp only [List.map_cons, Item.map, tokensOf, ih]
      cases tokensOf is <;> rfl

theorem tokensOf_tokens_append (ts : List Token) (is : List Item) :
    tokensOf (ts.map Item.token ++ is) = (tokensOf is).map (ts ++ ·) := by
  induction ts with
  | nil => cases h : tokensOf is <;> simp [Except.map, h]
  | cons t ts ih =>
    simp only [List.map_cons, List.cons_append, tokensOf, ih]
    cases tokensOf is <;> rfl

/-- Items are tokens only, or tokens before a first error. -/
theorem exists_tokens (is : List Item) :
    (∃ ts : List Token, is = ts.map Item.token) ∨
      ∃ (ts : List Token) (e : LexError) (js : List Item), is = ts.map Item.token ++ .error e :: js := by
  induction is with
  | nil => exact Or.inl ⟨[], rfl⟩
  | cons i is ih =>
    cases i with
    | error e => exact Or.inr ⟨[], e, is, rfl⟩
    | token t =>
      rcases ih with ⟨ts, rfl⟩ | ⟨ts, e, js, rfl⟩
      · exact Or.inl ⟨t :: ts, rfl⟩
      · exact Or.inr ⟨t :: ts, e, js, rfl⟩

theorem tokensOf_eq_ok_iff {is : List Item} {ts : List Token} : tokensOf is = .ok ts ↔ is = ts.map Item.token := by
  constructor
  · intro h
    rcases exists_tokens is with ⟨us, rfl⟩ | ⟨us, e, js, rfl⟩
    · rw [tokensOf_map_token] at h
      cases h
      rfl
    · rw [tokensOf_append_error] at h
      cases h
  · rintro rfl
    exact tokensOf_map_token ts

/-- The error among items is the first one, behind tokens only. -/
theorem tokensOf_eq_error_iff {is : List Item} {e : LexError} : tokensOf is = .error e ↔
    ∃ n : Nat, is[n]? = some (Item.error e) ∧ ∀ i < n, ∃ t, is[i]? = some (Item.token t) := by
  induction is with
  | nil => simp [tokensOf]
  | cons j is ih =>
    cases j with
    | error e' =>
      constructor
      · intro h
        cases h
        exact ⟨0, rfl, fun i hi => absurd hi (Nat.not_lt_zero i)⟩
      · rintro ⟨n, hn, hbefore⟩
        cases n with
        | zero =>
          cases hn
          rfl
        | succ n =>
          obtain ⟨t, ht⟩ := hbefore 0 (Nat.succ_pos n)
          cases ht
    | token t =>
      have hmap : tokensOf (.token t :: is) = .error e ↔ tokensOf is = .error e := by
        cases h : tokensOf is <;> simp [tokensOf, h, Except.map]
      rw [hmap, ih]
      constructor
      · rintro ⟨n, hn, hbefore⟩
        refine ⟨n + 1, hn, fun i hi => ?_⟩
        cases i with
        | zero => exact ⟨t, rfl⟩
        | succ i => exact hbefore i (Nat.lt_of_succ_lt_succ hi)
      · rintro ⟨n, hn, hbefore⟩
        cases n with
        | zero => cases hn
        | succ n => exact ⟨n, hn, fun i hi => hbefore (i + 1) (Nat.succ_lt_succ hi)⟩

/-! ### Blanks -/

/-- The characters that separate tokens: space, tab, vertical tab, form feed and carriage return. -/
def blanks : List Char := [' ', '\t', '\x0b', '\x0c', '\r']

theorem mem_blanks_iff {c : Char} : c ∈ blanks ↔ isBlank c = true := by
  simp [blanks, isBlank, or_assoc]

theorem not_mem_blanks_iff {c : Char} : c ∉ blanks ↔ isBlank c = false := by
  rw [mem_blanks_iff, Bool.not_eq_true]

/-! ### Derivations -/

/-- A lexer between tokens, before the characters `cs` at position `p`, hands out these items. -/
inductive Lexes (r : RuleTable) (file : Text) : Nat → Text → List Item → Prop
  | nil {p : Nat} : Lexes r file p [] []
  | blank {p : Nat} {c : Char} {cs : Text} {is : List Item} (hc : isBlank c = true) (h : Lexes r file (p + 1) cs is) :
      Lexes r file p (c :: cs) is
  | token {p : Nat} {c : Char} {v rest : Text} {k : Kind} {is : List Item} (hc : isBlank c = false)
      (hcut : r.Cuts c v k rest.head?) (h : Lexes r file (p + v.length + 1) rest is) :
      Lexes r file p (c :: (v ++ rest)) (.token ⟨k, c :: v, ⟨p, p + v.length⟩⟩ :: is)
  | error {p : Nat} {c : Char} {v : Text} (hc : isBlank c = false) (hs : r.Stuck c v) :
      Lexes r file p (c :: v) [.error ⟨c :: v, ⟨p, p + v.length⟩, file⟩]

theorem exists_lexes (r : RuleTable) (file : Text) : ∀ (p : Nat) (cs : Text), ∃ is, Lexes r file p cs is
  | _, [] => ⟨[], .nil⟩
  | p, c :: cs => by
    cases hc : isBlank c with
    | true =>
      obtain ⟨is, h⟩ := exists_lexes r file (p + 1) cs
      exact ⟨is, .blank hc h⟩
    | false =>
      rcases r.cuts_or_stuck c cs with ⟨v, rest, k, hcs, hcut⟩ | hs
      · have hlt : rest.length < (c :: cs).length := by
          rw [hcs, List.length_cons, List.length_append]
          omega
        obtain ⟨is, h⟩ := exists_lexes r file (p + v.length + 1) rest
        rw [hcs]
        exact ⟨_, .token hc hcut h⟩
      · exact ⟨_, .error hc hs⟩
termination_by _ cs => cs.length

theorem Lexes.length_le {r : RuleTable} {file : Text} {p : Nat} {cs : Text} {is : List Item}
    (h : Lexes r file p cs is) : is.length ≤ cs.length := by
  induction h with
  | nil => simp
  | blank _ _ ih => exact Nat.le_succ_of_le ih
  | token _ _ _ ih =>
    simp only [List.length_cons, List.length_append]
    omega
  | error => simp

/-- The text of a token alone is read as this token: it ends the source where its lookahead ended it. -/
theorem RuleTable.Cuts.lexes {r : RuleTable} {c : Char} {v : Text} {k : Kind} {next? : Option Char}
    (hcut : r.Cuts c v k next?) (hc : isBlank c = false) (file : Text) (p : Nat) :
    Lexes r file p (c :: v) [.token ⟨k, c :: v, ⟨p, p + v.length⟩⟩] := by
  have h : Lexes r file p (c :: (v ++ [])) [.token ⟨k, c :: v, ⟨p, p + v.length⟩⟩] := .token hc hcut.of_none .nil
  rwa [List.append_nil] at h

/-- Each item is the first one of a derivation from where it stands. -/
theorem Lexes.exists_drop {r : RuleTable} {file : Text} {p : Nat} {cs : Text} {is : List Item}
    (h : Lexes r file p cs is) {i : Item} (hi : i ∈ is) :
    ∃ n c v js, cs.drop n = c :: v ∧ isBlank c = false ∧ Lexes r file (p + n) (c :: v) (i :: js) := by
  induction h with
  | nil => cases hi
  | blank _ _ ih =>
    obtain ⟨n, c, v, js, hdrop, hc, hlexes⟩ := ih hi
    exact ⟨n + 1, c, v, js, hdrop, hc, by rwa [Nat.add_comm n, ← Nat.add_assoc]⟩
  | @token p c v rest k is hc hcut h ih =>
    rcases List.mem_cons.mp hi with rfl | hi
    · exact ⟨0, c, v ++ rest, is, rfl, hc, .token hc hcut h⟩
    · obtain ⟨n, d, u, js, hdrop, hd, hlexes⟩ := ih hi
      refine ⟨v.length + 1 + n, d, u, js, ?_, hd, by rwa [← Nat.add_assoc, ← Nat.add_assoc]⟩
      rw [← List.drop_drop, List.drop_succ_cons, List.drop_left, hdrop]
  | @error p c v hc hs =>
    obtain rfl := List.mem_singleton.mp hi
    exact ⟨0, c, v, [], rfl, hc, .error hc hs⟩

/-- Each token was cut off where it stands. -/
theorem Lexes.exists_cuts {r : RuleTable} {file : Text} {p : Nat} {cs : Text} {is : List Item}
    (h : Lexes r file p cs is) {t : Token} (ht : .token t ∈ is) :
    ∃ i c v rest, cs.drop i = c :: (v ++ rest) ∧ isBlank c = false ∧ r.Cuts c v t.kind rest.head? ∧
      t.value = c :: v ∧ t.span = ⟨p + i, p + i + v.length⟩ := by
  obtain ⟨n, c, v, js, hdrop, hc, hlexes⟩ := h.exists_drop ht
  cases hlexes with
  | blank hblank _ =>
    rw [hc] at hblank
    cases hblank
  | token _ hcut _ => exact ⟨n, c, _, _, hdrop, hc, hcut, rfl, rfl⟩

/-- Where an error stands, no token can be cut off from what is left. -/
theorem Lexes.exists_stuck {r : RuleTable} {file : Text} {p : Nat} {cs : Text} {is : List Item}
    (h : Lexes r file p cs is) {e : LexError} (he : .error e ∈ is) :
    ∃ i c v, cs.drop i = c :: v ∧ isBlank c = false ∧ r.Stuck c v ∧ e = ⟨c :: v, ⟨p + i, p + i + v.length⟩, file⟩ := by
  obtain ⟨n, c, v, js, hdrop, hc, hlexes⟩ := h.exists_drop he
  cases hlexes with
  | blank hblank _ =>
    rw [hc] at hblank
    cases hblank
  | error _ hs => exact ⟨n, c, v, hdrop, hc, hs, rfl⟩

/-- What follows a token in its source. -/
theorem getElem?_of_drop {source v rest : Text} {i : Nat} {c : Char} (h : source.drop i = c :: (v ++ rest)) :
    source[i + v.length + 1]? = rest.head? := by
  rw [Nat.add_assoc, ← List.getElem?_drop, h, List.getElem?_cons_succ, List.getElem?_append_right (Nat.le_refl _),
    Nat.sub_self, List.head?_eq_getElem?]

/-! ### Calls of `next` -/

namespace Lexer
variable {r : RuleTable} {file : Text} {p : Nat} {cs v rest : Text} {c : Char} {k : Kind} {is : List Item}

theorem next_nil : (between r file p []).next = (none, between r file p []) := rfl

theorem next_blank (hc : isBlank c = true) :
    (between r file p (c :: cs)).next = (between r file (p + 1) cs).next := by
  simp [next_of_not_failed, between, scan_blank hc]

theorem next_of_cuts (hc : isBlank c = false) (hcut : r.Cuts c v k rest.head?) :
    (between r file p (c :: (v ++ rest))).next =
      (some (.token ⟨k, c :: v, ⟨p, p + v.length⟩⟩), between r file (p + v.length + 1) rest) := by
  simpa [next_of_not_failed, between] using scan_of_ends (w := []) file p (by simp [hc]) hcut.grows hcut.ends

theorem next_of_stuck (hc : isBlank c = false) (hs : r.Stuck c v) :
    (between r file p (c :: v)).next = (some (.error ⟨c :: v, ⟨p, p + v.length⟩, file⟩),
      ⟨r, file, p, (c :: v).dropLast, [(c :: v).getLast (List.cons_ne_nil c v)], true⟩) := by
  simpa [next_of_not_failed, between] using scan_of_grows (w := []) file p (by simp [hc]) hs.grows hs.unclassified

theorem next_of_rest_eq_nil {lx : Lexer} (h : lx.rest = []) : lx.next = (none, lx) := by
  obtain ⟨rules, file, start, candidate, rest, failed⟩ := lx
  obtain rfl : rest = [] := h
  cases failed <;> rfl

/-! ### Taking items -/

variable {stop : Item → Bool}

theorem pull_of_next_none {lx lx' : Lexer} (h : lx.next = (none, lx')) (n : Nat) : (lx.pull stop n).1 = [] := by
  cases n with
  | zero => rfl
  | succ n => simp [pull_succ, h]

theorem pull_congr {lx lx' : Lexer} (h : lx.next = lx'.next) (n : Nat) : (lx.pull stop n).1 = (lx'.pull stop n).1 := by
  cases n with
  | zero => rfl
  | succ n => simp only [pull_succ, h]

/-- Pulling that no token stops takes the items in their order, as many as it is asked for. -/
theorem pull_of_lexes (hstop : ∀ t, stop (.token t) = false) (h : Lexes r file p cs is) (n : Nat) :
    ((between r file p cs).pull stop n).1 = is.take n := by
  induction h generalizing n with
  | nil => simpa using pull_of_next_none next_nil n
  | blank hc _ ih => rw [pull_congr (next_blank hc), ih]
  | token hc hcut _ ih =>
    cases n with
    | zero => rfl
    | succ n => simp [pull_succ, next_of_cuts hc hcut, hstop, ih]
  | error hc hs =>
    cases n with
    | zero => rfl
    | succ n =>
      have hfailed (lx : Lexer) (hf : lx.failed = true) : (lx.pull stop n).1 = [] :=
        pull_of_next_none (next_of_failed hf) n
      simp only [pull_succ, next_of_stuck hc hs]
      split
      · simp
      · simp [hfailed]

theorem length_le_calls (h : Lexes r file p cs is) : is.length ≤ (between r file p cs).calls :=
  Nat.le_succ_of_le h.length_le

theorem pull_calls_of_lexes (hstop : ∀ t, stop (.token t) = false) (h : Lexes r file p cs is) :
    ((between r file p cs).pull stop (between r file p cs).calls).1 = is := by
  rw [pull_of_lexes hstop h, List.take_of_length_le (length_le_calls h)]

theorem items_of_lexes (h : Lexes r file p cs is) : (between r file p cs).items = is :=
  pull_calls_of_lexes (fun _ => rfl) h

theorem collect_of_lexes (h : Lexes r file p cs is) : (between r file p cs).collect.1 = tokensOf is := by
  rw [collect_eq_take, take_eq_pull, pull_calls_of_lexes (fun _ => rfl) h]

end Lexer

section
variable {r : RuleTable} {file : Text} {p : Nat} {cs : Text} {is js : List Item}

theorem Lexes.unique (h : Lexes r file p cs is) (h' : Lexes r file p cs js) : is = js := by
  rw [← Lexer.items_of_lexes h, Lexer.items_of_lexes h']

theorem lexes_items (r : RuleTable) (source : Text) (file? : Option Text) :
    Lexes r (file?.getD Lexer.unnamed) 0 source (Lexer.ofSource r source file?).items := by
  obtain ⟨is, h⟩ := exists_lexes r (file?.getD Lexer.unnamed) 0 source
  rw [Lexer.ofSource_eq_between, Lexer.items_of_lexes h]
  exact h

theorem tokenize_of_lexes {source : Text} {file? : Option Text}
    (h : Lexes r (file?.getD Lexer.unnamed) 0 source is) : tokenize r source file? = tokensOf is := by
  rw [tokenize_eq_collect, Lexer.ofSource_eq_between, Lexer.collect_of_lexes h]

/-- The answer for a whole source is read off the items of its lexer. -/
theorem tokenize_eq_tokensOf_items (r : RuleTable) (source : Text) (file? : Option Text) :
    tokenize r source file? = tokensOf (Lexer.ofSource r source file?).items :=
  tokenize_of_lexes (lexes_items r source file?)

theorem exists_stuck_of_tokenize {source : Text} {file? : Option Text} {e : LexError}
    (h : tokenize r source file? = .error e) : ∃ i c v, source.drop i = c :: v ∧ isBlank c = false ∧ r.Stuck c v ∧
      e = ⟨c :: v, ⟨i, i + v.length⟩, file?.getD Lexer.unnamed⟩ := by
  obtain ⟨n, hn, -⟩ := tokensOf_eq_error_iff.mp (tokenize_eq_tokensOf_items r source file? ▸ h)
  obtain ⟨i, c, v, hdrop, hc, hs, he⟩ := (lexes_items r source file?).exists_stuck (List.mem_of_getElem? hn)
  rw [Nat.zero_add] at he
  exact ⟨i, c, v, hdrop, hc, hs, he⟩

end

end Munch
