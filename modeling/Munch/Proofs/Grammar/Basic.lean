import Munch.Proofs.Standard

/-! The grammar of the language, as a second lexer that has no candidates and knows of the rules only the reserved
    words. At a character that is not skipped it looks at what follows and says at once of which kind the token is and
    how far it reaches. Lengths count the characters after the first one. -/

namespace Munch.Grammar

/-- The length of the longest run of characters of `p` at the start of a text. -/
def run (p : Char → Bool) (cs : Text) : Nat := (cs.takeWhile p).length

/-- The length of a text up to and with the first character that closes it. Whether it does depends on the character
    before it, which is `prev` for the first one. -/
def upTo (closes : Char → Char → Bool) (prev : Char) : Text → Option Nat
  | [] => none
  | c :: cs => if closes prev c then some 1 else (upTo closes c cs).map (· + 1)

/-! ### Tokens of several characters -/

/-- A word is a run of letters, digits and underscores, but one that begins with `true` or `false` is cut before the
    letter that would make it a truth value. -/
def word (c : Char) (cs : Text) : Nat :=
  if ['t', 'r', 'u', 'e'].isPrefixOf (c :: cs) then 2
  else if ['f', 'a', 'l', 's', 'e'].isPrefixOf (c :: cs) then 3
  else run isWordChar cs

/-- The kind of a word: it is reserved or not. -/
def wordKind (w : Text) : Kind := if w ∈ RuleTable.standard.keywords then .keyword else .identifier

/-! An underscore counts as a digit of every radix. -/

def binaryDigits : List Char := ['0', '1', '_']

def octalDigits : List Char := ['0', '1', '2', '3', '4', '5', '6', '7', '_']

def decimalDigits : List Char := ['0', '1', '2', '3', '4', '5', '6', '7', '8', '9', '_']

def hexadecimalDigits : List Char :=
  ['0', '1', '2', '3', '4', '5', '6', '7', '8', '9', 'a', 'b', 'c', 'd', 'e', 'f', 'A', 'B', 'C', 'D', 'E', 'F', '_']

/-- What may follow the point of a fraction. -/
def isFractional (c : Char) : Bool := decimalDigits.contains c || c == 'E' || c == '+'

/-- Decimal digits, and a point with a fractional part if there is one. -/
def decimal (cs : Text) : Nat :=
  if (cs.drop (run decimalDigits.contains cs)).head? = some '.' then
    run decimalDigits.contains cs + 1 + run isFractional (cs.drop (run decimalDigits.contains cs + 1))
  else run decimalDigits.contains cs

/-- A numeral after its first character: the fractional part after a point, the digits of a radix after its mark, or
    the rest of a decimal numeral. -/
def numeral (c : Char) (cs : Text) : Nat :=
  if c = '.' then run isFractional cs
  else if c = '0' ∧ cs.head? = some 'b' then 1 + run binaryDigits.contains cs.tail
  else if c = '0' ∧ cs.head? = some 'o' then 1 + run octalDigits.contains cs.tail
  else if c = '0' ∧ cs.head? = some 'x' then 1 + run hexadecimalDigits.contains cs.tail
  else decimal cs

/-- A literal after its first bound: up to the next one that no backslash stands before, and all bounds directly after
    that one. -/
def quoted (bound : Char) (cs : Text) : Option Nat :=
  (upTo (fun prev c => prev != '\\' && c == bound) bound cs).map fun n => n + run (· == bound) (cs.drop n)

/-- A comment after `//`: up to the first newline, and all newlines directly after that one. -/
def lineComment (cs : Text) : Option Nat :=
  (upTo (fun _ c => c == '\n') '/' cs).map fun n => n + run (· == '\n') (cs.drop n)

/-- A comment after its opener `/*`: up to the first slash after a star, which may be the star of the opener. -/
def blockComment (cs : Text) : Option Nat := upTo (fun prev c => prev == '*' && c == '/') '*' cs

/-! ### Texts -/

/-- The kind of the token that begins with `c`, and the number of its characters among those after `c`; or `none`
    where no token begins. -/
def lexeme (c : Char) (cs : Text) : Option (Kind × Nat) :=
  if c = '\n' then some (.newline, 0)
  else if c.isAlpha then some (wordKind (c :: cs.take (word c cs)), word c cs)
  else if c.isDigit ∨ c = '_' ∨ c = '.' then some (.literal, numeral c cs)
  else if c = '\'' ∨ c = '\x60' then (quoted c cs).map fun n => (.literal, n)
  else if c = '/' ∧ cs.head? = some '/' then (lineComment cs.tail).map fun n => (.comment, n + 1)
  else if c = '/' ∧ cs.head? = some '*' then (blockComment cs.tail).map fun n => (.comment, n + 1)
  else if c = ':' ∧ cs.head? = some '=' then some (.operator, 1)
  else if c ∈ ['=', '+', '-', '*', '/'] then some (.operator, 0)
  else if c ∈ ['(', ')', '\x7b', '\x7d', ','] then some (.breaker, 0)
  else none

/-- The tokens of a text that starts at position `p`, or the error at the first place where no token begins. -/
def tokens (file : Text) (p : Nat) : Text → Except LexError (List Token)
  | [] => .ok []
  | c :: cs =>
    if c ∈ [' ', '\t', '\x0b', '\x0c', '\r'] then tokens file (p + 1) cs
    else match lexeme c cs with
      | none => .error ⟨c :: cs, ⟨p, p + cs.length⟩, file⟩
      | some (k, n) =>
        let v := cs.take n
        (tokens file (p + v.length + 1) (cs.drop n)).map (⟨k, c :: v, ⟨p, p + v.length⟩⟩ :: ·)
termination_by cs => cs.length
decreasing_by all_goals (simp only [List.length_cons, List.length_drop]; omega)

/-! ### Digits -/

variable {c : Char}

theorem mem_of_le_of_le {a b : Char} (ha : a ≤ c) (hb : c ≤ b) :
    c ∈ (List.range' a.toNat (b.toNat + 1 - a.toNat)).map Char.ofNat := by
  have hto : a.toNat ≤ c.toNat ∧ c.toNat ≤ b.toNat := ⟨ha, hb⟩
  exact List.mem_map.mpr ⟨c.toNat, List.mem_range'_1.mpr (by omega), Char.ofNat_toNat c⟩

theorem mem_binaryDigits : c ∈ binaryDigits ↔ Numeral.isBinaryDigit c = true := by
  simp [binaryDigits, Numeral.isBinaryDigit, or_assoc]

theorem mem_octalDigits : c ∈ octalDigits ↔ Numeral.isOctalDigit c = true := by
  have hall : octalDigits.all Numeral.isOctalDigit = true := by decide
  refine ⟨List.all_eq_true.mp hall c, fun h => ?_⟩
  simp only [Numeral.isOctalDigit, Bool.or_eq_true, Bool.and_eq_true, decide_eq_true_eq, beq_iff_eq] at h
  rcases h with ⟨hfrom, hto⟩ | rfl
  · exact List.mem_append_left ['_'] (mem_of_le_of_le hfrom hto)
  · decide

theorem mem_decimalDigits : c ∈ decimalDigits ↔ Numeral.isDecimalDigit c = true := by
  have hall : decimalDigits.all Numeral.isDecimalDigit = true := by decide
  refine ⟨List.all_eq_true.mp hall c, fun h => ?_⟩
  simp only [Numeral.isDecimalDigit, Char.isDigit, Bool.or_eq_true, Bool.and_eq_true, decide_eq_true_eq, beq_iff_eq] at h
  rcases h with ⟨hfrom, hto⟩ | rfl
  · exact List.mem_append_left ['_'] (mem_of_le_of_le hfrom hto)
  · decide

theorem mem_hexadecimalDigits : c ∈ hexadecimalDigits ↔ Numeral.isHexadecimalDigit c = true := by
  have hall : hexadecimalDigits.all Numeral.isHexadecimalDigit = true := by decide
  refine ⟨List.all_eq_true.mp hall c, fun h => ?_⟩
  simp only [Numeral.isHexadecimalDigit, Char.isDigit, Bool.or_eq_true, Bool.and_eq_true, decide_eq_true_eq, beq_iff_eq] at h
  have hsplit : hexadecimalDigits =
      decimalDigits.dropLast ++ ['a', 'b', 'c', 'd', 'e', 'f'] ++ ['A', 'B', 'C', 'D', 'E', 'F'] ++ ['_'] := rfl
  simp only [hsplit, List.mem_append]
  rcases h with ((⟨hfrom, hto⟩ | ⟨hfrom, hto⟩) | ⟨hfrom, hto⟩) | rfl
  · exact Or.inl (Or.inl (Or.inl (mem_of_le_of_le hfrom hto)))
  · exact Or.inl (Or.inl (Or.inr (mem_of_le_of_le hfrom hto)))
  · exact Or.inl (Or.inr (mem_of_le_of_le hfrom hto))
  · decide

theorem contains_eq {ds : List Char} {p : Char → Bool} (h : ∀ {c}, c ∈ ds ↔ p c = true) : ds.contains = p := by
  funext c
  rw [Bool.eq_iff_iff, List.contains_iff_mem]
  exact h

theorem isFractional_eq (c : Char) : isFractional c = (Numeral.isDecimalDigit c || c == 'E' || c == '+') := by
  rw [isFractional, contains_eq mem_decimalDigits]

/-! ### Runs -/

section
variable {p : Char → Bool} {closes : Char → Char → Bool} {prev : Char}

theorem exists_run (p : Char → Bool) (cs : Text) : ∃ u rest, cs = u ++ rest ∧ run p cs = u.length ∧
    (∀ d ∈ u, p d = true) ∧ ∀ d, rest.head? = some d → p d = false := by
  refine ⟨cs.takeWhile p, cs.dropWhile p, List.takeWhile_append_dropWhile.symm, rfl, ?_, fun d hd => ?_⟩
  · exact List.all_eq_true.mp List.all_takeWhile
  · have := List.head?_dropWhile_not p cs
    rw [hd] at this
    simpa using this

/-- A text that is closed splits at the first character that closes it. -/
theorem exists_of_upTo {cs : Text} {n : Nat} (h : upTo closes prev cs = some n) :
    ∃ a x b, cs = a ++ x :: b ∧ n = a.length + 1 ∧ closes (a.getLastD prev) x = true ∧
      ∀ u y t, a = u ++ y :: t → closes (u.getLastD prev) y = false := by
  induction cs generalizing prev n with
  | nil => cases h
  | cons c cs ih =>
    cases hc : closes prev c with
    | true =>
      simp only [upTo, hc, ↓reduceIte, Option.some.injEq] at h
      exact ⟨[], c, cs, rfl, h.symm, hc, by simp⟩
    | false =>
      simp only [upTo, hc, Bool.false_eq_true, ↓reduceIte, Option.map_eq_some_iff] at h
      obtain ⟨m, hm, rfl⟩ := h
      obtain ⟨a, x, b, rfl, rfl, hx, hfirst⟩ := ih hm
      refine ⟨c :: a, x, b, rfl, rfl, by rwa [List.getLastD_cons], fun u y t hu => ?_⟩
      cases u with
      | nil =>
        cases hu
        exact hc
      | cons d u =>
        simp only [List.cons_append, List.cons.injEq] at hu
        obtain ⟨rfl, rfl⟩ := hu
        rw [List.getLastD_cons]
        exact hfirst u y t rfl

/-- A text that nothing closes has no character that closes it. -/
theorem closes_of_upTo_eq_none {cs u t : Text} {y : Char} (h : upTo closes prev cs = none) (hcs : cs = u ++ y :: t) :
    closes (u.getLastD prev) y = false := by
  induction cs generalizing prev u with
  | nil => simp at hcs
  | cons c cs ih =>
    cases hc : closes prev c with
    | true => simp [upTo, hc] at h
    | false =>
      simp only [upTo, hc, Bool.false_eq_true, ↓reduceIte, Option.map_eq_none_iff] at h
      cases u with
      | nil =>
        cases hcs
        exact hc
      | cons d u =>
        simp only [List.cons_append, List.cons.injEq] at hcs
        obtain ⟨rfl, rfl⟩ := hcs
        rw [List.getLastD_cons]
        exact ih h rfl

end

end Munch.Grammar
