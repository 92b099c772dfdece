import Munch.Proofs.Stream

/-! Derivations one after the other. Where a source starts only moves its items, and the items of a source go before
    those of what follows it, unless its last token reaches to its end and goes on with the next character. -/

namespace Munch

/-! ### Moving items -/

def Span.shift (n : Nat) (s : Span) : Span := ⟨s.first + n, s.last + n⟩

def Token.shift (n : Nat) (t : Token) : Token := { t with span := t.span.shift n }

def LexError.shift (n : Nat) (e : LexError) : LexError := { e with span := e.span.shift n }

/-- An item whose positions count from a place `n` characters earlier. -/
def Item.shift (n : Nat) : Item → Item := Item.map (Token.shift n) (LexError.shift n)

section
variable {r : RuleTable} {file file' : Text} {p : Nat} {cs : Text} {is : List Item}

theorem Lexes.shift (h : Lexes r file p cs is) (n : Nat) : Lexes r file (p + n) cs (is.map (Item.shift n)) := by
  induction h with
  | nil => exact .nil
  | blank hc _ ih => exact .blank hc (by rwa [Nat.add_right_comm] at ih)
  | @token p c v rest k is hc hcut _ ih =>
    rw [Nat.add_right_comm, Nat.add_right_comm p] at ih
    simpa [Item.shift, Item.map, Token.shift, Span.shift, Nat.add_right_comm] using Lexes.token hc hcut ih
  | @error p c v hc hs =>
    simpa [Item.shift, Item.map, LexError.shift, Span.shift, Nat.add_right_comm] using Lexes.error (p := p + n) hc hs

/-! ### Derivations of texts put together -/

/-- The items of a text that follows tokens come after these tokens, when none of them reaches to the first character
    of the text and goes on with it. -/
theorem Lexes.append {rest : Text} {ts : List Token} (h : Lexes r file p cs (ts.map Item.token))
    (hlast : ∀ t ∈ ts, t.span.last + 1 = p + cs.length → ∀ d, rest.head? = some d →
      r.growsTo t.kind (t.value ++ [d]) = false)
    (hrest : Lexes r file' (p + cs.length) rest is) : Lexes r file' p (cs ++ rest) (ts.map Item.token ++ is) := by
  generalize hjs : ts.map Item.token = js at h
  induction h generalizing ts with
  | nil => simpa using hrest
  | @blank p c cs _ hc _ ih =>
    have hlen : p + (c :: cs).length = p + 1 + cs.length := by
      rw [List.length_cons]
      omega
    rw [hlen] at hlast hrest
    exact .blank hc (ih hlast hrest hjs)
  | error => cases ts <;> cases hjs
  | @token p c v tail k _ hc hcut _ ih =>
    cases ts with
    | nil => cases hjs
    | cons t ts =>
      simp only [List.map_cons, List.cons.injEq, Item.token.injEq] at hjs
      obtain ⟨rfl, rfl⟩ := hjs
      have hlen : p + (c :: (v ++ tail)).length = p + v.length + 1 + tail.length := by
        rw [List.length_cons, List.length_append]
        omega
      rw [hlen] at hlast hrest
      have hcut' : r.Cuts c v k (tail ++ rest).head? := by
        cases tail with
        | nil => exact hcut.of_growsTo (hlast _ List.mem_cons_self rfl)
        | cons d tail => exact hcut
      have hafter := ih (fun u hu => hlast u (List.mem_cons_of_mem _ hu)) hrest rfl
      simpa using Lexes.token hc hcut' hafter

/-! ### Derivations taken apart -/

theorem Lexes.exists_first {t : Token} (h : Lexes r file p cs (.token t :: is)) :
    ∃ a rest, cs = a ++ rest ∧ p + a.length = t.span.last + 1 ∧ Lexes r file p a [.token t] ∧
      Lexes r file (p + a.length) rest is ∧ ∀ d, rest.head? = some d → r.growsTo t.kind (t.value ++ [d]) = false := by
  generalize hjs : Item.token t :: is = js at h
  induction h with
  | nil => cases hjs
  | @blank p c cs _ hc _ ih =>
    obtain ⟨a, rest, rfl, hlast, ha, hrest, hends⟩ := ih hjs
    have hlen : p + (c :: a).length = p + 1 + a.length := by
      rw [List.length_cons]
      omega
    refine ⟨c :: a, rest, rfl, by rw [hlen, hlast], .blank hc ha, ?_, hends⟩
    rwa [hlen]
  | @token p c v rest k _ hc hcut hrest _ =>
    cases hjs
    exact ⟨c :: v, rest, rfl, rfl, hcut.lexes hc file p, hrest, (RuleTable.endKind?_eq_some_iff.mp hcut.ends).2⟩
  | error => cases hjs

/-- The position that tokens read from `p` on lead to: one past the last of them, and `p` itself if there are none. -/
def reach (p : Nat) (ts : List Token) : Nat := (ts.getLast?.map fun t => t.span.last + 1).getD p

theorem reach_cons (p : Nat) (t : Token) (ts : List Token) : reach p (t :: ts) = reach (t.span.last + 1) ts := by
  rw [reach, reach, List.getLast?_cons]
  cases ts.getLast? <;> rfl

theorem reach_of_getLast? {ts : List Token} {t : Token} (ht : ts.getLast? = some t) : reach p ts = t.span.last + 1 := by
  rw [reach, ht, Option.map_some, Option.getD_some]

/-- The tokens that a derivation begins with are those of the text up to where they lead, and none of them goes on with
    the character there. The items after them are those of the rest. -/
theorem Lexes.split {ts : List Token} (h : Lexes r file p cs (ts.map Item.token ++ is)) :
    ∃ a rest, cs = a ++ rest ∧ p + a.length = reach p ts ∧ Lexes r file p a (ts.map Item.token) ∧
      Lexes r file (p + a.length) rest is ∧ ∀ t ∈ ts, t.span.last + 1 = p + a.length → ∀ d, rest.head? = some d →
        r.growsTo t.kind (t.value ++ [d]) = false := by
  induction ts generalizing p cs with
  | nil => exact ⟨[], cs, rfl, rfl, .nil, h, by simp⟩
  | cons t ts ih =>
    obtain ⟨a, _, rfl, hlast, hfirst, hafter, hends⟩ := h.exists_first
    have ha : Lexes r file p a ([t].map Item.token) := hfirst
    obtain ⟨b, rest, rfl, hreach, hb, hrest, hends'⟩ := ih hafter
    have hlen : p + (a ++ b).length = p + a.length + b.length := by rw [List.length_append, Nat.add_assoc]
    refine ⟨a ++ b, rest, (List.append_assoc a b rest).symm, ?_, ?_, ?_, ?_⟩
    · rw [hlen, hreach, reach_cons, hlast]
    · refine ha.append ?_ hb
      rintro u hu - d hd
      obtain rfl := List.mem_singleton.mp hu
      exact hends d (by rw [List.head?_append, hd, Option.some_or])
    · rwa [hlen]
    · rw [hlen]
      intro u hu hu' d hd
      rcases List.mem_cons.mp hu with rfl | hu
      · -- Only the last token reaches so far.
        obtain rfl : b = [] := List.length_eq_zero_iff.mp (by omega)
        exact hends d hd
      · exact hends' u hu hu' d hd

theorem Lexes.last_lt (h : Lexes r file p cs is) {t : Token} (ht : .token t ∈ is) : t.span.last < p + cs.length := by
  obtain ⟨i, c, v, rest, hdrop, -, -, -, hspan⟩ := h.exists_cuts ht
  have hlen := congrArg List.length hdrop
  simp only [List.length_drop, List.length_cons, List.length_append] at hlen
  rw [hspan]
  simp only
  omega

end

/-! ### Answers put together -/

theorem tokensOf_append_shift (ts : List Token) (is : List Item) (n : Nat) :
    tokensOf (ts.map Item.token ++ is.map (Item.shift n)) =
      ((tokensOf is).map fun us => ts ++ us.map (Token.shift n)).mapError (LexError.shift n) := by
  rw [tokensOf_tokens_append, Item.shift, tokensOf_map]
  cases tokensOf is <;> rfl

end Munch
