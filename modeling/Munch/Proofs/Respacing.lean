import Mathlib.Data.List.Chain
import Munch.Proofs.Spacing
import Munch.Proofs.Standard

/-! Respacing a source keeps its tokens. Under the standard rules no candidate goes on over a blank, so a token ends
    before any blank put after it, and where none is put the character after it is the one it ended at before. -/

namespace Munch

/-! ### Derivations and blanks -/

section
variable {r : RuleTable} {file : Text} {p : Nat} {cs : Text} {is : List Item}

theorem Lexes.append_blanks {b : Text} (hb : ∀ c ∈ b, c ∈ blanks) (h : Lexes r file (p + b.length) cs is) :
    Lexes r file p (b ++ cs) is := by
  induction b generalizing p with
  | nil => exact h
  | cons c b ih =>
    refine .blank (mem_blanks_iff.mp (hb c List.mem_cons_self)) (ih (fun d hd => hb d (List.mem_cons_of_mem _ hd)) ?_)
    rwa [Nat.add_assoc, Nat.add_comm 1]

theorem Lexes.value_ne_nil (h : Lexes r file p cs is) {t : Token} (ht : .token t ∈ is) : t.value ≠ [] := by
  obtain ⟨_, c, v, _, -, -, -, hvalue, -⟩ := h.exists_cuts ht
  exact hvalue ▸ List.cons_ne_nil c v

/-- A token that starts where its lexer stands starts with the next character. -/
theorem Lexes.exists_head {t : Token} (h : Lexes r file p cs (.token t :: is)) (hp : t.span.first = p) :
    ∃ d v, t.value = d :: v ∧ cs.head? = some d := by
  obtain ⟨i, c, v, rest, hdrop, -, -, hvalue, hspan⟩ := h.exists_cuts List.mem_cons_self
  obtain rfl : i = 0 := by
    rw [hspan] at hp
    exact Nat.add_eq_left.mp hp
  rw [List.drop_zero] at hdrop
  exact ⟨c, v, hvalue, by rw [hdrop, List.head?_cons]⟩

end

/-! ### Respaced derivations -/

/-- The token of the first pair and that of the second stand side by side, if the gap between them is empty. -/
def TouchingIfEmpty (x y : Token × Text) : Prop := x.2 = [] → x.1.span.last + 1 = y.1.span.first

/-- The cut of a token depends on its next character only up to blanks. -/
theorem RuleTable.Cuts.of_blank {c d : Char} {v : Text} {k : Kind} {next? : Option Char}
    (h : standard.Cuts c v k next?) (hd : isBlank d = true) : standard.Cuts c v k (some d) :=
  h.of_growsTo fun e he => by cases he; exact growsTo_append_blank hd

theorem Lexes.respaced {file file' : Text} {p q : Nat} {cs gap : Text} {ps : List (Token × Text)}
    (h : Lexes .standard file p cs ((ps.map Prod.fst).map Item.token)) (hgaps : BlankGaps gap ps)
    (htouch : ps.IsChain TouchingIfEmpty) :
    Lexes .standard file' q (spaced gap ps) ((placed q gap ps).map Item.token) := by
  generalize his : (ps.map Prod.fst).map Item.token = is at h
  induction h generalizing ps gap q with
  | nil =>
    obtain rfl : ps = [] := by simpa using his
    have hnil : Lexes .standard file' q (gap ++ []) [] := Lexes.append_blanks hgaps.1 .nil
    simpa [spaced, placed] using hnil
  | blank _ _ ih => exact ih hgaps htouch his
  | error => cases ps <;> cases his
  | @token p c v rest k is hc hcut hrest ih =>
    cases ps with
    | nil => cases his
    | cons x ps =>
      obtain ⟨t, g⟩ := x
      simp only [List.map_cons, List.cons.injEq, Item.token.injEq] at his
      obtain ⟨rfl, rfl⟩ := his
      -- The token is cut off as before: it is followed by a blank, by nothing, or by what followed it before.
      have hcut' : RuleTable.standard.Cuts c v k (spaced g ps).head? := by
        cases g with
        | cons d g =>
          rw [spaced_cons_gap, List.head?_cons]
          exact hcut.of_blank (mem_blanks_iff.mp (hgaps.2 _ List.mem_cons_self d List.mem_cons_self))
        | nil =>
          cases ps with
          | nil => exact hcut.of_none
          | cons y ps =>
            have hfirst : y.1.span.first = p + v.length + 1 := ((List.isChain_cons_cons.mp htouch).1 rfl).symm
            obtain ⟨d, w, hvalue, hhead⟩ := hrest.exists_head hfirst
            have hsame : (spaced [] (y :: ps)).head? = rest.head? := by
              rw [hhead]
              simp [spaced, hvalue]
            rwa [hsame]
      have hrest' := ih (q := q + gap.length + v.length + 1) hgaps.tail htouch.tail rfl
      refine Lexes.append_blanks hgaps.1 ?_
      simpa [placed, Nat.add_assoc] using Lexes.token hc hcut' hrest'

/-! ### Respaced sources -/

/-- However blanks are put before, between and after the tokens of a source, the text has the same tokens, each where
    its value now stands, provided that a gap is left empty only between tokens that stood side by side. -/
theorem tokenize_spaced {source gap : Text} {file? file?' : Option Text} {ps : List (Token × Text)}
    (h : tokenize .standard source file? = .ok (ps.map Prod.fst)) (hgaps : BlankGaps gap ps)
    (htouch : ps.IsChain TouchingIfEmpty) :
    tokenize .standard (spaced gap ps) file?' = .ok (placed 0 gap ps) ∧
      (placed 0 gap ps).map (fun t => (t.kind, t.value)) = ps.map (fun x => (x.1.kind, x.1.value)) ∧
      ∀ t ∈ placed 0 gap ps, t.value = t.span.slice (spaced gap ps) := by
  have hitems : (Lexer.ofSource .standard source file?).items = (ps.map Prod.fst).map Item.token := by
    rw [← tokensOf_eq_ok_iff, ← tokenize_eq_tokensOf_items, h]
  have hlexes := lexes_items .standard source file?
  rw [hitems] at hlexes
  have hspaced : tokenize .standard (spaced gap ps) file?' = .ok (placed 0 gap ps) := by
    rw [tokenize_of_lexes (hlexes.respaced hgaps htouch), tokensOf_map_token]
  have hvalue : ∀ x ∈ ps, x.1.value ≠ [] := fun x hx =>
    hlexes.value_ne_nil (List.mem_map_of_mem (List.mem_map_of_mem hx))
  exact ⟨hspaced, map_placed, fun t ht => by simpa using value_eq_slice hvalue [] [] rfl ht⟩

/-- In `x:='a b'` two gaps may be left empty, and the blank inside the literal stays. -/
theorem tokenize_spaced_literal :
    let ps : List (Token × Text) := [(⟨.identifier, ['x'], ⟨0, 0⟩⟩, []), (⟨.operator, [':', '='], ⟨1, 2⟩⟩, ['\t', ' ']),
      (⟨.literal, ['\'', 'a', ' ', 'b', '\''], ⟨3, 7⟩⟩, [])]
    tokenize .standard "x:='a b'".toList none = .ok (ps.map Prod.fst) ∧ BlankGaps [' '] ps ∧
      ps.IsChain TouchingIfEmpty ∧ tokenize .standard (spaced [' '] ps) none = .ok (placed 0 [' '] ps) := by
  intro ps
  have h : tokenize .standard "x:='a b'".toList none = .ok (ps.map Prod.fst) := rfl
  have hgaps : BlankGaps [' '] ps := by decide
  have htouch : ps.IsChain TouchingIfEmpty := by simp [ps, TouchingIfEmpty]
  exact ⟨h, hgaps, htouch, (tokenize_spaced h hgaps htouch).1⟩

end Munch
