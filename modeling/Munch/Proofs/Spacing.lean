import Munch.Proofs.Stream

/-! Tokens among gaps. A source is the values of its tokens with a gap before the first one and a gap after each one,
    and the error text at its end if there is one; the spans of the tokens say where the values stand. -/

namespace Munch

namespace Span

/-- The characters of a source that stand in a span. -/
def slice (s : Span) (source : Text) : Text := (source.drop s.first).take (s.last + 1 - s.first)

/-- A position that belongs to a span. -/
def Contains (s : Span) (i : Nat) : Prop := s.first ≤ i ∧ i ≤ s.last

end Span

/-! ### Laying out -/

/-- The text of a gap and of values that are each followed by a gap. -/
def spaced (gap : Text) : List (Token × Text) → Text
  | [] => gap
  | (t, g) :: ps => gap ++ (t.value ++ spaced g ps)

/-- The tokens of `spaced` at the places where their values stand when the text starts at position `p`. -/
def placed (p : Nat) (gap : Text) : List (Token × Text) → List Token
  | [] => []
  | (t, g) :: ps =>
    { t with span := ⟨p + gap.length, p + gap.length + (t.value.length - 1)⟩ } ::
      placed (p + gap.length + t.value.length) g ps

/-- All gaps are made of blanks. -/
def BlankGaps (gap : Text) (ps : List (Token × Text)) : Prop :=
  (∀ c ∈ gap, c ∈ blanks) ∧ ∀ x ∈ ps, ∀ c ∈ x.2, c ∈ blanks

instance (gap : Text) (ps : List (Token × Text)) : Decidable (BlankGaps gap ps) :=
  decidable_of_iff ((gap.all blanks.contains && ps.all fun x => x.2.all blanks.contains) = true) (by simp [BlankGaps])

section
variable {gap : Text} {p : Nat} {t : Token} {ps : List (Token × Text)}

theorem BlankGaps.tail {g : Text} (h : BlankGaps gap ((t, g) :: ps)) : BlankGaps g ps :=
  ⟨h.2 _ List.mem_cons_self, fun x hx => h.2 x (List.mem_cons_of_mem _ hx)⟩

theorem BlankGaps.cons {c : Char} (hc : c ∈ blanks) (h : BlankGaps gap ps) : BlankGaps (c :: gap) ps :=
  ⟨by simpa [hc] using h.1, h.2⟩

theorem length_spaced_cons {g : Text} : (spaced gap ((t, g) :: ps)).length =
    gap.length + t.value.length + (spaced g ps).length := by
  simp [spaced, Nat.add_assoc]

theorem spaced_cons_gap (c : Char) : spaced (c :: gap) ps = c :: spaced gap ps := by
  cases ps <;> rfl

theorem placed_cons_gap (c : Char) : placed p (c :: gap) ps = placed (p + 1) gap ps := by
  cases ps with
  | nil => rfl
  | cons x ps => simp [placed, Nat.add_comm 1, Nat.add_assoc]

theorem map_placed : (placed p gap ps).map (fun t => (t.kind, t.value)) = ps.map fun x => (x.1.kind, x.1.value) := by
  induction ps generalizing p gap with
  | nil => rfl
  | cons x ps ih => simp [placed, ih]

theorem placed_bounds (hv : ∀ x ∈ ps, x.1.value ≠ []) (ht : t ∈ placed p gap ps) :
    p ≤ t.span.first ∧ t.span.first ≤ t.span.last ∧ t.span.last < p + (spaced gap ps).length := by
  induction ps generalizing p gap with
  | nil => cases ht
  | cons x ps ih =>
    have hpos : 0 < x.1.value.length := List.length_pos_iff.mpr (hv x List.mem_cons_self)
    rw [length_spaced_cons]
    rcases List.mem_cons.mp ht with rfl | ht
    · simp only
      omega
    · obtain ⟨h1, h2, h3⟩ := ih (fun y hy => hv y (List.mem_cons_of_mem _ hy)) ht
      omega

theorem placed_ordered (hv : ∀ x ∈ ps, x.1.value ≠ []) :
    (placed p gap ps).Pairwise fun t u => t.span.last < u.span.first := by
  induction ps generalizing p gap with
  | nil => exact List.Pairwise.nil
  | cons x ps ih =>
    have hv' : ∀ y ∈ ps, y.1.value ≠ [] := fun y hy => hv y (List.mem_cons_of_mem _ hy)
    have hpos : 0 < x.1.value.length := List.length_pos_iff.mpr (hv x List.mem_cons_self)
    refine List.pairwise_cons.mpr ⟨fun u hu => ?_, ih hv'⟩
    have := (placed_bounds hv' hu).1
    simp only
    omega

theorem slice_append {w : Text} (pre v : Text) (hw : w ≠ []) :
    Span.slice ⟨pre.length, pre.length + (w.length - 1)⟩ (pre ++ (w ++ v)) = w := by
  have hpos : 0 < w.length := List.length_pos_iff.mpr hw
  have hlen : pre.length + (w.length - 1) + 1 - pre.length = w.length := by omega
  simp [Span.slice, hlen]

theorem value_eq_slice (hv : ∀ x ∈ ps, x.1.value ≠ []) (pre post : Text) (hp : pre.length = p)
    (ht : t ∈ placed p gap ps) : t.value = t.span.slice (pre ++ (spaced gap ps ++ post)) := by
  induction ps generalizing p gap pre with
  | nil => cases ht
  | cons x ps ih =>
    obtain ⟨u, g⟩ := x
    rcases List.mem_cons.mp ht with rfl | ht
    · have := slice_append (pre ++ gap) (spaced g ps ++ post) (hv _ List.mem_cons_self)
      simpa [spaced, hp] using this.symm
    · have := ih (fun y hy => hv y (List.mem_cons_of_mem _ hy)) (pre ++ (gap ++ u.value))
        (by simp [hp, Nat.add_assoc]) ht
      simpa [spaced] using this

/-- A character in no span is one of a gap. -/
theorem mem_blanks_of_not_contains (hb : BlankGaps gap ps) {i : Nat} {c : Char} (hc : (spaced gap ps)[i]? = some c)
    (hi : ∀ t ∈ placed p gap ps, ¬t.span.Contains (p + i)) : c ∈ blanks := by
  induction ps generalizing p gap i with
  | nil => exact hb.1 c (List.mem_of_getElem? hc)
  | cons x ps ih =>
    obtain ⟨u, g⟩ := x
    have hu := hi _ List.mem_cons_self
    simp only [Span.Contains, not_and, Nat.not_le] at hu
    simp only [spaced, List.getElem?_append] at hc
    split at hc
    · exact hb.1 c (List.mem_of_getElem? hc)
    · split at hc
      · omega
      · refine ih (p := p + gap.length + u.value.length) hb.tail hc fun t ht => ?_
        have := hi t (List.mem_cons_of_mem _ ht)
        rwa [show p + gap.length + u.value.length + (i - gap.length - u.value.length) = p + i by omega]

end

/-! ### The layout of a source -/

/-- How the items of a derivation lie in the characters `cs` from position `p` on. -/
structure Laid (r : RuleTable) (file : Text) (p : Nat) (cs gap : Text) (ps : List (Token × Text))
    (e? : Option LexError) : Prop where
  blank : BlankGaps gap ps
  placed : placed p gap ps = ps.map Prod.fst
  text : cs = spaced gap ps ++ (e?.map LexError.token).getD []
  kind : ∀ x ∈ ps, r.classify x.1.value = some x.1.kind
  nonempty : ∀ x ∈ ps, x.1.value ≠ []
  error : ∀ e, e? = some e → e.token ≠ [] ∧ e.file = file ∧
    e.span = ⟨p + (spaced gap ps).length, p + (spaced gap ps).length + (e.token.length - 1)⟩

theorem Lexes.laid {r : RuleTable} {file : Text} {p : Nat} {cs : Text} {is : List Item} (h : Lexes r file p cs is) :
    ∃ gap ps e?, is = (ps.map Prod.fst).map Item.token ++ (e?.map Item.error).toList ∧
      Laid r file p cs gap ps e? := by
  induction h with
  | nil => exact ⟨[], [], none, rfl, by simp [BlankGaps], rfl, rfl, by simp, by simp, by simp⟩
  | @blank p c cs is hc _ ih =>
    obtain ⟨gap, ps, e?, rfl, h⟩ := ih
    refine ⟨c :: gap, ps, e?, rfl, h.blank.cons (mem_blanks_iff.mpr hc), ?_, ?_, h.kind, h.nonempty, fun e he => ?_⟩
    · rw [placed_cons_gap, h.placed]
    · rw [spaced_cons_gap, List.cons_append, ← h.text]
    · rw [spaced_cons_gap, List.length_cons, show p + ((spaced gap ps).length + 1) = p + 1 + (spaced gap ps).length by
        omega]
      exact h.error e he
  | @token p c v rest k is hc hcut _ ih =>
    obtain ⟨gap, ps, e?, rfl, h⟩ := ih
    have hlen : (spaced [] ((⟨k, c :: v, ⟨p, p + v.length⟩⟩, gap) :: ps)).length =
        v.length + 1 + (spaced gap ps).length := by
      simp [length_spaced_cons]
    refine ⟨[], (⟨k, c :: v, ⟨p, p + v.length⟩⟩, gap) :: ps, e?, by simp, ?_, ?_, ?_, ?_, ?_, fun e he => ?_⟩
    · exact ⟨by simp, by simpa using ⟨h.blank.1, fun a b hab => h.blank.2 (a, b) hab⟩⟩
    · simpa [Munch.placed, Nat.add_assoc] using h.placed
    · simp [spaced, ← h.text]
    · simpa [hcut.classify] using fun a b hab => h.kind (a, b) hab
    · simpa using fun a b hab => h.nonempty (a, b) hab
    · rw [hlen, show p + (v.length + 1 + (spaced gap ps).length) = p + v.length + 1 + (spaced gap ps).length by omega]
      exact h.error e he
  | @error p c v hc hs =>
    refine ⟨[], [], some ⟨c :: v, ⟨p, p + v.length⟩, file⟩, rfl, by simp [BlankGaps], rfl, rfl, by simp, by simp, ?_⟩
    rintro e he
    cases he
    simp [spaced]

end Munch
