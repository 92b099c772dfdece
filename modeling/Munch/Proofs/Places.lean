import Mathlib.Algebra.Ring.Nat
import Mathlib.Data.List.Basic
import Munch.Text.Line

/-! Lines and places. The lines of a text are its pieces up to each newline, and the place of a position is the line that it
    is in, with the number of newlines before that line and the column in it. -/

namespace Munch

namespace Text

/-! ### Lines -/

/-- The lines of a text: each one ends with its only newline, but for a last one that has none. -/
inductive IsLines : Text → List Text → Prop
  | nil : IsLines [] []
  | last {l : Text} (hne : l ≠ []) (hl : '\n' ∉ l) : IsLines l [l]
  | cons {l cs : Text} {ls : List Text} (hl : '\n' ∉ l) (h : IsLines cs ls) :
      IsLines (l ++ '\n' :: cs) ((l ++ ['\n']) :: ls)

theorem isLines_lines (cs : Text) : IsLines cs (lines cs) := by
  induction cs with
  | nil => exact .nil
  | cons c cs ih =>
    rw [lines]
    split
    · subst c
      exact .cons List.not_mem_nil ih
    · rename_i hc
      generalize lines cs = ls at ih
      cases ih with
      | nil => exact .last (List.cons_ne_nil c []) (by simpa using Ne.symm hc)
      | last hne hl => exact .last (List.cons_ne_nil c _) (List.not_mem_cons_of_ne_of_not_mem (Ne.symm hc) hl)
      | cons hl h => exact .cons (List.not_mem_cons_of_ne_of_not_mem (Ne.symm hc) hl) h

theorem IsLines.flatten_eq {cs : Text} {ls : List Text} (h : IsLines cs ls) : ls.flatten = cs := by
  induction h with
  | nil => rfl
  | last => exact List.append_nil _
  | cons _ _ ih => rw [List.flatten_cons, ih, List.append_assoc, List.singleton_append]

/-- The line of a text that stands behind `before`: it starts behind a newline or with the text, and ends with its only
    newline or with the text. -/
structure IsLine (content before line : Text) : Prop where
  split : ∃ after, content = before ++ (line ++ after) ∧ (after = [] ∨ line.getLast? = some '\n')
  starts : before = [] ∨ before.getLast? = some '\n'
  ends : ∀ u t, line = u ++ '\n' :: t → t = []

namespace IsLine
variable {content before line l : Text}

theorem of_not_mem (hl : '\n' ∉ l) : IsLine l [] l where
  split := ⟨[], by simp, Or.inl rfl⟩
  starts := Or.inl rfl
  ends u t h := absurd (h ▸ List.mem_append_right u List.mem_cons_self) hl

theorem first (hl : '\n' ∉ l) (cs : Text) : IsLine (l ++ '\n' :: cs) [] (l ++ ['\n']) where
  split := ⟨cs, by simp, Or.inr List.getLast?_concat⟩
  starts := Or.inl rfl
  ends u t h := by
    rcases List.eq_nil_or_concat t with rfl | ⟨t, c, rfl⟩
    · rfl
    · have hconcat : l ++ ['\n'] = (u ++ '\n' :: t) ++ [c] := by simpa using h
      obtain rfl := List.append_inj_left' hconcat rfl
      exact absurd (List.mem_append_right u List.mem_cons_self) hl

theorem append (l : Text) (h : IsLine content before line) : IsLine (l ++ '\n' :: content) (l ++ '\n' :: before) line where
  split := by
    obtain ⟨after, rfl, hafter⟩ := h.split
    exact ⟨after, by simp, hafter⟩
  starts := by
    right
    rcases h.starts with rfl | hlast
    · exact List.getLast?_concat
    · rw [List.getLast?_append, List.getLast?_cons, hlast]
      rfl
  ends := h.ends

theorem getElem?_eq (h : IsLine content before l) {position : Nat} (hfrom : before.length ≤ position)
    (hto : position < before.length + l.length) : l[position - before.length]? = content[position]? := by
  obtain ⟨after, rfl, -⟩ := h.split
  rw [List.getElem?_append_right hfrom, List.getElem?_append_left (by omega)]

theorem newline_not_mem_take (h : IsLine content before l) {k : Nat} (hk : k < l.length) : '\n' ∉ l.take k := by
  intro hmem
  obtain ⟨u, t, ht⟩ := List.append_of_mem hmem
  have hl : l = u ++ '\n' :: (t ++ l.drop k) := by
    rw [← List.cons_append, ← List.append_assoc, ← ht, List.take_append_drop]
  have hnil := (List.append_eq_nil_iff.mp (h.ends u _ hl)).2
  exact absurd (List.drop_eq_nil_iff.mp hnil) (Nat.not_le.mpr hk)

end IsLine

/-- Each line of a text stands behind the lines before it, and each of those has one newline. -/
theorem IsLines.isLine {content line : Text} {above below : List Text} (h : IsLines content (above ++ line :: below)) :
    IsLine content above.flatten line ∧ above.flatten.count '\n' = above.length := by
  induction above generalizing content with
  | nil =>
    cases h with
    | last _ hl => exact ⟨.of_not_mem hl, rfl⟩
    | cons hl _ => exact ⟨.first hl _, rfl⟩
  | cons l above ih =>
    rw [List.cons_append] at h
    generalize hls : above ++ line :: below = ls at h
    cases h with
    | last => exact absurd hls (List.append_ne_nil_of_right_ne_nil _ (List.cons_ne_nil _ _))
    | @cons l _ _ hl h =>
      subst hls
      obtain ⟨hline, hcount⟩ := ih h
      rw [List.flatten_cons, List.append_assoc, List.singleton_append, List.count_append, List.count_eq_zero_of_not_mem hl,
        List.count_cons_self, hcount, List.length_cons, Nat.zero_add]
      exact ⟨hline.append l, rfl⟩

end Text

/-! ### Places -/

namespace Place
open Text
variable {content : Text} {above below ls : List Text} {n position : Nat} {p : Place}

theorem inLines?_eq_none_iff : inLines? n position ls = none ↔ (ls.map List.length).sum ≤ position := by
  induction ls generalizing n position with
  | nil => exact iff_of_true rfl (Nat.zero_le _)
  | cons l ls ih =>
    rw [List.map_cons, List.sum_cons, inLines?]
    split
    · exact iff_of_false (Option.some_ne_none _) (by omega)
    · rw [ih]
      omega

theorem exists_above_of_inLines? (h : inLines? n position ls = some p) : ∃ above below, ls = above ++ p.text :: below ∧
    p.line = n + above.length ∧ p.column < p.text.length ∧ (above.map List.length).sum + p.column = position := by
  induction ls generalizing n position with
  | nil => cases h
  | cons l ls ih =>
    rw [inLines?] at h
    split at h
    · rename_i hline
      cases h
      exact ⟨[], ls, rfl, rfl, hline, Nat.zero_add _⟩
    · obtain ⟨above, below, rfl, hnumber, hcolumn, hsum⟩ := ih h
      refine ⟨l :: above, below, rfl, ?_, hcolumn, ?_⟩
      · rw [hnumber, List.length_cons]
        omega
      · rw [List.map_cons, List.sum_cons]
        omega

theorem exists_above (h : ofPosition? content position = some p) : ∃ above below, IsLines content (above ++ p.text :: below) ∧
    p.line = 1 + above.length ∧ p.column < p.text.length ∧ above.flatten.length + p.column = position := by
  obtain ⟨above, below, hls, hnumber, hcolumn, hsum⟩ := exists_above_of_inLines? h
  exact ⟨above, below, hls ▸ isLines_lines content, hnumber, hcolumn, List.length_flatten ▸ hsum⟩

/-- The place `p` is that of `position`: its line stands behind the lines `above`, and its number is one more than the number of
    newlines before the position. -/
structure Holds (p : Place) (content : Text) (position : Nat) (above : List Text) : Prop where
  lines : ∃ below, IsLines content (above ++ p.text :: below)
  isLine : IsLine content above.flatten p.text
  number : p.line = 1 + (content.take position).count '\n'
  inLine : p.column < p.text.length
  char : p.text[p.column]? = content[position]?
  column : (above.map List.length).sum + p.column = position

theorem exists_holds (h : ofPosition? content position = some p) : ∃ above, p.Holds content position above := by
  obtain ⟨above, below, hlines, hnumber, hcolumn, rfl⟩ := exists_above h
  obtain ⟨hline, habove⟩ := hlines.isLine
  obtain ⟨after, hcontent, -⟩ := hline.split
  refine ⟨above, ⟨below, hlines⟩, hline, ?_, hcolumn, ?_, by rw [List.length_flatten]⟩
  · -- behind the lines above there is no newline before the column
    rw [hnumber, hcontent, List.take_length_add_append, List.take_append_of_le_length (Nat.le_of_lt hcolumn),
      List.count_append, habove, List.count_eq_zero_of_not_mem (hline.newline_not_mem_take hcolumn), Nat.add_zero]
  · rw [hcontent, List.getElem?_append_right (Nat.le_add_right _ _), Nat.add_sub_cancel_left,
      List.getElem?_append_left hcolumn]

theorem ofPosition?_eq_none : ofPosition? content position = none ↔ content.length ≤ position := by
  rw [ofPosition?, inLines?_eq_none_iff, ← List.length_flatten, (isLines_lines content).flatten_eq]

/-- A position has a place exactly when the text does not end before it: the line that it is in, with its newline, and the
    column in that line. -/
theorem place_of_position (content : Text) (position : Nat) :
    (ofPosition? content position = none ↔ content.length ≤ position) ∧
      ∀ p, ofPosition? content position = some p → ∃ above, p.Holds content position above :=
  ⟨ofPosition?_eq_none, fun _ => exists_holds⟩

/-- Every position of a text is in one of its lines. -/
theorem exists_place (hpos : position < content.length) :
    ∃ before line, IsLine content before line ∧ before.length ≤ position ∧ position < before.length + line.length ∧
      ofPosition? content position = some ⟨1 + before.count '\n', line, position - before.length⟩ := by
  have hsome := mt ofPosition?_eq_none.mp (Nat.not_le.mpr hpos)
  obtain ⟨p, hp⟩ := Option.ne_none_iff_exists'.mp hsome
  obtain ⟨above, below, hlines, hnumber, hcolumn, rfl⟩ := exists_above hp
  obtain ⟨hline, habove⟩ := hlines.isLine
  refine ⟨above.flatten, p.text, hline, Nat.le_add_right _ _, Nat.add_lt_add_left hcolumn _, ?_⟩
  rw [hp, habove, Nat.add_sub_cancel_left, ← hnumber]

end Place

end Munch
