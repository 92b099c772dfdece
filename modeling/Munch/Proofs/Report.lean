import Mathlib.Data.List.DropRight
import Munch.Proofs.Dump
import Munch.Proofs.Grammar.Agreement
import Munch.Proofs.Places
import Munch.Report

/-! Reports of lexical errors. An excerpt displays what trimming leaves of a line. What is shown from the caret on is the rest of
    the line from the error on, without the white space at its end. A lexical error never starts with a space or a newline, but it
    may start with other white space. -/

namespace Munch

namespace Text
variable {w : Text} {k : Nat}

/-! ### Trimming -/

theorem drop_dropIndent (h : w.indent ≤ k) : w.dropIndent.drop (k - w.indent) = w.drop k := by
  conv_rhs => rw [← List.takeWhile_append_dropWhile (p := (· == ' ')) (l := w)]
  rw [List.drop_append, List.drop_eq_nil_of_le h, List.nil_append]
  rfl

theorem indent_le_of_getElem? {c : Char} (hc : w[k]? = some c) (hne : c ≠ ' ') : w.indent ≤ k := by
  by_contra hlt
  have hk : k < w.indent := Nat.lt_of_not_le hlt
  rw [← List.takeWhile_append_dropWhile (p := (· == ' ')) (l := w), List.getElem?_append_left hk] at hc
  have hspace := List.mem_takeWhile_imp (List.mem_of_getElem? hc)
  exact hne (beq_iff_eq.mp hspace)

theorem length_trimEnd_le (w : Text) : w.trimEnd.length ≤ w.length := (List.rdropWhile_prefix _ w).length_le

theorem trimEnd_eq_nil_iff : w.trimEnd = [] ↔ ∀ c ∈ w, Unicode.isWhiteSpace c = true := List.rdropWhile_eq_nil_iff

theorem trimEnd_append (u v : Text) : (u ++ v).trimEnd = if v.trimEnd = [] then u.trimEnd else u ++ v.trimEnd := by
  simp only [trimEnd, List.reverse_append, List.dropWhile_append, List.isEmpty_iff, List.reverse_eq_nil_iff]
  split
  · rfl
  · rw [List.reverse_append, List.reverse_reverse]

theorem drop_trimEnd (w : Text) (k : Nat) : w.trimEnd.drop k = trimEnd (w.drop k) := by
  have hsplit := trimEnd_append (w.take k) (w.drop k)
  rw [List.take_append_drop] at hsplit
  by_cases hnil : trimEnd (w.drop k) = []
  · rw [if_pos hnil] at hsplit
    rw [hnil, hsplit, List.drop_eq_nil_iff]
    exact (length_trimEnd_le _).trans (List.length_take_le k w)
  · have hk : k ≤ w.length := by
      by_contra hlt
      exact hnil (by rw [List.drop_eq_nil_of_le (Nat.le_of_not_le hlt)]; rfl)
    rw [if_neg hnil] at hsplit
    rw [hsplit, List.drop_left' (List.length_take_of_le hk)]

theorem head?_trimEnd (h : w.trimEnd ≠ []) : w.trimEnd.head? = w.head? := by
  obtain ⟨blanks, hw⟩ := List.rdropWhile_prefix Unicode.isWhiteSpace w
  conv_rhs => rw [← hw]
  exact (List.head?_append_of_ne_nil _ h).symm

/-- Where the trimmed rest of `v` stands in `u`, there stands its first character, unless it is all white space. -/
theorem getElem?_of_drop_eq_trimEnd {u v : Text} {m n : Nat} (h : u.drop m = trimEnd (v.drop n)) :
    ((∃ c ∈ v.drop n, Unicode.isWhiteSpace c = false) → u[m]? = v[n]?) ∧
      ((∀ c ∈ v.drop n, Unicode.isWhiteSpace c = true) → u.length ≤ m) := by
  constructor
  · rintro ⟨c, hc, hblack⟩
    have hne : trimEnd (v.drop n) ≠ [] := by
      intro hnil
      rw [trimEnd_eq_nil_iff.mp hnil c hc] at hblack
      cases hblack
    rw [← List.head?_drop, h, head?_trimEnd hne, List.head?_drop]
  · intro hall
    rw [trimEnd_eq_nil_iff.mpr hall] at h
    exact List.drop_eq_nil_iff.mp h

theorem newline_not_mem_trimEnd (h : ∀ u t, w = u ++ '\n' :: t → t = []) : '\n' ∉ w.trimEnd := by
  intro hmem
  obtain ⟨blanks, hw⟩ : w.trimEnd <+: w := List.rdropWhile_prefix Unicode.isWhiteSpace w
  obtain ⟨u, t, ht⟩ := List.append_of_mem hmem
  rw [ht, List.append_assoc, List.cons_append] at hw
  obtain ⟨rfl, rfl⟩ := List.append_eq_nil_iff.mp (h u (t ++ blanks) hw.symm)
  -- a newline at the end of `w` is white space, and would not have been left
  have hshort : w.trimEnd = trimEnd u := by rw [← hw, trimEnd_append, if_pos (by decide)]
  have hle := length_trimEnd_le u
  rw [← hshort, ht, List.length_append, List.length_singleton] at hle
  omega

theorem exists_trimEnd_append (w : Text) : ∃ blanks, w.trimEnd ++ blanks = w ∧ ∀ c ∈ blanks, Unicode.isWhiteSpace c = true :=
  ⟨w.rtakeWhile Unicode.isWhiteSpace, List.rdropWhile_append_rtakeWhile, fun _ hc => List.mem_rtakeWhile_imp hc⟩

theorem isWhiteSpace_of_getLast?_trimEnd {c : Char} (h : w.trimEnd.getLast? = some c) : Unicode.isWhiteSpace c = false := by
  have hne : w.rdropWhile Unicode.isWhiteSpace ≠ [] := by
    intro hnil
    rw [show w.trimEnd = [] from hnil] at h
    cases h
  have hlast : (w.rdropWhile Unicode.isWhiteSpace).getLast? = some c := h
  rw [List.getLast?_eq_some_getLast hne, Option.some.injEq] at hlast
  exact Bool.eq_false_iff.mpr (hlast ▸ List.rdropWhile_last_not _ _ hne)

theorem replicate_indent_append (w : Text) : List.replicate w.indent ' ' ++ w.dropIndent = w := by
  have hspaces : w.takeWhile (· == ' ') = List.replicate w.indent ' ' :=
    List.eq_replicate_of_mem fun _ hc => beq_iff_eq.mp (List.mem_takeWhile_imp (p := (· == ' ')) hc)
  rw [← hspaces]
  exact List.takeWhile_append_dropWhile

theorem head?_dropIndent_ne (w : Text) : w.dropIndent.head? ≠ some ' ' := by
  intro hhead
  have hnot := List.head?_dropWhile_not (· == ' ') w
  rw [show (w.dropWhile (· == ' ')).head? = some ' ' from hhead] at hnot
  cases hnot

theorem ends_dropIndent (h : ∀ u t, w = u ++ '\n' :: t → t = []) (u t : Text) (hu : w.dropIndent = u ++ '\n' :: t) :
    t = [] := by
  refine h (List.replicate w.indent ' ' ++ u) t ?_
  rw [List.append_assoc, ← hu, replicate_indent_append]

/-- What is left of a line without the `removed` spaces at its start and the white space at its end. -/
structure Trims (line : Text) (removed : Nat) (text : Text) : Prop where
  split : ∃ blanks, line = List.replicate removed ' ' ++ (text ++ blanks) ∧ (text ++ blanks).head? ≠ some ' ' ∧
    ∀ c ∈ blanks, Unicode.isWhiteSpace c = true
  last : ∀ c, text.getLast? = some c → Unicode.isWhiteSpace c = false

theorem trims_dropIndent (line : Text) : Trims line line.indent line.dropIndent.trimEnd where
  split := by
    obtain ⟨blanks, hblanks, hwhite⟩ := exists_trimEnd_append line.dropIndent
    refine ⟨blanks, ?_, ?_, hwhite⟩
    · rw [hblanks, replicate_indent_append]
    · rw [hblanks]
      exact head?_dropIndent_ne line
  last _ := isWhiteSpace_of_getLast?_trimEnd

theorem idxOf_append_cons {c : Char} {u : Text} (h : c ∉ u) (x : Text) : (u ++ c :: x).idxOf c = u.length := by
  rw [List.idxOf_append_of_notMem h, List.idxOf_cons_self, Nat.add_zero]

end Text

/-! ### Excerpts -/

namespace LexError
open Text
variable {source before line shown pad : Text} {file? : Option Text} {e : LexError}

/-- The lines `margin`, `shown` and `marked` display what is left of a line beside its number, and mark its column `column`, or
    the first one that is left when that one is removed. -/
structure Displays (number line : Text) (column removed : Nat) (text margin shown marked : Text) : Prop where
  trims : Trims line removed text
  margin_eq : margin = List.replicate (number.length + 1) ' ' ++ ['|']
  shown_eq : shown = number ++ " | ".toList ++ text
  marked_eq : marked = margin ++ ' ' :: List.replicate (column - removed) '-' ++ ['^']
  bar : ∀ l ∈ [margin, shown, marked], l.idxOf '|' = number.length + 1
  caret : ∀ k, column = removed + k → marked.idxOf '^' = number.length + 3 + k
  caretFirst : column ≤ removed → marked.idxOf '^' = number.length + 3
  newline : ∀ l ∈ [margin, shown, marked], '\n' ∉ l

/-- The report of `e` shows the line behind `before`, in which the error starts, and a caret below it behind `pad`. -/
structure Shows (e : LexError) (source before line shown pad : Text) : Prop where
  isLine : IsLine source before line
  inLine : before.length ≤ e.span.first ∧ e.span.first < before.length + line.length
  report : ∃ margin, '\n' ∉ margin ∧
    e.report source = unlines [e.header, "-> ".toList ++ e.file, margin, shown, pad ++ ['^']]
  text : shown = decimal (1 + before.count '\n') ++ " | ".toList ++ line.dropIndent.trimEnd
  column : pad.length = (decimal (1 + before.count '\n')).length + 3 + (e.span.first - before.length - line.indent)
  newline : '\n' ∉ shown ∧ '\n' ∉ pad
  caret : '^' ∉ pad

theorem caret_not_mem_pad (m n : Nat) : '^' ∉ List.replicate m ' ' ++ ['|'] ++ ' ' :: List.replicate n '-' := by
  simp [List.mem_replicate]

theorem displays {number line text : Text} {column removed : Nat} (hnumber : ∀ c ∈ number, c.isDigit = true)
    (htrims : Trims line removed text) (htext : '\n' ∉ text) :
    Displays number line column removed text (List.replicate (number.length + 1) ' ' ++ ['|']) (number ++ " | ".toList ++ text)
      (List.replicate (number.length + 1) ' ' ++ ['|'] ++ ' ' :: List.replicate (column - removed) '-' ++ ['^']) := by
  have hmarked : (List.replicate (number.length + 1) ' ' ++ ['|'] ++ ' ' :: List.replicate (column - removed) '-' ++ ['^']).idxOf
      '^' = number.length + 3 + (column - removed) := by
    rw [idxOf_append_cons (caret_not_mem_pad _ _)]
    simp only [List.length_append, List.length_cons, List.length_replicate, List.length_nil]
    omega
  have hbar : '|' ∉ number ++ [' '] := by
    intro h
    rcases List.mem_append.mp h with h | h
    · exact absurd (hnumber _ h) (by decide)
    · simp at h
  have hmargin : '|' ∉ List.replicate (number.length + 1) ' ' := by simp [List.mem_replicate]
  refine ⟨htrims, rfl, rfl, rfl, ?_, ?_, ?_, ?_⟩
  · simp only [List.forall_mem_cons, List.append_assoc, List.cons_append, List.nil_append]
    refine ⟨?_, ?_, ?_, List.forall_mem_nil _⟩
    · rw [idxOf_append_cons hmargin, List.length_replicate]
    · have hsplit : number ++ (" | ".toList ++ text) = number ++ [' '] ++ '|' :: ' ' :: text := by simp
      rw [hsplit, idxOf_append_cons hbar, List.length_append, List.length_singleton]
    · rw [idxOf_append_cons hmargin, List.length_replicate]
  · rintro k rfl
    rw [hmarked, Nat.add_sub_cancel_left]
  · intro hle
    rw [hmarked, Nat.sub_eq_zero_of_le hle, Nat.add_zero]
  · have hdigits : '\n' ∉ number := fun h => absurd (hnumber _ h) (by decide)
    simp [List.mem_replicate, hdigits, htext]

theorem displays_excerpt (p : Place) (hends : ∀ u t, p.text = u ++ '\n' :: t → t = []) :
    ∃ margin shown marked, excerpt p = [margin, shown, marked] ∧
      Displays (decimal p.line) p.text p.column p.text.indent p.text.dropIndent.trimEnd margin shown marked :=
  ⟨_, _, _, rfl, displays (fun _ hc => Nat.isDigit_of_mem_toDigits (by omega) (by omega) hc) (trims_dropIndent p.text)
    (newline_not_mem_trimEnd (ends_dropIndent hends))⟩

/-- An error that starts in the source is shown in its line. -/
theorem exists_shows (h : e.span.first < source.length) : ∃ before line shown pad, e.Shows source before line shown pad := by
  obtain ⟨before, line, hline, hfrom, hto, hplace⟩ := Place.exists_place h
  obtain ⟨margin, shown, marked, hexcerpt, hdisplays⟩ :=
    displays_excerpt ⟨1 + before.count '\n', line, e.span.first - before.length⟩ hline.ends
  have hreport : e.report source = unlines [e.header, "-> ".toList ++ e.file, margin, shown, marked] := by
    rw [report, reportLines, hplace]
    simp only [hexcerpt]
  have hpad := hdisplays.marked_eq
  obtain ⟨hmargin, hshown, hmarked, -⟩ : '\n' ∉ margin ∧ '\n' ∉ shown ∧ '\n' ∉ marked ∧ _ := by
    simpa only [List.forall_mem_cons] using hdisplays.newline
  refine ⟨before, line, shown, margin ++ ' ' :: List.replicate (e.span.first - before.length - line.indent) '-', hline,
    ⟨hfrom, hto⟩, ⟨margin, hmargin, hpad ▸ hreport⟩, hdisplays.shown_eq, ?_, ⟨hshown, ?_⟩, ?_⟩
  · rw [hdisplays.margin_eq]
    simp only [List.length_append, List.length_cons, List.length_replicate, List.length_nil]
    omega
  · rw [hpad] at hmarked
    exact fun h => hmarked (List.mem_append_left _ h)
  · rw [hdisplays.margin_eq]
    exact caret_not_mem_pad _ _

/-- From the caret on the rest of the line is shown, when the error does not start among the spaces that are left out. -/
theorem Shows.drop_shown (h : e.Shows source before line shown pad) (hindent : line.indent ≤ e.span.first - before.length) :
    shown.drop pad.length = trimEnd (line.drop (e.span.first - before.length)) := by
  have hgutter (number : Text) : (number ++ " | ".toList).length = number.length + 3 := List.length_append
  rw [h.column, h.text, ← hgutter, List.drop_length_add_append, drop_trimEnd, drop_dropIndent hindent]

/-! ### Lexical errors -/

theorem not_stuck_newline (v : Text) : ¬RuleTable.standard.Stuck '\n' v := by
  intro h
  cases v with
  | nil =>
    have hcut : RuleTable.standard.Cuts '\n' [] .newline none := cuts_newline
    have hclass := hcut.classify
    rw [h.unclassified] at hclass
    cases hclass
  | cons d v =>
    have hcut : RuleTable.standard.Cuts '\n' [] .newline (some d) := cuts_newline
    have hends := hcut.ends
    rw [h.grows.1] at hends
    cases hends

/-- Every lexical error is shown in its line. The caret points at the first character of the error, unless that character and
    all that follows it on the line is white space: then the shown line ends before the caret. -/
theorem report_points (h : tokenize .standard source file? = .error e) :
    ∃ before line shown pad c, e.Shows source before line shown pad ∧ source[e.span.first]? = some c ∧ c ≠ '\n' ∧
      c ∉ blanks ∧
      ((∃ d ∈ line.drop (e.span.first - before.length), Unicode.isWhiteSpace d = false) → shown[pad.length]? = some c) ∧
      ((∀ d ∈ line.drop (e.span.first - before.length), Unicode.isWhiteSpace d = true) → shown.length ≤ pad.length) := by
  obtain ⟨i, c, v, hdrop, hc, hs, rfl⟩ := exists_stuck_of_tokenize h
  have hget : source[i]? = some c := by rw [← List.head?_drop, hdrop, List.head?_cons]
  obtain ⟨before, line, shown, pad, hshows⟩ :=
    exists_shows (e := ⟨c :: v, ⟨i, i + v.length⟩, file?.getD Lexer.unnamed⟩) (List.getElem?_eq_some_iff.mp hget).1
  have hcolumn := (hshows.isLine.getElem?_eq hshows.inLine.1 hshows.inLine.2).trans hget
  have hindent : line.indent ≤ i - before.length := by
    refine indent_le_of_getElem? hcolumn ?_
    rintro rfl
    cases hc
  have hrest := getElem?_of_drop_eq_trimEnd (hshows.drop_shown hindent)
  rw [hcolumn] at hrest
  refine ⟨before, line, shown, pad, c, hshows, hget, ?_, not_mem_blanks_iff.mpr hc, hrest⟩
  rintro rfl
  exact not_stuck_newline v hs

/-- The caret points at the quote that opens a literal. -/
theorem report_points_quote :
    let source := "x := 2\n  'ab".toList
    let e : LexError := ⟨"'ab".toList, ⟨9, 11⟩, Lexer.unnamed⟩
    tokenize .standard source none = .error e ∧ ∃ before line shown pad, e.Shows source before line shown pad ∧
      shown[pad.length]? = some '\'' := by
  intro source e
  have herror : tokenize .standard source none = .error e := rfl
  obtain ⟨before, line, shown, pad, c, hshows, hget, -, -, hpoints, -⟩ := report_points herror
  obtain ⟨hfrom, hto⟩ := hshows.inLine
  obtain rfl : '\'' = c := Option.some.inj hget
  have hcolumn := (hshows.isLine.getElem?_eq hfrom hto).trans hget
  rw [← List.head?_drop] at hcolumn
  exact ⟨herror, before, line, shown, pad, hshows, hpoints ⟨_, List.mem_of_head? hcolumn, by decide⟩⟩

/-- The caret does not always point at the first character of the error: a no-break space that ends a line is not shown. -/
theorem not_forall_report_points : ¬∀ (source : Text) (file? : Option Text) (e : LexError),
    tokenize .standard source file? = .error e → ∃ above shown pad, e.reportLines source = above ++ [shown, pad ++ ['^']] ∧
      shown[pad.length]? = source[e.span.first]? := by
  intro h
  obtain ⟨above, shown, pad, hlines, hpoints⟩ :=
    h "x := 1\u00a0".toList none ⟨['\u00a0'], ⟨6, 6⟩, Lexer.unnamed⟩ rfl
  have hreport : reportLines ⟨['\u00a0'], ⟨6, 6⟩, Lexer.unnamed⟩ "x := 1\u00a0".toList =
      ["Error: UnclassifiableToken".toList, "-> shell".toList, "  |".toList]
        ++ ["1 | x := 1".toList, "  | ------".toList ++ ['^']] := by
    decide
  rw [hreport] at hlines
  obtain ⟨-, hlast⟩ := List.append_inj' hlines rfl
  simp only [List.cons.injEq, and_true] at hlast
  obtain ⟨rfl, hpad⟩ := hlast
  obtain rfl := List.append_inj_left' hpad rfl
  cases hpoints

end LexError

end Munch
