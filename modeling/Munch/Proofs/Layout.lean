import Munch.Proofs.Quoted
import Munch.Proofs.Report

/-! The layout of reports. A report is a header of two lines, and below it the excerpt of three lines when the error starts in the
    source: no text of an error adds a line, and the last position of an error is never looked at. Only a caret too far to the right
    to be padded leaves no report at all. -/

namespace Munch

/-- A text without a newline is one line. -/
theorem Text.lines_of_not_mem {w : Text} (hne : w ≠ []) (hw : '\n' ∉ w) : Text.lines w = [w] := by
  have h := isLines_lines w
  generalize lines w = ls at h
  cases h with
  | nil => exact absurd rfl hne
  | last => rfl
  | cons => simp at hw

namespace LexError
open Text
variable {e : LexError} {source before line text margin shown marked : Text} {removed : Nat}

/-! ### Lines -/

theorem newline_not_mem_of_tip {tip : Text} (h : e.tip = some tip) : '\n' ∉ tip := by
  have htip := newline_not_mem_tipWith .unicode e
  rw [LexError.tip] at h
  rwa [h, Option.getD_some] at htip

theorem newline_not_mem_header (e : LexError) : '\n' ∉ e.header := by
  have hopening : '\n' ∉ "Error: ".toList := by decide
  have hname : '\n' ∉ name := by decide
  have hparenthesis : '\n' ∉ " (".toList := by decide
  unfold header
  split
  · simp only [List.mem_append, List.not_mem_nil, not_or, not_false_eq_true, and_true]
    exact ⟨hopening, hname⟩
  · rename_i tip htip
    simp only [List.mem_append, not_or]
    exact ⟨⟨hopening, hname⟩, ⟨hparenthesis, newline_not_mem_of_tip htip⟩, by decide⟩

theorem count_newline_header_append {ls : List Text} (hls : ∀ l ∈ ls, '\n' ∉ l) :
    (unlines (e.header :: ("-> ".toList ++ e.file) :: ls)).count '\n' = e.file.count '\n' + (2 + ls.length) := by
  have hrest := count_newline_unlines hls
  have hheader := List.count_eq_zero_of_not_mem e.newline_not_mem_header
  rw [unlines] at hrest ⊢
  simp only [List.flatMap_cons, List.count_append, hheader, hrest]
  have harrow : List.count '\n' "-> ".toList = 0 := by decide
  rw [harrow, List.count_singleton_self]
  omega

/-! ### Reports that can be printed -/

theorem print_of_le (h : source.length ≤ e.span.first) :
    e.print source = .ok (unlines [e.header, "-> ".toList ++ e.file]) := by
  rw [print, report, reportLines, Place.ofPosition?_eq_none.mpr h]

theorem print_of_lt (h : e.span.first < source.length) : ∃ before line removed text margin shown marked,
    IsLine source before line ∧ before.length ≤ e.span.first ∧ e.span.first < before.length + line.length ∧
    Displays (decimal (1 + before.count '\n')) line (e.span.first - before.length) removed text margin shown marked ∧
    e.print source = if e.span.first - before.length - removed < maxWidth then
        .ok (unlines [e.header, "-> ".toList ++ e.file, margin, shown, marked])
      else .error .overwide := by
  obtain ⟨before, line, hline, hfrom, hto, hplace⟩ := Place.exists_place h
  obtain ⟨margin, shown, marked, hexcerpt, hdisplays⟩ :=
    displays_excerpt ⟨1 + before.count '\n', line, e.span.first - before.length⟩ hline.ends
  refine ⟨before, line, line.indent, _, margin, shown, marked, hline, hfrom, hto, hdisplays, ?_⟩
  rw [print, report, reportLines, hplace]
  simp only [hexcerpt, caretWidth, Nat.succ_le_iff]

theorem count_newline_of_print {w : Text} (h : e.print source = .ok w) :
    w.count '\n' = e.file.count '\n' + if e.span.first < source.length then 5 else 2 := by
  split
  · rename_i hlt
    obtain ⟨before, line, removed, text, margin, shown, marked, -, -, -, hdisplays, hprint⟩ := print_of_lt hlt
    rw [h] at hprint
    split at hprint
    · rw [Except.ok.inj hprint]
      exact count_newline_header_append hdisplays.newline
    · cases hprint
  · rename_i hle
    rw [print_of_le (Nat.le_of_not_lt hle)] at h
    rw [← Except.ok.inj h]
    exact count_newline_header_append (List.forall_mem_nil _)

theorem print_of_wide {c : Char} {w : Text} (hc : c ≠ ' ') (hw : '\n' ∉ c :: w) (hfirst : e.span.first < (c :: w).length)
    (hwide : maxWidth ≤ e.span.first) : e.print (c :: w) = .error .overwide := by
  have hindent : indent (c :: w) = 0 := by
    rw [indent, List.takeWhile_cons_of_neg (by simpa using hc), List.length_nil]
  have hplace : Place.ofPosition? (c :: w) e.span.first = some ⟨1, c :: w, e.span.first⟩ := by
    rw [Place.ofPosition?, lines_of_not_mem (List.cons_ne_nil c w) hw, Place.inLines?, if_pos hfirst]
  rw [print, hplace]
  simp only [caretWidth, hindent, Nat.sub_zero]
  exact if_neg (Nat.not_le.mpr (Nat.lt_succ_of_le hwide))

/-- The header of a report is on one line, and its second line bears the name of the file. There is no more when the source ends
    before the error starts. Otherwise three lines display the line of the source that the error starts in, unless the caret is
    too far to the right to be padded. Where the error ends makes no difference. -/
theorem report_layout (e : LexError) (source : Text) :
    '\n' ∉ e.header ∧
    (source.length ≤ e.span.first → e.print source = .ok (unlines [e.header, "-> ".toList ++ e.file])) ∧
    (e.span.first < source.length → ∃ before line removed text margin shown marked,
      IsLine source before line ∧ before.length ≤ e.span.first ∧ e.span.first < before.length + line.length ∧
      Displays (decimal (1 + before.count '\n')) line (e.span.first - before.length) removed text margin shown marked ∧
      e.print source = if e.span.first - before.length - removed < maxWidth then
          .ok (unlines [e.header, "-> ".toList ++ e.file, margin, shown, marked])
        else .error .overwide) ∧
    (∀ w, e.print source = .ok w → w.count '\n' = e.file.count '\n' + if e.span.first < source.length then 5 else 2) ∧
    ∀ last, ({ e with span := ⟨e.span.first, last⟩ } : LexError).print source = e.print source :=
  ⟨e.newline_not_mem_header, print_of_le, print_of_lt, fun _ => count_newline_of_print, fun _ => rfl⟩

/-- The text of an error has newlines, and the report has none for them. -/
theorem report_layout_newlines :
    let e : LexError := ⟨"'a\n\nb".toList, ⟨5, 9⟩, "a.su".toList⟩
    let source := "x := 'a\n\nb".toList
    e.span.first < source.length ∧ ∃ w, e.print source = .ok w ∧ w.count '\n' = 5 := by
  intro e source
  have hlt : e.span.first < source.length := by decide
  obtain ⟨-, -, -, hcount, -⟩ := report_layout e source
  have hprint : e.print source = .ok (e.report source) := by
    rw [print]
    rfl
  exact ⟨hlt, _, hprint, hcount _ hprint⟩

/-- Not every error that starts in the source is displayed: the line may be too long. -/
theorem not_forall_report_layout : ¬∀ (e : LexError) (source : Text), e.span.first < source.length →
    ∃ margin shown marked, e.print source = .ok (unlines [e.header, "-> ".toList ++ e.file, margin, shown, marked]) := by
  intro h
  have hsource : List.replicate 65535 'x' ++ ['@'] = 'x' :: (List.replicate 65534 'x' ++ ['@']) :=
    congrArg (· ++ ['@']) List.replicate_succ
  have hline (n : Nat) : '\n' ∉ 'x' :: (List.replicate n 'x' ++ ['@']) := by simp [List.mem_replicate]
  have hlength : 65535 < (List.replicate 65535 'x' ++ ['@']).length := by
    rw [List.length_append, List.length_replicate]
    exact Nat.lt_succ_self 65535
  obtain ⟨margin, shown, marked, hprint⟩ :=
    h ⟨['@'], ⟨65535, 65535⟩, "a.su".toList⟩ (List.replicate 65535 'x' ++ ['@']) hlength
  rw [hsource] at hprint hlength
  rw [print_of_wide (by decide) (hline _) hlength (by decide)] at hprint
  cases hprint

end LexError

end Munch
