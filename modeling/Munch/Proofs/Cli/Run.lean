import Munch.Proofs.Cli.Filters
import Munch.Proofs.Layout
import Munch.Proofs.Log

/-! What the program leaves. How a run ends and what it prints follow from the source, its path and whether comments are left
    out; how much is logged changes the log alone, and an error that comes late leaves nothing printed before it. The report of
    an error fails when the error stands too far to the right in its line. -/

namespace Munch

/-! ### Paths -/

theorem pathComponents_ne_nil (path : Text) : pathComponents path ≠ [] := by
  cases path with
  | nil => simp [pathComponents]
  | cons c cs =>
    rw [pathComponents]
    split
    · exact List.cons_ne_nil _ _
    · split <;> exact List.cons_ne_nil _ _

theorem pathComponents_slash (dir w : Text) :
    pathComponents (dir ++ '/' :: w) = pathComponents dir ++ pathComponents w := by
  induction dir with
  | nil => rfl
  | cons c dir ih =>
    rw [List.cons_append, pathComponents, ih, pathComponents]
    split
    · rfl
    · cases h : pathComponents dir with
      | nil => exact absurd h (pathComponents_ne_nil dir)
      | cons v vs => rfl

theorem pathComponents_of_not_mem {w : Text} (h : '/' ∉ w) : pathComponents w = [w] := by
  induction w with
  | nil => rfl
  | cons c w ih =>
    obtain ⟨hc, hw⟩ := List.ne_and_not_mem_of_not_mem_cons h
    rw [pathComponents, if_neg hc.symm, ih hw]

/-- `name` is the last component of a path, and one that can be the name of a file. -/
structure IsFileName (path name : Text) : Prop where
  last : path = name ∨ ∃ dir, path = dir ++ '/' :: name
  slash : '/' ∉ name
  ordinary : name ∉ [[], ['.'], ['.', '.']]

theorem IsFileName.fileName?_eq {path name : Text} (h : IsFileName path name) : fileName? path = some name := by
  obtain ⟨above, hpath⟩ : ∃ above, pathComponents path = above ++ [name] := by
    rcases h.last with rfl | ⟨dir, rfl⟩
    · exact ⟨[], pathComponents_of_not_mem h.slash⟩
    · exact ⟨pathComponents dir, by rw [pathComponents_slash, pathComponents_of_not_mem h.slash]⟩
  obtain ⟨hempty, hpoint, hpoints⟩ : name ≠ [] ∧ name ≠ ['.'] ∧ name ≠ ['.', '.'] := by simpa using h.ordinary
  simp [fileName?, hpath, hempty, hpoint, hpoints]

/-- Bytes are read as the text that they encode. -/
theorem Text.ofUtf8?_eq_some_iff {bytes : ByteArray} {content : Text} :
    Text.ofUtf8? bytes = some content ↔ bytes = content.utf8Encode := by
  rw [ofUtf8?, String.fromUTF8?]
  constructor
  · intro h
    split at h
    · obtain rfl := Option.some.inj h
      rw [← String.toByteArray_ofList, String.ofList_toList]
      rfl
    · cases h
  · rintro rfl
    rw [dif_pos ⟨content, rfl⟩, Option.map_some]
    exact congrArg some String.toList_ofList

namespace Cli
variable {fr : FilterReader} {fs : Files} {directives? : Option Text} {s s' : Settings} {content : Text} {ts : List Token}
  {e : LexError}

/-! ### A run on a source -/

theorem runSource_of_ok (h : tokenize .standard content (fileName? s.source) = .ok ts) :
    runSource s content = ⟨(tokenizeLogged .standard content (fileName? s.source)).log ++ [.summary ts.length, .totalTime],
      .exit 0, Text.unlines ((shown s.skipComments ts).map Token.dumpLine), []⟩ := by
  rw [tokenize] at h
  refine Logged.ext ?_ ?_ <;> simp [runSource, h]

theorem runSource_of_error (h : tokenize .standard content (fileName? s.source) = .error e) :
    runSource s content = ⟨(tokenizeLogged .standard content (fileName? s.source)).log,
      match e.print content with
      | .ok report => ⟨.exit 1, [], e.message ++ '\n' :: report⟩
      | .error o => ⟨.panic o.message, [], e.message ++ ['\n']⟩⟩ := by
  rw [tokenize] at h
  cases hprint : e.print content <;> refine Logged.ext ?_ ?_ <;> simp [runSource, h, hprint, Text.unlines]

/-! ### A run on a file -/

section
variable {path why : Text} {bytes : ByteArray}

theorem Files.readText_of_utf8 (hread : fs.read path = .ok content.utf8Encode) : fs.readText path = .ok content := by
  have hsome : Text.ofUtf8? content.utf8Encode = some content := Text.ofUtf8?_eq_some_iff.mpr rfl
  simp only [readText, hread, bind, Except.bind, hsome]
  rfl

theorem Files.readText_of_not_utf8 (hread : fs.read path = .ok bytes) (h : ∀ content : Text, bytes ≠ content.utf8Encode) :
    fs.readText path = .error "stream did not contain valid UTF-8".toList := by
  have hnone : Text.ofUtf8? bytes = none :=
    Option.eq_none_iff_forall_ne_some.mpr fun content hc => h content (Text.ofUtf8?_eq_some_iff.mp hc)
  simp only [readText, hread, bind, Except.bind, hnone]
  rfl

theorem Files.readText_of_error (hread : fs.read path = .error why) : fs.readText path = .error why := by
  rw [readText, hread]
  rfl

end

theorem run_of_utf8 (hread : fs.read s.source = .ok content.utf8Encode) : run fs s = runSource s content := by
  rw [run, Files.readText_of_utf8 hread]

/-- Of the settings a run needs only the path and whether comments are left out. -/
theorem run_congr (hsource : s'.source = s.source) (hskip : s'.skipComments = s.skipComments) : run fs s' = run fs s := by
  simp only [run, runSource, hsource, hskip]

theorem execute_of_args {ε : Type} {readArgs : (Text → Except Text Text) → Except ε Settings} (fr : FilterReader)
    (directives? : Option Text) (hargs : readArgs fs.check = .ok s) :
    execute readArgs fr fs directives? = .ok (perform fr fs directives? s) := by
  rw [execute, hargs]
  rfl

/-! ### What is printed -/

/-- The tokens `ts` have been printed: each one on a line of its own, without the comments when they are to be skipped. The
    log, as far as it is kept, counts all of them. -/
structure Outcome.Dumps (o : Outcome) (skipComments : Bool) (keeps : Filter) (ts : List Token) : Prop where
  ending : o.ending = .exit 0
  stdout : ∃ printed, (skipComments = false → printed = ts) ∧
    (skipComments = true → printed = ts.filter fun t => t.kind ≠ .comment) ∧
    o.stdout = Text.unlines (printed.map Token.dumpLine) ∧ o.stdout.count '\n' = printed.length
  stderr : o.stderr = []
  counts : ∀ n, .tokenized n ∈ o.log ∨ .summary n ∈ o.log → n = ts.length
  tokenized : keeps (.tokenized ts.length) = true → .tokenized ts.length ∈ o.log
  summary : keeps (.summary ts.length) = true → .summary ts.length ∈ o.log

/-- The error `e`, which bears the name of the file, has been reported, and nothing has been printed. In the line that the error
    starts in, `removed` spaces are left out; when the error stands 65535 characters or more behind them, the run ends in a panic
    in place of its report. -/
structure Outcome.Reports (o : Outcome) (path content : Text) (e : LexError) : Prop where
  stdout : o.stdout = []
  file : ∀ name, IsFileName path name → e.file = name
  report : (∃ report, e.print content = .ok report ∧ o.ending = .exit 1 ∧ o.stderr = e.message ++ '\n' :: report) ∨
    e.print content = .error .overwide ∧ o.ending = .panic "Formatting argument out of range".toList ∧
      o.stderr = e.message ++ ['\n']
  exits_iff : ∃ before line removed text, Text.IsLine content before line ∧ before.length ≤ e.span.first ∧
    e.span.first < before.length + line.length ∧ Text.Trims line removed text ∧
    (o.ending = .exit 1 ↔ e.span.first - before.length - removed < 65535)

/-- The file at a path cannot be read as a text: it is said why, and nothing has been printed. -/
structure Outcome.Refuses (o : Outcome) (path why : Text) : Prop where
  ending : o.ending = .exit 1
  stdout : o.stdout = []
  stderr : o.stderr = "Error: Couldn't read file from path ".toList ++ '\x60' :: path ++ '\x60' :: ": ".toList ++ why ++ ['\n']

theorem shown_eq (ts : List Token) : shown false ts = ts ∧ shown true ts = ts.filter fun t => t.kind ≠ .comment := by
  constructor
  · exact List.filter_eq_self.mpr fun t _ => rfl
  · refine List.filter_congr fun t _ => ?_
    by_cases hk : t.kind = .comment <;> simp [hk]

theorem dumps_of_ok (hrun : run fs s = runSource s content)
    (h : tokenize .standard content (fileName? s.source) = .ok ts) :
    (perform fr fs directives? s).Dumps s.skipComments (fr.choose directives? s.verbose) ts := by
  rw [perform, hrun, runSource_of_ok h, log_tokenizeLogged, h]
  refine ⟨rfl, ⟨shown s.skipComments ts, ?_, ?_, rfl, ?_⟩, rfl, ?_, ?_, ?_⟩
  · intro hskip
    rw [hskip, (shown_eq ts).1]
  · intro hskip
    rw [hskip, (shown_eq ts).2]
  · have hlines : ∀ l ∈ (shown s.skipComments ts).map Token.dumpLine, '\n' ∉ l :=
      List.forall_mem_map.mpr fun t _ => t.newline_not_mem_dumpLine
    exact (Text.count_newline_unlines hlines).trans (List.length_map _)
  · intro n hn
    simp only [List.mem_filter] at hn
    rcases hn with ⟨hn, -⟩ | ⟨hn, -⟩
    · simpa using hn
    · simpa using hn
  · intro hkeep
    simp [hkeep]
  · intro hkeep
    simp [hkeep]

theorem reports_of_error (hrun : run fs s = runSource s content)
    (h : tokenize .standard content (fileName? s.source) = .error e) :
    (perform fr fs directives? s).Reports s.source content e := by
  obtain ⟨i, c, v, hdrop, -, -, rfl⟩ := exists_stuck_of_tokenize h
  have hlt : i < content.length := by
    by_contra hle
    rw [List.drop_eq_nil_of_le (Nat.le_of_not_lt hle)] at hdrop
    cases hdrop
  have hfile (name : Text) (hname : IsFileName s.source name) : (fileName? s.source).getD Lexer.unnamed = name := by
    rw [hname.fileName?_eq, Option.getD_some]
  obtain ⟨before, line, removed, text, margin, shown, marked, hline, hfrom, hto, hdisplays, hprint⟩ :=
    LexError.print_of_lt (e := ⟨c :: v, ⟨i, i + v.length⟩, (fileName? s.source).getD Lexer.unnamed⟩) hlt
  rw [perform, hrun, runSource_of_error h]
  split at hprint
  · rename_i hnear
    rw [hprint]
    exact ⟨rfl, hfile, .inl ⟨_, hprint, rfl, rfl⟩, before, line, removed, text, hline, hfrom, hto, hdisplays.trims,
      iff_of_true rfl hnear⟩
  · rename_i hfar
    rw [hprint]
    exact ⟨rfl, hfile, .inr ⟨hprint, rfl, rfl⟩, before, line, removed, text, hline, hfrom, hto, hdisplays.trims,
      iff_of_false (by simp) hfar⟩

theorem refuses_of_error {why : Text} (h : fs.readText s.source = .error why) :
    (perform fr fs directives? s).Refuses s.source why := by
  rw [perform, run, h]
  exact ⟨rfl, rfl, by simp [Text.unlines]⟩

/-- A command line that asks for a run prints the tokens of the file or reports its lexical error, and never both; a file that
    cannot be read or holds no text is refused. How the run ends and what it prints are the same for all command lines that agree
    on the path and on whether comments are skipped, whatever is logged. -/
theorem execute_of_file {ε : Type} (readArgs : (Text → Except Text Text) → Except ε Settings) (fr : FilterReader) (fs : Files)
    (directives? : Option Text) {s : Settings} (hargs : readArgs fs.check = .ok s) :
    ∃ o, execute readArgs fr fs directives? = .ok o ∧
      (∀ content ts, fs.read s.source = .ok content.utf8Encode → tokenize .standard content (fileName? s.source) = .ok ts →
        o.Dumps s.skipComments (fr.choose directives? s.verbose) ts) ∧
      (∀ content e, fs.read s.source = .ok content.utf8Encode → tokenize .standard content (fileName? s.source) = .error e →
        o.Reports s.source content e) ∧
      (∀ bytes, fs.read s.source = .ok bytes → (∀ content : Text, bytes ≠ content.utf8Encode) →
        o.Refuses s.source "stream did not contain valid UTF-8".toList) ∧
      (∀ why, fs.read s.source = .error why → o.Refuses s.source why) ∧
      ∀ (readArgs' : (Text → Except Text Text) → Except ε Settings) (fr' : FilterReader) (directives?' : Option Text)
        (s' : Settings), readArgs' fs.check = .ok s' → s'.source = s.source → s'.skipComments = s.skipComments →
          ∃ o', execute readArgs' fr' fs directives?' = .ok o' ∧ o'.toPrinted = o.toPrinted := by
  refine ⟨_, execute_of_args fr directives? hargs, ?_, ?_, ?_, ?_, ?_⟩
  · intro content ts hread hok
    exact dumps_of_ok (run_of_utf8 hread) hok
  · intro content e hread herror
    exact reports_of_error (run_of_utf8 hread) herror
  · intro bytes hread hnone
    exact refuses_of_error (Files.readText_of_not_utf8 hread hnone)
  · intro why hread
    exact refuses_of_error (Files.readText_of_error hread)
  · intro readArgs' fr' directives?' s' hargs' hsource hskip
    refine ⟨_, execute_of_args fr' directives?' hargs', ?_⟩
    rw [perform, perform, run_congr hsource hskip]

/-- A run that skips the comment counts it nevertheless. -/
theorem execute_of_file_comment :
    let path := "lib/a.su".toList
    let content := "x // y\n".toList
    let fs : Files := ⟨fun p => p == path, fun p => if p = path then .ok content.utf8Encode else .error "no such file".toList⟩
    let readArgs (check : Text → Except Text Text) : Except Text Settings := return ⟨true, false, true, ← check path⟩
    ∃ o, execute readArgs .ofWords fs none = .ok o ∧ o.ending = .exit 0 ∧ o.stderr = [] ∧ o.stdout.count '\n' = 1 ∧
      .summary 2 ∈ o.log := by
  intro path content fs readArgs
  have hread : fs.read path = .ok content.utf8Encode := rfl
  obtain ⟨o, hexecute, hdumps, -⟩ := execute_of_file readArgs .ofWords fs none (s := ⟨true, false, true, path⟩) rfl
  have hdump := hdumps content [⟨.identifier, ['x'], ⟨0, 0⟩⟩, ⟨.comment, "// y\n".toList, ⟨2, 6⟩⟩] hread rfl
  obtain ⟨printed, -, hprinted, -, hcount⟩ := hdump.stdout
  rw [hprinted rfl] at hcount
  exact ⟨o, hexecute, hdump.ending, hdump.stderr, hcount, hdump.summary rfl⟩

/-- A word behind which no token starts. -/
theorem tokenize_replicate (n : Nat) (file? : Option Text) :
    tokenize .standard ('x' :: (List.replicate n 'x' ++ ['@'])) file? =
      .error ⟨['@'], ⟨n + 1, n + 1⟩, file?.getD Lexer.unnamed⟩ := by
  have hword : ∀ d ∈ List.replicate n 'x', isWordChar d = true := by
    intro d hd
    rw [List.eq_of_mem_replicate hd]
    rfl
  have hbool (u t : Text) (_ : List.replicate n 'x' = u ++ t) : RuleTable.standard.isBool ('x' :: u) = false := by
    rw [Bool.eq_false_iff, ne_eq, RuleTable.isBool_iff]
    simp
  have hcut : RuleTable.standard.Cuts 'x' (List.replicate n 'x') _ ['@'].head? :=
    cuts_run rfl hword (by simp [isWordChar]) hbool
  have hstuck : RuleTable.standard.Stuck '@' [] := ⟨trivial, rfl⟩
  have herror (p : Nat) : Lexes .standard (file?.getD Lexer.unnamed) p ['@'] _ := .error rfl hstuck
  rw [tokenize_of_lexes (.token rfl hcut (herror _))]
  simp [tokensOf, Except.map]

/-- The report of an error behind a long word is a panic. -/
theorem ending_of_replicate {n : Nat} (hn : Text.maxWidth ≤ n + 1) (s : Settings) :
    (runSource s ('x' :: (List.replicate n 'x' ++ ['@']))).result.ending = .panic Text.Overwide.overwide.message := by
  have hline : '\n' ∉ 'x' :: (List.replicate n 'x' ++ ['@']) := by simp [List.mem_replicate]
  have hlength : n + 1 < ('x' :: (List.replicate n 'x' ++ ['@'])).length := by simp
  have hprint := LexError.print_of_wide (e := ⟨['@'], ⟨n + 1, n + 1⟩, (fileName? s.source).getD Lexer.unnamed⟩)
    (by decide) hline hlength hn
  rw [runSource_of_error (tokenize_replicate n (fileName? s.source)), hprint]

/-- Not every lexical error makes the program exit by itself: the line may be too long for its report. -/
theorem not_forall_execute_of_file : ¬∀ (readArgs : (Text → Except Text Text) → Except Text Settings) (fr : FilterReader)
    (fs : Files) (directives? : Option Text) (s : Settings) (content : Text) (e : LexError), readArgs fs.check = .ok s →
    fs.read s.source = .ok content.utf8Encode → tokenize .standard content (fileName? s.source) = .error e →
    ∃ o, execute readArgs fr fs directives? = .ok o ∧ o.ending = .exit 1 := by
  intro h
  -- the word has 65535 letters; its length stays a variable, so that nothing unfolds the text
  have hlong (n : Nat) (hn : Text.maxWidth ≤ n + 1) : False := by
    let content : Text := 'x' :: (List.replicate n 'x' ++ ['@'])
    let fs : Files := ⟨fun _ => true, fun _ => .ok content.utf8Encode⟩
    let s : Settings := ⟨false, false, false, "a.su".toList⟩
    have hread : fs.read s.source = .ok content.utf8Encode := rfl
    obtain ⟨o, ho, hexit⟩ := h (fun _ => .ok s) .ofWords fs none s content _ rfl hread (tokenize_replicate n _)
    rw [execute_of_args .ofWords none rfl, Except.ok.injEq] at ho
    rw [← ho, perform, run_of_utf8 hread, ending_of_replicate hn] at hexit
    cases hexit
  exact hlong 65534 (Nat.le_refl 65535)

end Cli

end Munch
