import Munch.Proofs.Calls
import Munch.Proofs.Cli.Filters
import Munch.Proofs.Cli.Run
import Munch.Proofs.Partition

/-! The log of a run. A scan is told by one record per token that the lexer hands out, between a record of its start and, when all
    went well, three of its end. Of these records a level keeps those that are grave enough, and changes none. -/

namespace Munch

namespace Log

/-- The records of the end of a run, which are left out after an error. -/
def atEnd (e? : Option LexError) (rs : List Record) : List Record :=
  match e? with
  | none => rs
  | some _ => []

/-- The log that a level leaves of a run on a source of `chars` characters, from which the lexer hands out the tokens `ts`, and
    then the error `e?` if there is one. -/
def told (file : Text) (chars : Nat) (ts : List Token) (e? : Option LexError) : Level → List Record
  | .error | .warn => []
  | .info => atEnd e? [.summary ts.length]
  | .debug => .tokenizing file chars :: atEnd e? [.tokenized ts.length, .summary ts.length, .totalTime]
  | .trace =>
    .tokenizing file chars :: ts.map .dispatched ++ atEnd e? [.tokenized ts.length, .summary ts.length, .totalTime]

/-- Each level leaves the records that are as grave as it is or graver, in their order. -/
theorem told_eq_filter (file : Text) (chars : Nat) (ts : List Token) (e? : Option LexError) (l : Level) :
    told file chars ts e? l = (told file chars ts e? .trace).filter fun r => decide (r.level ∈ l.upTo) := by
  cases l with
  | trace => exact (List.filter_eq_self.mpr fun r _ => decide_eq_true (mem_upTo_trace r.level)).symm
  | _ => cases e? <;> simp [told, atEnd, Level.upTo, Record.level]

end Log

namespace Cli

variable {fr : FilterReader} {s : Settings} {content : Text} {ts : List Token} {e? : Option LexError}

/-- The log of a run, before a filter, is what the items of its lexer tell. -/
theorem log_runSource (h : (Lexer.ofSource .standard content (fileName? s.source)).items =
    ts.map Item.token ++ (e?.map Item.error).toList) :
    (runSource s content).log =
      Log.told ((fileName? s.source).getD Lexer.unnamed) content.length ts e? .trace := by
  have htokens := tokensOf_append_toList ts e?
  rw [← h, ← tokenize_eq_tokensOf_items] at htokens
  have hrecorded : (ts.map Item.token ++ (e?.map Item.error).toList).filterMap Item.token? = ts := by
    rw [List.filterMap_append, filterMap_token?_map]
    cases e? <;> exact List.append_nil ts
  cases e? with
  | none =>
    rw [runSource_of_ok htokens, log_tokenizeLogged, htokens, h, hrecorded]
    simp [Log.told, Log.atEnd]
  | some e =>
    rw [runSource_of_error htokens, log_tokenizeLogged, htokens, h, hrecorded]
    rfl

/-- The log is as `told` says of each level. A filter that can be read leaves the records that it keeps: the word for a level leaves
    those told of the level, and `off` none. Where no filter is set, or a wrong one, a verbose run leaves what is told of `debug`, and
    any other run what is told of `info`. -/
structure Outcome.Tells (o : Outcome) (fr : FilterReader) (directives? : Option Text) (verbose : Bool)
    (told : Log.Level → List Log.Record) : Prop where
  word : ∀ l : Log.Level, directives? = some l.word → o.log = told l
  off : directives? = some "off".toList → o.log = []
  other : ∀ w keeps, directives? = some w → fr.read? w = some keeps → o.log = (told .trace).filter keeps
  unset : directives? = none → o.log = told (if verbose then .debug else .info)
  wrong : ∀ w, directives? = some w → fr.read? w = none → o.log = told (if verbose then .debug else .info)

theorem FilterReader.Lawful.filter_told (hfr : fr.Lawful) {l : Log.Level} {keeps : Filter} (hkeeps : fr.read? l.word = some keeps)
    (file : Text) (chars : Nat) (ts : List Token) (e? : Option LexError) :
    (Log.told file chars ts e? .trace).filter keeps = Log.told file chars ts e? l := by
  obtain ⟨keeps', hread, hlevel⟩ := hfr.word l
  obtain rfl : keeps = keeps' := Option.some.inj (hkeeps.symm.trans hread)
  rw [Log.told_eq_filter _ _ _ _ l]
  exact List.filter_congr fun r _ => Bool.eq_iff_iff.mpr ((hlevel r).trans decide_eq_true_iff.symm)

/-- What is left of the records of a run by the filter that it chooses. -/
theorem FilterReader.Lawful.tells (hfr : fr.Lawful) {o : Outcome} {directives? : Option Text} {verbose : Bool} {file : Text}
    {chars : Nat} (h : o.log = (Log.told file chars ts e? .trace).filter (fr.choose directives? verbose)) :
    o.Tells fr directives? verbose (Log.told file chars ts e?) := by
  have hnone (hn : directives?.bind fr.read? = none) :
      o.log = Log.told file chars ts e? (if verbose then .debug else .info) := by
    rw [h, hfr.filter_told (hfr.read_choose hn verbose)]
  constructor
  case word =>
    intro l hl
    obtain ⟨keeps, hkeeps, -⟩ := hfr.word l
    rw [h, choose_of_read hl hkeeps, hfr.filter_told hkeeps]
  case off =>
    intro hoff
    obtain ⟨keeps, hkeeps, hnever⟩ := hfr.off
    rw [h, choose_of_read hoff hkeeps]
    exact List.filter_eq_nil_iff.mpr fun r _ => by simp [hnever r]
  case other =>
    intro w keeps hw hkeeps
    rw [h, choose_of_read hw hkeeps]
  case unset =>
    intro hunset
    exact hnone (by rw [hunset]; rfl)
  case wrong =>
    intro w hw hwrong
    exact hnone (by rw [hw, Option.bind_some, hwrong])

/-- A run tells what the calls of `next` hand out, one record per token in their order. Each level leaves those of the records
    that are as grave as it is or graver. -/
theorem log_of_calls {ε : Type} (readArgs : (Text → Except Text Text) → Except ε Settings) {fr : FilterReader} (hfr : fr.Lawful)
    (fs : Files) (directives? : Option Text) {s : Settings} {content : Text} (hargs : readArgs fs.check = .ok s)
    (hread : fs.read s.source = .ok content.utf8Encode) :
    ∃ (ts : List Token) (e? : Option LexError) (o : Outcome),
      (∀ n, (Lexer.ofSource .standard content (fileName? s.source)).call n =
        (ts.map Item.token ++ (e?.map Item.error).toList)[n]?) ∧
      execute readArgs fr fs directives? = .ok o ∧
      o.Tells fr directives? s.verbose (Log.told ((fileName? s.source).getD Lexer.unnamed) content.length ts e?) ∧
      ∀ l, Log.told ((fileName? s.source).getD Lexer.unnamed) content.length ts e? l =
        (Log.told ((fileName? s.source).getD Lexer.unnamed) content.length ts e? .trace).filter
          fun r => decide (r.level ∈ l.upTo) := by
  obtain ⟨gap, ps, e?, hitems, -⟩ := (lexes_items .standard content (fileName? s.source)).laid
  refine ⟨ps.map Prod.fst, e?, _, fun n => ?_, execute_of_args fr directives? hargs, hfr.tells ?_,
    Log.told_eq_filter _ _ _ _⟩
  · rw [Lexer.call_ofSource, hitems]
  · rw [perform, run_of_utf8 hread, log_runSource hitems]

/-- A run that fails tells the token before the error, and nothing of its end. -/
theorem log_of_calls_failed :
    let path := "a.su".toList
    let content := "x @".toList
    let fs : Files := ⟨fun p => p == path, fun p => if p = path then .ok content.utf8Encode else .error "no such file".toList⟩
    let readArgs (check : Text → Except Text Text) : Except Text Settings := return ⟨false, false, false, ← check path⟩
    ∃ o, execute readArgs .ofWords fs (some "trace".toList) = .ok o ∧
      o.log = [.tokenizing path 3, .dispatched ⟨.identifier, ['x'], ⟨0, 0⟩⟩] := by
  intro path content fs readArgs
  have hread : fs.read path = .ok content.utf8Encode := rfl
  obtain ⟨ts, e?, o, hcalls, hexecute, htells, -⟩ := log_of_calls readArgs FilterReader.ofWords_lawful fs
    (some "trace".toList) (s := ⟨false, false, false, path⟩) rfl hread
  refine ⟨o, hexecute, ?_⟩
  have hitems : ts.map Item.token ++ (e?.map Item.error).toList =
      [.token ⟨.identifier, ['x'], ⟨0, 0⟩⟩, .error ⟨['@'], ⟨2, 2⟩, path⟩] := by
    refine List.ext_getElem? fun n => ?_
    rw [← hcalls n, Lexer.call_ofSource]
    rfl
  have htokens := congrArg (List.filterMap Item.token?) hitems
  rw [List.filterMap_append, filterMap_token?_map] at htokens
  have herror := congrArg tokensOf hitems
  rw [tokensOf_append_toList] at herror
  cases e? with
  | none => cases herror
  | some e =>
    obtain rfl : ts = [⟨.identifier, ['x'], ⟨0, 0⟩⟩] := (List.append_nil ts).symm.trans htokens
    rw [htells.word .trace rfl]
    rfl

end Cli

end Munch
