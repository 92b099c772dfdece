import Munch.Cli.Run

/-! Log filters: which records the word for a level keeps, what is documented of a reader of filters, and the filter that a run
    chooses. -/

namespace Munch

namespace Log

/-- The word for a level in a log filter. -/
def Level.word : Level → Text
  | error => "error".toList
  | warn => "warn".toList
  | info => "info".toList
  | debug => "debug".toList
  | trace => "trace".toList

/-- The levels that are as grave as a level or graver. -/
def Level.upTo : Level → List Level
  | error => [error]
  | warn => [error, warn]
  | info => [error, warn, info]
  | debug => [error, warn, info, debug]
  | trace => [error, warn, info, debug, trace]

theorem mem_upTo_trace (l : Level) : l ∈ Level.trace.upTo := by
  cases l <;> simp [Level.upTo]

end Log

namespace Cli.FilterReader

/-- What is documented of a reader of log filters: the word for a level keeps the records of the levels up to it, `off` keeps
    none, and where nothing is wrong nothing is passed over. -/
structure Lawful (fr : FilterReader) : Prop where
  word : ∀ l : Log.Level, ∃ keeps, fr.read? l.word = some keeps ∧ ∀ r, keeps r = true ↔ r.level ∈ l.upTo
  off : ∃ keeps, fr.read? "off".toList = some keeps ∧ ∀ r, keeps r = false
  lossy : ∀ w keeps, fr.read? w = some keeps → fr.lossy w = keeps

/-- A reader that knows the words for the levels, the word `off`, and no others. -/
def ofWords : FilterReader :=
  let read? (w : Text) : Option Filter :=
    if w = "off".toList then some fun _ => false
    else (Log.Level.trace.upTo.find? fun l => l.word == w).map fun l r => l.upTo.contains r.level
  ⟨read?, fun w => (read? w).getD fun _ => false⟩

theorem ofWords_lawful : ofWords.Lawful where
  word l := ⟨fun r => l.upTo.contains r.level, by cases l <;> rfl, fun r => List.contains_iff_mem⟩
  off := ⟨_, rfl, fun _ => rfl⟩
  lossy w keeps h := by
    have hlossy : ofWords.lossy w = (ofWords.read? w).getD fun _ => false := rfl
    rw [hlossy, h, Option.getD_some]

variable {fr : FilterReader} {directives? : Option Text} {w : Text} {keeps : Filter}

theorem choose_of_read (hw : directives? = some w) (hkeeps : fr.read? w = some keeps) (verbose : Bool) :
    fr.choose directives? verbose = keeps := by
  rw [choose, hw, Option.bind_some, hkeeps]

/-- Without a filter that can be read, the word for one of two levels is read in its place. -/
theorem Lawful.read_choose (hfr : fr.Lawful) (h : directives?.bind fr.read? = none) (verbose : Bool) :
    fr.read? (Log.Level.word (if verbose then .debug else .info)) = some (fr.choose directives? verbose) := by
  obtain ⟨keeps, hread, -⟩ := hfr.word (if verbose then .debug else .info)
  have hlossy := hfr.lossy _ _ hread
  rw [hread, choose, h]
  cases verbose <;> exact congrArg some hlossy.symm

end Cli.FilterReader

end Munch
