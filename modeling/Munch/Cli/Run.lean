import Munch.Cli.Path
import Munch.Dump
import Munch.Lexer.Pull
import Munch.Report

/-! The program: it reads a source, prints one line per token or reports the first lexical error, and keeps a log. The
    files and the readers of command lines and of log filters come from outside. -/

namespace Munch.Cli

/-- What a command line asks for. -/
structure Settings where
  verbose : Bool
  noColor : Bool
  skipComments : Bool
  source : Text
deriving DecidableEq, Repr

/-! ### Files -/

/-- Files: whether a path is that of a file, and its bytes, or why they cannot be read. -/
structure Files where
  isFile : Text → Bool
  read : Text → Except Text ByteArray

namespace Files

/-- The check of the operand, which must be the path of a file. -/
def check (fs : Files) (path : Text) : Except Text Text :=
  if fs.isFile path then .ok path else .error ("no such file: '".toList ++ path ++ ['\x27'])

/-- The text in a file, or why it cannot be read. -/
def readText (fs : Files) (path : Text) : Except Text Text := do
  match Text.ofUtf8? (← fs.read path) with
  | some content => return content
  | none => throw "stream did not contain valid UTF-8".toList

end Files

/-! ### The log -/

/-- Which records are kept. -/
abbrev Filter := Log.Record → Bool

/-- A reader of log filters. A text that is wrong as a filter is refused by `read?`; `lossy` passes over what is wrong
    in it. -/
structure FilterReader where
  read? : Text → Option Filter
  lossy : Text → Filter

/-- The filter of a run: as the variable says, if it is set and can be read, or else one for verbose runs and one for
    all others. -/
def FilterReader.choose (fr : FilterReader) (directives? : Option Text) (verbose : Bool) : Filter :=
  match directives?.bind fr.read? with
  | some keeps => keeps
  | none => fr.lossy (if verbose then "debug".toList else "info".toList)

/-! ### Runs -/

/-- How a run ends: by itself with a code, or in a panic, which is announced behind all that has been printed. -/
inductive Ending where
  | exit (code : Nat)
  | panic (message : Text)
deriving DecidableEq, Repr

/-- How a run ends, and what it has printed on its two outputs before. -/
structure Printed where
  ending : Ending
  stdout : Text
  stderr : Text
deriving DecidableEq, Repr

/-- The tokens that are printed. -/
def shown (skipComments : Bool) (ts : List Token) : List Token :=
  ts.filter fun t => !(skipComments && t.kind == .comment)

/-- The run on a source that has been read, under the standard rules. A lexical error leaves the first output empty; its
    message has been printed when its report cannot be. -/
def runSource (s : Settings) (source : Text) : Logged Printed := do
  match ← tokenizeLogged .standard source (fileName? s.source) with
  | .ok ts =>
    Logged.write (.summary ts.length)
    let lines := (shown s.skipComments ts).map Token.dumpLine
    Logged.write .totalTime
    return ⟨.exit 0, Text.unlines lines, []⟩
  | .error e =>
    let message := Text.unlines [e.message]
    match e.print source with
    | .ok report => return ⟨.exit 1, [], message ++ report⟩
    | .error o => return ⟨.panic o.message, [], message⟩

/-- The run on a file. -/
def run (fs : Files) (s : Settings) : Logged Printed :=
  match fs.readText s.source with
  | .ok source => runSource s source
  | .error why =>
    return ⟨.exit 1, [], Text.unlines ["Error: Couldn't read file from path ".toList ++ ['\x60'] ++ s.source ++ ['\x60']
      ++ ": ".toList ++ why]⟩

/-- What the program leaves: a run, and of its log the records that are kept, in colour or not. -/
structure Outcome extends Printed where
  log : List Log.Record
  inColor : Bool
deriving DecidableEq, Repr

/-- The program behind the reading of its command line. -/
def perform (fr : FilterReader) (fs : Files) (directives? : Option Text) (s : Settings) : Outcome :=
  let x := run fs s
  ⟨x.result, x.log.filter (fr.choose directives? s.verbose), !s.noColor⟩

/-- The program. The reader of the command line is given the check of the operand; what it answers to a command line
    that asks for no run is its own. -/
def execute {ε : Type} (readArgs : (Text → Except Text Text) → Except ε Settings) (fr : FilterReader) (fs : Files)
    (directives? : Option Text) : Except ε Outcome := do
  let s ← readArgs fs.check
  return perform fr fs directives? s

end Munch.Cli
