import Munch.Classify
import Munch.LexError
import Munch.Log

/-! The lexer. It lets a candidate grow one character at a time and hands it out as a token at the first
    character where the candidate has a kind and the candidate one character longer would be of another. One
    character of lookahead decides, so a lexer keeps the candidate and the characters that remain, and it hands
    out one item at a time. -/

namespace Munch

/-- The blanks that separate tokens and belong to none. A newline is a token of its own. -/
def isBlank (c : Char) : Bool :=
  c == ' ' || c == '\t' || c == '\x0b' || c == '\x0c' || c == '\r'

/-- What becomes of the character at the cursor: it is skipped between tokens, the candidate grows by it, it
    ends a token, or it is the last one of the source and ends a candidate of no kind. -/
inductive Verdict where
  | skip
  | grow
  | emit (kind : Kind)
  | reject
deriving DecidableEq, Repr

namespace RuleTable

/-- Whether a candidate of kind `k` goes on growing to the text `longer`. The opener of a comment is never cut,
    and otherwise the two kinds must agree. -/
def growsTo (r : RuleTable) (k : Kind) (longer : Text) : Bool :=
  r.isCommentOpener longer || (r.classify longer).any k.continuesAs

/-- The verdict on the character `c` after the candidate `w`, with `next?` the character after `c`. A candidate
    of no kind grows as long as there are characters. -/
def verdict (r : RuleTable) (w : Text) (c : Char) (next? : Option Char) : Verdict :=
  if w.isEmpty && isBlank c then .skip
  else match r.classify (w ++ [c]), next? with
    | none, none => .reject
    | none, some _ => .grow
    | some k, none => .emit k
    | some k, some d => if r.growsTo k (w ++ [c, d]) then .grow else .emit k

end RuleTable

/-- What a lexer hands out: a token, or the error that ends its work. -/
inductive Item where
  | token (t : Token)
  | error (e : LexError)
deriving DecidableEq, Repr

/-- A lexer at work. The candidate starts at position `start`, and `rest` starts with the character at the
    cursor. A lexer that has failed hands out nothing more. -/
structure Lexer where
  rules : RuleTable
  file : Text
  start : Nat
  candidate : Text
  rest : Text
  failed : Bool
deriving DecidableEq, Repr

namespace Lexer

/-- A source that comes from no file is called `shell`. -/
def unnamed : Text := "shell".toList

/-- A lexer at the start of a source. -/
def ofSource (rules : RuleTable) (source : Text) (file? : Option Text) : Lexer where
  rules := rules
  file := file?.getD unnamed
  start := 0
  candidate := []
  rest := source
  failed := false

/-- The position of the character that is looked at next. -/
def cursor (lx : Lexer) : Nat := lx.start + lx.candidate.length

/-- Whether the cursor is past the last character. -/
def atEof (lx : Lexer) : Bool := lx.rest.isEmpty

/-- Ends a candidate of kind `k`: it becomes a token, which is recorded. -/
def dispatch (k : Kind) (value : Text) (span : Span) : Logged Token := do
  let t : Token := ⟨k, value, span⟩
  Logged.write (.dispatched t)
  return t

/-- Goes on from a candidate `w` that starts at `start`, until a token ends, the source ends between tokens,
    or the last character rejects the candidate. After a rejection the cursor stays at the last character. -/
def scanLogged (rules : RuleTable) (file : Text) : (start : Nat) → (w rest : Text) → Logged (Option Item × Lexer)
  | start, w, [] => return (none, ⟨rules, file, start, w, [], false⟩)
  | start, w, c :: rest =>
    match rules.verdict w c rest.head? with
    | .skip => scanLogged rules file (start + 1) [] rest
    | .grow => scanLogged rules file start (w ++ [c]) rest
    | .emit k => do
      let t ← dispatch k (w ++ [c]) ⟨start, start + w.length⟩
      return (some (.token t), ⟨rules, file, start + w.length + 1, [], rest, false⟩)
    | .reject =>
      return (some (.error ⟨w ++ [c], ⟨start, start + w.length⟩, file⟩), ⟨rules, file, start, w, c :: rest, true⟩)

/-- The next item, if there is one, and the lexer after it. -/
def nextLogged (lx : Lexer) : Logged (Option Item × Lexer) :=
  if lx.failed then return (none, lx) else scanLogged lx.rules lx.file lx.start lx.candidate lx.rest

/-- What a scan comes to. -/
def scan (rules : RuleTable) (file : Text) (start : Nat) (w rest : Text) : Option Item × Lexer :=
  (scanLogged rules file start w rest).result

/-- What a call of `next` comes to. -/
def next (lx : Lexer) : Option Item × Lexer := lx.nextLogged.result

section
variable {rules : RuleTable} {file w rest : Text} {start : Nat} {c : Char} {lx : Lexer}

theorem scan_cons : scan rules file start w (c :: rest) =
    match rules.verdict w c rest.head? with
    | .skip => scan rules file (start + 1) [] rest
    | .grow => scan rules file start (w ++ [c]) rest
    | .emit k =>
      (some (.token ⟨k, w ++ [c], ⟨start, start + w.length⟩⟩), ⟨rules, file, start + w.length + 1, [], rest, false⟩)
    | .reject =>
      (some (.error ⟨w ++ [c], ⟨start, start + w.length⟩, file⟩), ⟨rules, file, start, w, c :: rest, true⟩) := by
  rw [scan, scanLogged]
  cases rules.verdict w c rest.head? <;> rfl

theorem next_of_failed (h : lx.failed = true) : lx.next = (none, lx) := by
  rw [next, nextLogged, if_pos h]
  rfl

theorem next_of_not_failed (h : lx.failed = false) :
    lx.next = scan lx.rules lx.file lx.start lx.candidate lx.rest := by
  rw [next, nextLogged, if_neg (by simp [h]), scan]

end

end Lexer

end Munch
