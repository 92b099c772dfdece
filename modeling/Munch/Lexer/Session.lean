import Munch.Lexer.Pull

/-! Sessions: scripts of steps on any number of lexers. Lexers are numbered in the order in which steps open or
    clone them, and a step changes at most the lexer that it names. -/

namespace Munch

/-- One step of a script. All steps but the first kind name a lexer by its number. -/
inductive Command where
  | create (rules : RuleTable) (source : Text) (file? : Option Text)
  | clone (lexer : Nat)
  | file (lexer : Nat)
  | next (lexer : Nat)
  | take (lexer n : Nat)
  | collect (lexer : Nat)
  | find (lexer : Nat) (kind : Kind)
deriving DecidableEq, Repr

/-- What a step answers. -/
inductive Answer where
  | lexer (number : Nat)
  | file (name : Text)
  | item (item? : Option Item)
  | tokens (result : Except LexError (List Token))
  | noLexer (number : Nat)

/-- The lexers of a session, in the order of their numbers. -/
abbrev Session := List Lexer

/-- An answer, and whether the lexer that was named is at the end of its source after the step. -/
structure Reply where
  answer : Answer
  atEof : Bool

namespace Session

/-- Applies `f` to the lexer with number `i`, and keeps the lexer that `f` leaves. -/
def update (s : Session) (i : Nat) (f : Lexer → Answer × Lexer) : Reply × Session :=
  match s[i]? with
  | none => (⟨.noLexer i, false⟩, s)
  | some lx =>
    let (answer, lx') := f lx
    (⟨answer, lx'.atEof⟩, s.set i lx')

/-- A session with one more lexer, which gets the next number. -/
def push (s : Session) (lx : Lexer) : Reply × Session := (⟨.lexer s.length, lx.atEof⟩, s ++ [lx])

/-- Runs one step. -/
def step (s : Session) : Command → Reply × Session
  | .create rules source file? => s.push (Lexer.ofSource rules source file?)
  | .clone i =>
    match s[i]? with
    | none => (⟨.noLexer i, false⟩, s)
    | some lx => s.push lx
  | .file i => s.update i fun lx => (.file lx.file, lx)
  | .next i => s.update i fun lx => let (i?, lx') := lx.next; (.item i?, lx')
  | .take i n => s.update i fun lx => let (r, lx') := lx.take n; (.tokens r, lx')
  | .collect i => s.update i fun lx => let (r, lx') := lx.collect; (.tokens r, lx')
  | .find i k => s.update i fun lx => let (i?, lx') := lx.find? k; (.item i?, lx')

/-- Runs a script and lists the replies. -/
def run (s : Session) : List Command → List Reply
  | [] => []
  | c :: cs =>
    let (reply, s') := s.step c
    reply :: run s' cs

end Session

end Munch
