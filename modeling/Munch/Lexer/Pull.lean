import Munch.Lexer.Basic

/-! Taking items from a lexer: a number of them, all of them, or up to a token of some kind; and the tokens of a
    whole source at once. -/

namespace Munch

/-- The tokens of a sequence of items, or the first error among them. -/
def tokensOf : List Item → Except LexError (List Token)
  | [] => .ok []
  | .error e :: _ => .error e
  | .token t :: is => (tokensOf is).map (t :: ·)

/-- Whether an item is an error. -/
def Item.isError : Item → Bool
  | .error _ => true
  | .token _ => false

/-- Whether an item is a token of kind `k`. -/
def Item.isKind (k : Kind) : Item → Bool
  | .error _ => false
  | .token t => t.kind == k

namespace Lexer

/-- The items of at most `n` calls of `next`, and the lexer after them. There are no more calls after the first
    item that satisfies `stop`, or when no item is left. -/
def pullLogged (stop : Item → Bool) : (n : Nat) → Lexer → Logged (List Item × Lexer)
  | 0, lx => return ([], lx)
  | n + 1, lx => do
    match ← lx.nextLogged with
    | (none, lx') => return ([], lx')
    | (some i, lx') =>
      if stop i then return ([i], lx')
      else
        let (is, lx'') ← pullLogged stop n lx'
        return (i :: is, lx'')

/-- What pulling comes to. -/
def pull (stop : Item → Bool) (n : Nat) (lx : Lexer) : List Item × Lexer := (lx.pullLogged stop n).result

theorem pull_succ (stop : Item → Bool) (n : Nat) (lx : Lexer) : lx.pull stop (n + 1) =
    match lx.next with
    | (none, lx') => ([], lx')
    | (some i, lx') => if stop i then ([i], lx') else (i :: (lx'.pull stop n).1, (lx'.pull stop n).2) := by
  simp only [pull, pullLogged, next, Logged.result_bind]
  split
  · rfl
  · split <;> rfl

/-- A number of calls after which a lexer has no item left: each item takes a character. -/
def calls (lx : Lexer) : Nat := lx.rest.length + 1

/-- The next tokens, at most `n`, or the error met among them. -/
def takeLogged (n : Nat) (lx : Lexer) : Logged (Except LexError (List Token) × Lexer) := do
  let (is, lx') ← lx.pullLogged Item.isError n
  return (tokensOf is, lx')

/-- All tokens that are left, or the error that ends them. -/
def collectLogged (lx : Lexer) : Logged (Except LexError (List Token) × Lexer) := lx.takeLogged lx.calls

/-- What taking comes to. -/
def take (n : Nat) (lx : Lexer) : Except LexError (List Token) × Lexer := (lx.takeLogged n).result

/-- What collecting comes to. -/
def collect (lx : Lexer) : Except LexError (List Token) × Lexer := lx.collectLogged.result

theorem take_eq_pull (n : Nat) (lx : Lexer) :
    lx.take n = (tokensOf (lx.pull Item.isError n).1, (lx.pull Item.isError n).2) := rfl

theorem collect_eq_take (lx : Lexer) : lx.collect = lx.take lx.calls := rfl

/-- The next token of kind `k`, or the error met before it. The items before are lost. -/
def find? (k : Kind) (lx : Lexer) : Option Item × Lexer :=
  let wanted (i : Item) := i.isError || i.isKind k
  let (is, lx') := lx.pull wanted lx.calls
  (is.getLast?.filter wanted, lx')

/-- All items that are left. -/
def items (lx : Lexer) : List Item := (lx.pull (fun _ => false) lx.calls).1

end Lexer

/-- The tokens of a source, or its lexical error. The work on the source is recorded at its start, and at its end when
    there was no error. -/
def tokenizeLogged (rules : RuleTable) (source : Text) (file? : Option Text) :
    Logged (Except LexError (List Token)) := do
  let lx := Lexer.ofSource rules source file?
  Logged.write (.tokenizing lx.file source.length)
  match (← lx.collectLogged).1 with
  | .error e => return .error e
  | .ok ts =>
    Logged.write (.tokenized ts.length)
    return .ok ts

/-- The tokens of a source, or its lexical error. -/
def tokenize (rules : RuleTable) (source : Text) (file? : Option Text) : Except LexError (List Token) :=
  (tokenizeLogged rules source file?).result

theorem tokenize_eq_collect (rules : RuleTable) (source : Text) (file? : Option Text) :
    tokenize rules source file? = (Lexer.ofSource rules source file?).collect.1 := by
  simp only [tokenize, tokenizeLogged, Lexer.collect, Logged.result_bind]
  split <;> simp [*]

end Munch
