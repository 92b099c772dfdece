import Munch.Proofs.Stream

/-! The records of a scan. A call of `next` records the token that it hands out and nothing else, so whatever is pulled from a
    lexer, its records are the tokens among the items, in their order. A candidate that goes on growing leaves no record. -/

namespace Munch

/-- The token that an item is. -/
def Item.token? : Item → Option Token
  | .token t => some t
  | .error _ => none

theorem filterMap_token?_map (ts : List Token) : (ts.map Item.token).filterMap Item.token? = ts := by
  rw [List.filterMap_map]
  exact List.filterMap_some

namespace Lexer
variable {stop : Item → Bool}

/-! ### Records of the way -/

/-- A scan records the token that it ends with. The induction is on the turns of its loop: all but the last one write nothing. -/
theorem log_scanLogged (rules : RuleTable) (file : Text) (start : Nat) (w rest : Text) :
    (scanLogged rules file start w rest).log =
      ((scan rules file start w rest).1.bind Item.token?).toList.map .dispatched := by
  induction rest generalizing start w with
  | nil => rfl
  | cons c rest ih =>
    rw [scan_cons, scanLogged]
    cases rules.verdict w c rest.head? with
    | skip => exact ih _ _
    | grow => exact ih _ _
    | emit k => rfl
    | reject => rfl

/-- A call records the token that it hands out. -/
theorem log_nextLogged (lx : Lexer) :
    lx.nextLogged.log = (lx.next.1.bind Item.token?).toList.map .dispatched := by
  cases hf : lx.failed with
  | true =>
    rw [next_of_failed hf, nextLogged, if_pos hf]
    rfl
  | false => rw [next_of_not_failed hf, nextLogged, if_neg (by simp [hf]), log_scanLogged]

/-- A call writes a record iff it hands out a token, and then the record of that token and no other one. -/
theorem log_nextLogged_eq_iff (lx : Lexer) :
    (∀ t, lx.nextLogged.log = [.dispatched t] ↔ lx.next.1 = some (.token t)) ∧
      (lx.nextLogged.log = [] ↔ ∀ t, lx.next.1 ≠ some (.token t)) := by
  rw [log_nextLogged]
  match lx.next.1 with
  | none => simp
  | some (.token u) => simp [Item.token?]
  | some (.error e) => simp [Item.token?]

/-- Pulling records the tokens among the items. -/
theorem log_pullLogged (n : Nat) (lx : Lexer) :
    (lx.pullLogged stop n).log = ((lx.pull stop n).1.filterMap Item.token?).map .dispatched := by
  induction n generalizing lx with
  | zero => rfl
  | succ n ih =>
    rcases hnext : lx.next with ⟨i?, lx'⟩
    have hresult : lx.nextLogged.result = (i?, lx') := hnext
    rw [pull_succ, pullLogged, Logged.log_bind, log_nextLogged, hresult, hnext]
    cases i? with
    | none => rfl
    | some i =>
      cases hi : stop i with
      | true => cases i <;> simp [hi, Item.token?]
      | false => cases i <;> simp [hi, Item.token?, List.filterMap_cons, ih, pull]

/-- Collecting records the tokens among the items of a source. -/
theorem log_collectLogged (r : RuleTable) (source : Text) (file? : Option Text) :
    (ofSource r source file?).collectLogged.log =
      ((ofSource r source file?).items.filterMap Item.token?).map .dispatched := by
  have h := lexes_items r source file?
  rw [collectLogged, takeLogged, Logged.log_bind, log_pullLogged, Logged.log_pure, List.append_nil]
  rw [ofSource_eq_between] at h ⊢
  rw [pull_calls_of_lexes (fun _ => rfl) h]

end Lexer

/-! ### Records of a source -/

/-- The records of the tokens come behind one of the start, and before one of the end when there was no error. -/
theorem log_tokenizeLogged (r : RuleTable) (source : Text) (file? : Option Text) :
    (tokenizeLogged r source file?).log =
      .tokenizing (file?.getD Lexer.unnamed) source.length ::
        ((Lexer.ofSource r source file?).items.filterMap Item.token?).map .dispatched ++
          match tokenize r source file? with
          | .ok ts => [.tokenized ts.length]
          | .error _ => [] := by
  have hfile : (Lexer.ofSource r source file?).file = file?.getD Lexer.unnamed := rfl
  have hanswer : (Lexer.ofSource r source file?).collectLogged.result.1 = tokenize r source file? :=
    (tokenize_eq_collect r source file?).symm
  simp only [tokenizeLogged, Logged.log_bind, Logged.log_write, Lexer.log_collectLogged, hfile, hanswer]
  cases tokenize r source file? <;> simp

end Munch
