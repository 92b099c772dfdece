import Munch.Proofs.Session.Pulling

/-! The courses of lexers through a script. A course says which stream of items its lexer reads, where in it the lexer
    entered, and what each step has taken from it since. Step by step the lexers of a session follow their courses:
    what was taken lies in the stream without a gap, and what is left of the stream is what the lexer has left. -/

namespace Munch

namespace Session
variable {s : Session} {c : Command} {i : Nat} {f : Lexer → Answer × Lexer}

/-- The lexers after a script. -/
def after (s : Session) (cs : List Command) : Session := cs.foldl (fun s c => (s.step c).2) s

theorem step_of_use (h : c.use? = some (i, f)) (s : Session) : s.step c = s.update i f := by
  cases c <;> cases h <;> rfl

theorem update_of_getElem? {lx : Lexer} (h : s[i]? = some lx) (f : Lexer → Answer × Lexer) :
    s.update i f = (⟨(f lx).1, (f lx).2.atEof⟩, s.set i (f lx).2) := by
  simp only [update, h]

theorem update_of_none (h : s[i]? = none) (f : Lexer → Answer × Lexer) :
    s.update i f = (⟨.noLexer i, false⟩, s) := by
  simp only [update, h]

end Session

/-- What a script has made of one lexer: what the lexer reads, and with which rules; how many items of its source came
    before it entered; and the items that each step on it has taken since then, whether the answer showed them or not. -/
structure Course where
  rules : RuleTable
  source : Text
  file? : Option Text
  entry : Nat
  segments : List (List Item)

namespace Course
variable {co : Course} {lx lx' : Lexer} {is : List Item}

/-- The name of the file that is read. -/
def name (co : Course) : Text := co.file?.getD Lexer.unnamed

/-- All items of the source. -/
def stream (co : Course) : List Item := (Lexer.ofSource co.rules co.source co.file?).items

/-- The place in the stream that is reached. -/
def position (co : Course) : Nat := co.entry + co.segments.flatten.length

/-- The course of a lexer that is opened on a source. -/
def ofSource (rules : RuleTable) (source : Text) (file? : Option Text) : Course := ⟨rules, source, file?, 0, []⟩

/-- The course of a clone, which enters the stream where its original stands. -/
def clone (co : Course) : Course := { co with entry := co.position, segments := [] }

/-- The course after a step that has taken the items `is`. -/
def record (co : Course) (is : List Item) : Course := { co with segments := co.segments ++ [is] }

/-- A lexer follows a course: the stream from its entry on is what the steps have taken, one after another, and then what
    the lexer has left. -/
structure Follows (co : Course) (lx : Lexer) : Prop where
  file : lx.file = co.name
  entry_le : co.entry ≤ co.stream.length
  split : co.stream.drop co.entry = co.segments.flatten ++ lx.items

theorem Follows.position_le (h : co.Follows lx) : co.position ≤ co.stream.length := by
  have hlen := congrArg List.length h.split
  have := h.entry_le
  rw [List.length_drop, List.length_append] at hlen
  rw [position]
  omega

theorem Follows.items_eq (h : co.Follows lx) : lx.items = co.stream.drop co.position := by
  rw [position, ← List.drop_drop, h.split, List.drop_left]

theorem follows_ofSource (rules : RuleTable) (source : Text) (file? : Option Text) :
    (ofSource rules source file?).Follows (Lexer.ofSource rules source file?) :=
  ⟨rfl, Nat.zero_le _, rfl⟩

theorem Follows.clone (h : co.Follows lx) : co.clone.Follows lx :=
  ⟨h.file, h.position_le, h.items_eq.symm⟩

theorem Follows.record (h : co.Follows lx) (hpulls : lx.Pulls is lx') : (co.record is).Follows lx' where
  file := by
    rw [hpulls.file_eq, h.file]
    rfl
  entry_le := h.entry_le
  split := by
    rw [Course.record, List.flatten_concat, List.append_assoc, ← hpulls.items_eq]
    exact h.split

end Course

/-- A session in which each lexer carries its course. -/
abbrev Chronicle := List (Lexer × Course)

namespace Chronicle
variable {ch : Chronicle} {c : Command}

/-- A step on a session that keeps the courses. -/
def step (ch : Chronicle) (c : Command) : Chronicle :=
  match c with
  | .create rules source file? => ch ++ [(Lexer.ofSource rules source file?, Course.ofSource rules source file?)]
  | .clone i => ch ++ (ch[i]?.map fun x => (x.1, x.2.clone)).toList
  | c =>
    match c.use? with
    | none => ch
    | some (i, f) =>
      match ch[i]? with
      | none => ch
      | some (lx, co) => ch.set i ((f lx).2, co.record (c.taken lx))

/-- The lexers and courses after a script. -/
def ofScript (cs : List Command) : Chronicle := cs.foldl step []

theorem step_of_use {i : Nat} {f : Lexer → Answer × Lexer} (h : c.use? = some (i, f)) (ch : Chronicle) : ch.step c =
    match ch[i]? with
    | none => ch
    | some (lx, co) => ch.set i ((f lx).2, co.record (c.taken lx)) := by
  cases c <;> cases h <;> rfl

/-- A step on a chronicle is a step on its session. -/
theorem map_fst_step (ch : Chronicle) (c : Command) : (ch.step c).map Prod.fst = (Session.step (ch.map Prod.fst) c).2 := by
  rcases c.opens_or_uses with ⟨rules, source, file?, rfl⟩ | ⟨i, rfl⟩ | ⟨i, f, h⟩
  · simp [step, Session.step, Session.push]
  · cases hi : ch[i]? <;> simp [step, Session.step, Session.push, hi]
  · rw [step_of_use h, Session.step_of_use h]
    cases hi : ch[i]? with
    | none =>
      rw [Session.update_of_none (by rw [List.getElem?_map, hi, Option.map_none])]
    | some x =>
      rw [Session.update_of_getElem? (by rw [List.getElem?_map, hi, Option.map_some])]
      exact List.map_set

theorem map_fst_ofScript (cs : List Command) : (ofScript cs).map Prod.fst = Session.after [] cs :=
  (List.foldl_hom (List.map Prod.fst) fun ch c => (map_fst_step ch c).symm).symm

theorem follows_step (hch : ∀ x ∈ ch, x.2.Follows x.1) (c : Command) : ∀ x ∈ ch.step c, x.2.Follows x.1 := by
  rcases c.opens_or_uses with ⟨rules, source, file?, rfl⟩ | ⟨i, rfl⟩ | ⟨i, f, h⟩
  · intro x hx
    rcases List.mem_append.mp hx with hx | hx
    · exact hch x hx
    · obtain rfl := List.mem_singleton.mp hx
      exact Course.follows_ofSource rules source file?
  · intro x hx
    rcases List.mem_append.mp hx with hx | hx
    · exact hch x hx
    · obtain ⟨y, hy, rfl⟩ := Option.map_eq_some_iff.mp (Option.mem_toList.mp hx)
      exact (hch y (List.mem_of_getElem? hy)).clone
  · rw [step_of_use h]
    intro x hx
    cases hi : ch[i]? with
    | none => exact hch x (by simpa only [hi] using hx)
    | some y =>
      simp only [hi] at hx
      rcases List.mem_or_eq_of_mem_set hx with hx | rfl
      · exact hch x hx
      · exact (hch y (List.mem_of_getElem? hi)).record (Command.pulls_taken h y.1)

/-- After a script every lexer follows its course. -/
theorem follows_ofScript (cs : List Command) : ∀ x ∈ ofScript cs, x.2.Follows x.1 := by
  suffices h : ∀ ch : Chronicle, (∀ x ∈ ch, x.2.Follows x.1) → ∀ x ∈ cs.foldl step ch, x.2.Follows x.1 from
    h [] fun _ hx => by cases hx
  induction cs with
  | nil => exact fun _ h => h
  | cons c cs ih => exact fun ch h => ih (ch.step c) (follows_step h c)

theorem ofScript_concat (cs : List Command) (c : Command) : ofScript (cs ++ [c]) = (ofScript cs).step c := by
  rw [ofScript, List.foldl_append]
  rfl

section
variable {cs : List Command} {i : Nat} {lx : Lexer} {co : Course}

/-- A clone has what its original has left, and enters the stream where the original stands. -/
theorem clone_enters (hi : (ofScript cs)[i]? = some (lx, co)) :
    (ofScript (cs ++ [.clone i]))[(ofScript cs).length]? = some (lx, co.clone) := by
  simp [ofScript_concat, step, hi]

/-- A step on a lexer answers and takes what its course tells, and the lexer goes on behind what was taken. -/
theorem step_serves {f : Lexer → Answer × Lexer} (h : c.use? = some (i, f)) (hi : (ofScript cs)[i]? = some (lx, co)) :
    c.Serves co.name (co.stream.drop co.position) ((Session.after [] cs).step c).1.answer (c.taken lx) ∧
      ∃ lx', (ofScript (cs ++ [c]))[i]? = some (lx', co.record (c.taken lx)) ∧ lx.Pulls (c.taken lx) lx' := by
  have hfollows : co.Follows lx := follows_ofScript cs _ (List.mem_of_getElem? hi)
  have hlx : (Session.after [] cs)[i]? = some lx := by
    rw [← map_fst_ofScript, List.getElem?_map, hi, Option.map_some]
  constructor
  · rw [Session.step_of_use h, Session.update_of_getElem? hlx, ← hfollows.file, ← hfollows.items_eq]
    exact Command.serves_taken h lx
  · have hlt : i < (ofScript cs).length := (List.getElem?_eq_some_iff.mp hi).1
    refine ⟨(f lx).2, ?_, Command.pulls_taken h lx⟩
    simp only [ofScript_concat, step_of_use h, hi]
    exact List.getElem?_set_self hlt

end

end Chronicle

end Munch
