import Munch.Proofs.Session.Courses

/-! Families of lexers. A lexer that is created founds a family, and its clones and their clones belong to it, so that
    lexers are related by cloning when they are of one family. A step is about one family at most: it reads and changes
    lexers of this family alone. A script with the steps about all other families left out therefore gets the same
    replies to the others, but for the numbers of the lexers. -/

namespace Munch

/-! ### Steps and families -/

namespace Command

/-- The family that a step is about, when the lexers so far are of the families `fs`. A family is named by the number of
    its founder. A step on a number that no lexer has is about none. -/
def family? (fs : List Nat) : Command → Option Nat
  | .create .. => some fs.length
  | .clone i | .file i | .next i | .take i _ | .collect i | .find i _ => fs[i]?

/-- The families of the lexers after a step. -/
def enroll (fs : List Nat) : Command → List Nat
  | .create .. => fs ++ [fs.length]
  | .clone i => fs ++ fs[i]?.toList
  | .file _ | .next _ | .take .. | .collect _ | .find .. => fs

/-- A step with the number of the lexer that it names changed by `g`. -/
def renumber (g : Nat → Nat) : Command → Command
  | .create rules source file? => .create rules source file?
  | .clone i => .clone (g i)
  | .file i => .file (g i)
  | .next i => .next (g i)
  | .take i n => .take (g i) n
  | .collect i => .collect (g i)
  | .find i k => .find (g i) k

section
variable {c : Command} {i : Nat} {f : Lexer → Answer × Lexer}

theorem family?_of_use (h : c.use? = some (i, f)) (fs : List Nat) : c.family? fs = fs[i]? := by
  cases c <;> cases h <;> rfl

theorem enroll_of_use (h : c.use? = some (i, f)) (fs : List Nat) : c.enroll fs = fs := by
  cases c <;> cases h <;> rfl

theorem use?_renumber (h : c.use? = some (i, f)) (g : Nat → Nat) : (c.renumber g).use? = some (g i, f) := by
  cases c <;> cases h <;> rfl

end

end Command

/-- An answer with the numbers of lexers changed by `g`. -/
def Answer.renumber (g : Nat → Nat) : Answer → Answer
  | .lexer n => .lexer (g n)
  | .noLexer n => .noLexer (g n)
  | .file name => .file name
  | .item i? => .item i?
  | .tokens result => .tokens result

theorem Answer.renumber_of_use {c : Command} {i : Nat} {f : Lexer → Answer × Lexer} (h : c.use? = some (i, f))
    (g : Nat → Nat) (lx : Lexer) : (f lx).1.renumber g = (f lx).1 := by
  cases c <;> cases h <;> rfl

def Reply.renumber (g : Nat → Nat) (r : Reply) : Reply := ⟨r.answer.renumber g, r.atEof⟩

/-! ### The lexers of a family -/

/-- The number of a lexer when only those of family `f` are counted. -/
def rank (f : Nat) (fs : List Nat) (i : Nat) : Nat := (fs.take i).count f

/-- The lexers of family `f`, in the order of their numbers. -/
def members (f : Nat) : List Nat → Session → Session
  | [], _ | _ :: _, [] => []
  | g :: fs, lx :: s => if g = f then lx :: members f fs s else members f fs s

section
variable {f g i : Nat} {fs : List Nat} {s : Session} {lx : Lexer}

theorem rank_cons_succ : rank f (g :: fs) (i + 1) = rank f fs i + if g = f then 1 else 0 := by
  simp [rank, List.count_cons]

theorem rank_of_le (h : fs.length ≤ i) : rank f fs i = fs.count f := by
  rw [rank, List.take_of_length_le h]

theorem members_append (hlen : fs.length = s.length) :
    members f (fs ++ [g]) (s ++ [lx]) = members f fs s ++ if g = f then [lx] else [] := by
  induction fs generalizing s with
  | nil =>
    obtain rfl := List.length_eq_zero_iff.mp hlen.symm
    simp [members]
  | cons g' fs ih =>
    obtain ⟨lx', s, rfl⟩ := List.exists_cons_of_length_eq_add_one hlen.symm
    simp only [List.cons_append, members, ih (Nat.succ.inj hlen)]
    split <;> rfl

theorem length_members (hlen : fs.length = s.length) : (members f fs s).length = fs.count f := by
  induction fs generalizing s with
  | nil => rfl
  | cons g fs ih =>
    obtain ⟨lx, s, rfl⟩ := List.exists_cons_of_length_eq_add_one hlen.symm
    simp only [members, List.count_cons, beq_iff_eq, ← ih (Nat.succ.inj hlen)]
    split <;> rfl

theorem getElem?_members (hlen : fs.length = s.length) (hi : fs[i]? = some f) :
    (members f fs s)[rank f fs i]? = s[i]? := by
  induction fs generalizing s i with
  | nil => cases hi
  | cons g fs ih =>
    obtain ⟨lx, s, rfl⟩ := List.exists_cons_of_length_eq_add_one hlen.symm
    cases i with
    | zero =>
      cases hi
      simp [members, rank]
    | succ i =>
      have := ih (Nat.succ.inj hlen) (i := i) hi
      rw [rank_cons_succ, members, List.getElem?_cons_succ, ← this]
      split <;> rfl

theorem members_set (hlen : fs.length = s.length) (hi : fs[i]? = some f) :
    members f fs (s.set i lx) = (members f fs s).set (rank f fs i) lx := by
  induction fs generalizing s i with
  | nil => cases hi
  | cons g fs ih =>
    obtain ⟨lx', s, rfl⟩ := List.exists_cons_of_length_eq_add_one hlen.symm
    cases i with
    | zero =>
      cases hi
      simp [members, rank]
    | succ i =>
      have := ih (Nat.succ.inj hlen) (i := i) hi
      rw [rank_cons_succ, List.set_cons_succ, members, members, this]
      split <;> rfl

/-- The lexers of a family are not changed with a lexer of another one. -/
theorem members_set_of_ne (hlen : fs.length = s.length) (hi : fs[i]? ≠ some f) :
    members f fs (s.set i lx) = members f fs s := by
  induction fs generalizing s i with
  | nil => rfl
  | cons g fs ih =>
    obtain ⟨lx', s, rfl⟩ := List.exists_cons_of_length_eq_add_one hlen.symm
    cases i with
    | zero =>
      have hg : g ≠ f := fun h => hi (congrArg some h)
      simp [members, hg]
    | succ i =>
      rw [List.set_cons_succ, members, members, ih (Nat.succ.inj hlen) (i := i) hi]

end

/-! ### Steps about a family -/

section
variable {f : Nat} {fs : List Nat} {s : Session} {c : Command}

theorem length_enroll (hlen : fs.length = s.length) (c : Command) : (c.enroll fs).length = (s.step c).2.length := by
  rcases c.opens_or_uses with ⟨rules, source, file?, rfl⟩ | ⟨i, rfl⟩ | ⟨i, use, h⟩
  · simp [Command.enroll, Session.step, Session.push, hlen]
  · rcases Nat.lt_or_ge i s.length with hi | hi
    · simp [Command.enroll, Session.step, Session.push, hlen, hi]
    · simp [Command.enroll, Session.step, hlen, hi]
  · rw [Command.enroll_of_use h, Session.step_of_use h, hlen]
    cases hi : s[i]? with
    | none => rw [Session.update_of_none hi]
    | some lx => rw [Session.update_of_getElem? hi, List.length_set]

theorem exists_getElem? {i g : Nat} (hlen : fs.length = s.length) (hi : fs[i]? = some g) : ∃ lx, s[i]? = some lx := by
  have hlt : i < s.length := hlen ▸ (List.getElem?_eq_some_iff.mp hi).1
  exact ⟨_, List.getElem?_eq_getElem hlt⟩

/-- A lexer that is opened in the family is opened among its members alone too, under its number there. -/
theorem push_members (hlen : fs.length = s.length) (lx : Lexer) :
    Session.push (members f fs s) lx =
      ((s.push lx).1.renumber (rank f fs), members f (fs ++ [f]) (s.push lx).2) := by
  simp only [Session.push, Reply.renumber, Answer.renumber, members_append hlen, if_pos, length_members hlen,
    rank_of_le (Nat.le_of_eq hlen)]

/-- A step about a family does the same among the members of the family alone. -/
theorem step_members (hlen : fs.length = s.length) (h : c.family? fs = some f) :
    (members f fs s).step (c.renumber (rank f fs)) =
      ((s.step c).1.renumber (rank f fs), members f (c.enroll fs) (s.step c).2) := by
  rcases c.opens_or_uses with ⟨rules, source, file?, rfl⟩ | ⟨i, rfl⟩ | ⟨i, use, huse⟩
  · obtain rfl : fs.length = f := Option.some.inj h
    exact push_members hlen _
  · have hi : fs[i]? = some f := h
    obtain ⟨lx, hlx⟩ := exists_getElem? hlen hi
    simp only [Command.renumber, Session.step, getElem?_members hlen hi, hlx, Command.enroll, hi, Option.toList_some]
    exact push_members hlen lx
  · rw [Command.family?_of_use huse] at h
    obtain ⟨lx, hlx⟩ := exists_getElem? hlen h
    rw [Session.step_of_use (Command.use?_renumber huse _), Session.step_of_use huse, Command.enroll_of_use huse,
      Session.update_of_getElem? ((getElem?_members hlen h).trans hlx), Session.update_of_getElem? hlx,
      members_set hlen h, Reply.renumber, Answer.renumber_of_use huse]

/-- A step about another family, or about none, changes no member of the family. -/
theorem members_step_of_ne (hlen : fs.length = s.length) (h : c.family? fs ≠ some f) :
    members f (c.enroll fs) (s.step c).2 = members f fs s := by
  rcases c.opens_or_uses with ⟨rules, source, file?, rfl⟩ | ⟨i, rfl⟩ | ⟨i, use, huse⟩
  · have hf : fs.length ≠ f := fun hf => h (congrArg some hf)
    rw [Command.enroll, Session.step, Session.push, members_append hlen, if_neg hf, List.append_nil]
  · cases hi : fs[i]? with
    | none =>
      have hlx : s[i]? = none := by rwa [List.getElem?_eq_none_iff, ← hlen, ← List.getElem?_eq_none_iff]
      simp [Command.enroll, Session.step, hi, hlx]
    | some g =>
      have hg : g ≠ f := fun hg => h (hi.trans (congrArg some hg))
      obtain ⟨lx, hlx⟩ := exists_getElem? hlen hi
      simp [Command.enroll, Session.step, Session.push, hi, hlx, members_append hlen, hg]
  · rw [Command.family?_of_use huse] at h
    rw [Command.enroll_of_use huse, Session.step_of_use huse]
    cases hi : s[i]? with
    | none => rw [Session.update_of_none hi]
    | some lx => rw [Session.update_of_getElem? hi, members_set_of_ne hlen h]

end

/-! ### Scripts about a family -/

/-- The steps of a script with their replies. -/
def Session.transcript (s : Session) (cs : List Command) : List (Command × Reply) := cs.zip (s.run cs)

theorem Session.transcript_cons (s : Session) (c : Command) (cs : List Command) :
    s.transcript (c :: cs) = (c, (s.step c).1) :: (s.step c).2.transcript cs := rfl

/-- The steps of a transcript that are about family `f`, with its lexers numbered among themselves, when the lexers before
    the first step are of the families `fs`. -/
def about (f : Nat) : (fs : List Nat) → List (Command × Reply) → List (Command × Reply)
  | _, [] => []
  | fs, (c, r) :: es =>
    if c.family? fs = some f then (c.renumber (rank f fs), r.renumber (rank f fs)) :: about f (c.enroll fs) es
    else about f (c.enroll fs) es

/-- The steps about a family get the same replies from its members when all other steps are left out. -/
theorem transcript_about {fs : List Nat} {s : Session} (hlen : fs.length = s.length) (f : Nat) (cs : List Command) :
    (members f fs s).transcript ((about f fs (s.transcript cs)).map Prod.fst) = about f fs (s.transcript cs) := by
  induction cs generalizing fs s with
  | nil => rfl
  | cons c cs ih =>
    have ih := ih (length_enroll hlen c)
    rw [Session.transcript_cons, about]
    split
    · next h => rw [List.map_cons, Session.transcript_cons, step_members hlen h, ih]
    · next h => rwa [members_step_of_ne hlen h] at ih

/-- After any script each lexer has followed its course, which says the items that every step has taken from it: they lie
    one after another in the stream of its source, from the beginning, or for a clone from where its original stood, and
    what the lexer has left is the rest of the stream. A further step on a lexer takes what its calls of `next` hand out,
    and it takes and answers what can be told from that rest alone. A further lexer that is cloned has the rest that its
    original has. And for each family of lexers related by cloning, the steps about it get the same replies, but for the
    numbers of lexers, when all other steps are left out. -/
theorem lexers_do_not_interfere (cs : List Command) :
    (Chronicle.ofScript cs).map Prod.fst = Session.after [] cs ∧
    (∀ lx co, (lx, co) ∈ Chronicle.ofScript cs → co.Follows lx) ∧
    (∀ c i use lx co, c.use? = some (i, use) → (Chronicle.ofScript cs)[i]? = some (lx, co) →
      c.Serves co.name (co.stream.drop co.position) ((Session.after [] cs).step c).1.answer (c.taken lx) ∧
        ∃ lx', (Chronicle.ofScript (cs ++ [c]))[i]? = some (lx', co.record (c.taken lx)) ∧ lx.Pulls (c.taken lx) lx') ∧
    (∀ i lx co, (Chronicle.ofScript cs)[i]? = some (lx, co) →
      (Chronicle.ofScript (cs ++ [.clone i]))[(Chronicle.ofScript cs).length]? = some (lx, co.clone)) ∧
    ∀ f, let kept := about f [] (Session.transcript [] cs)
      Session.transcript [] (kept.map Prod.fst) = kept :=
  ⟨Chronicle.map_fst_ofScript cs, fun _ _ => Chronicle.follows_ofScript cs _, fun _ _ _ _ _ => Chronicle.step_serves,
    fun _ _ _ => Chronicle.clone_enters, fun f => transcript_about rfl f cs⟩

/-- Without the second lexer the third one is the second. -/
example : (about 0 [] (Session.transcript [] [.create .standard ['x'] none, .create .standard [] none, .next 1, .clone 0,
    .next 2])).map Prod.fst = [.create .standard ['x'] none, .clone 0, .next 1] := rfl

end Munch
