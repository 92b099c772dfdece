import Munch.Proofs.Calls

/-! The scan by positions. A scanner keeps the whole source and two positions in it, where the candidate starts and which
    character is looked at, and cuts windows out of the source. Every access is checked against the bounds of the source and
    every sum against 64 bits, so that an answer without a fault is one that no check has stopped. A scanner never has
    a fault, and hands out what the lexer hands out that keeps its candidate and the characters that remain. -/

namespace Munch

namespace RuleTable
variable {r : RuleTable} {w : Text} {c : Char} {next? : Option Char}

theorem eq_nil_of_verdict_eq_skip (h : r.verdict w c next? = .skip) : w = [] := by
  cases hb : w.isEmpty && isBlank c with
  | true => exact List.isEmpty_iff.mp (Bool.and_eq_true_iff.mp hb).1
  | false =>
    rw [verdict_eq hb] at h
    split at h
    · cases h
    · split at h <;> cases h

theorem exists_next_of_verdict_eq_grow (h : r.verdict w c next? = .grow) : ∃ d, next? = some d := by
  cases hb : w.isEmpty && isBlank c with
  | true => simp [verdict, hb] at h
  | false =>
    rw [verdict_eq hb] at h
    split at h
    · cases h
    · split at h
      · next hd => exact Option.isSome_iff_exists.mp hd
      · cases h

end RuleTable

/-- What can go wrong with a position. -/
inductive Fault where
  | outOfRange
  | overflow
deriving DecidableEq, Repr

/-- A lexer that keeps its source whole. The candidate starts at `tokenStart`, and `cursor` is the position of the
    character that is looked at next. -/
structure Scanner where
  rules : RuleTable
  file : Text
  source : Text
  tokenStart : Nat
  cursor : Nat
  failed : Bool

namespace Scanner

/-- A scanner at the start of a source. -/
def ofSource (rules : RuleTable) (source : Text) (file? : Option Text) : Scanner where
  rules := rules
  file := file?.getD Lexer.unnamed
  source := source
  tokenStart := 0
  cursor := 0
  failed := false

/-! ### Checked steps -/

/-- The position after `p`, an unsigned 64-bit number. -/
def successor (p : Nat) : Except Fault Nat := if p + 1 < UInt64.size then .ok (p + 1) else .error .overflow

/-- The character at the cursor. -/
def char (sc : Scanner) : Except Fault Char := sc.source[sc.cursor]?.elim (.error .outOfRange) .ok

/-- The text from the start of the candidate to the position `last`, both included. -/
def window (sc : Scanner) (last : Nat) : Except Fault Text :=
  if sc.tokenStart ≤ last ∧ last < sc.source.length then .ok (Span.slice ⟨sc.tokenStart, last⟩ sc.source)
  else .error .outOfRange

/-- Whether there is a character behind the one at the cursor. -/
def hasNext (sc : Scanner) : Except Fault Bool := do
  let next ← successor sc.cursor
  return next < sc.source.length

/-- Whether a candidate of kind `k` that ends at the cursor goes on growing. The longer window is cut only when there is a
    character for it. -/
def grows (sc : Scanner) (k : Kind) : Except Fault Bool := do
  if ← sc.hasNext then
    let longer ← sc.window (← successor sc.cursor)
    return sc.rules.growsTo k longer
  else
    return false

/-- What a turn of the loop comes to: the end of the source, another turn, a token, or an error. -/
inductive Turn where
  | finished
  | again (sc : Scanner)
  | token (t : Token) (sc : Scanner)
  | error (e : LexError)

/-- The scanner with the cursor at the next character, in the same candidate. -/
def advance (sc : Scanner) : Except Fault Scanner := do
  return { sc with cursor := ← successor sc.cursor }

/-- The scanner behind the character at the cursor, between candidates. -/
def leave (sc : Scanner) : Except Fault Scanner := do
  let next ← successor sc.cursor
  return { sc with tokenStart := next, cursor := next }

/-- What a turn does with the character at the cursor. -/
def look (sc : Scanner) : Except Fault Turn := do
  let c ← sc.char
  if isBlank c && sc.tokenStart == sc.cursor then
    return .again (← sc.leave)
  else
    let w ← sc.window sc.cursor
    match sc.rules.classify w with
    | none =>
      if ← sc.hasNext then return .again (← sc.advance)
      else return .error ⟨w, ⟨sc.tokenStart, sc.cursor⟩, sc.file⟩
    | some k =>
      if ← sc.grows k then return .again (← sc.advance)
      else return .token ⟨k, w, ⟨sc.tokenStart, sc.cursor⟩⟩ (← sc.leave)

/-- One turn of the loop. -/
def turn (sc : Scanner) : Except Fault Turn :=
  if sc.source.length ≤ sc.cursor then .ok .finished else sc.look

theorem exists_of_bind_eq_ok {α β : Type} {x : Except Fault α} {f : α → Except Fault β} {b : β}
    (h : x >>= f = .ok b) : ∃ a, x = .ok a ∧ f a = .ok b := by
  cases x with
  | error e => cases h
  | ok a => exact ⟨a, rfl, h⟩

theorem eq_ok_of_again {x : Except Fault Scanner} {sc : Scanner} (h : Turn.again <$> x = .ok (.again sc)) : x = .ok sc := by
  cases x <;> cases h
  rfl

theorem advance_eq_ok {sc sc' : Scanner} (h : sc.advance = .ok sc') : sc' = { sc with cursor := sc.cursor + 1 } := by
  simp only [advance, successor] at h
  split at h <;> cases h
  rfl

theorem leave_eq_ok {sc sc' : Scanner} (h : sc.leave = .ok sc') :
    sc' = { sc with tokenStart := sc.cursor + 1, cursor := sc.cursor + 1 } := by
  simp only [leave, successor] at h
  split at h <;> cases h
  rfl

/-- A turn that is followed by another one moves the cursor by one character, inside the source. -/
theorem turn_again {sc sc' : Scanner} (h : sc.turn = .ok (.again sc')) :
    sc.cursor < sc.source.length ∧ sc'.source = sc.source ∧ sc'.cursor = sc.cursor + 1 := by
  have hadvance {x : Scanner} (h : sc.advance = .ok x) : x.source = sc.source ∧ x.cursor = sc.cursor + 1 := by
    simp [advance_eq_ok h]
  have hleave {x : Scanner} (h : sc.leave = .ok x) : x.source = sc.source ∧ x.cursor = sc.cursor + 1 := by
    simp [leave_eq_ok h]
  rw [turn] at h
  split at h
  · cases h
  · next hlt =>
    refine ⟨Nat.not_le.mp hlt, ?_⟩
    obtain ⟨c, -, h⟩ := exists_of_bind_eq_ok h
    split at h
    · exact hleave (eq_ok_of_again h)
    · obtain ⟨w, -, h⟩ := exists_of_bind_eq_ok h
      split at h <;> obtain ⟨b, -, h⟩ := exists_of_bind_eq_ok h <;> split at h
      · exact hadvance (eq_ok_of_again h)
      · cases h
      · exact hadvance (eq_ok_of_again h)
      · obtain ⟨x, hx, h⟩ := exists_of_bind_eq_ok h
        cases h

/-- The loop: it goes on until a turn ends it. -/
def scan (sc : Scanner) : Except Fault (Option Item × Scanner) :=
  match _h : sc.turn with
  | .error fault => .error fault
  | .ok .finished => .ok (none, sc)
  | .ok (.again sc') => scan sc'
  | .ok (.token t sc') => .ok (some (.token t), sc')
  | .ok (.error e) => .ok (some (.error e), sc)
termination_by sc.source.length - sc.cursor
decreasing_by
  obtain ⟨hlt, hsource, hcursor⟩ := turn_again ‹_›
  rw [hsource, hcursor]
  omega

/-- The next item, if there is one, and the scanner after it. An error is the last item. -/
def next (sc : Scanner) : Except Fault (Option Item × Scanner) :=
  if sc.failed then .ok (none, sc)
  else do
    let (i?, sc') ← sc.scan
    return (i?, { sc' with failed := i?.any Item.isError })

/-- The scanner that `n` calls of `next` lead to. -/
def after (sc : Scanner) : Nat → Except Fault Scanner
  | 0 => .ok sc
  | n + 1 => do
    let (_, sc') ← sc.next
    sc'.after n

/-- The states in which turns of the loop begin, over any number of calls of `next`: a call begins where the one before
    ended, unless the scanner has failed. -/
inductive Visits (sc₀ : Scanner) : Scanner → Prop
  | call {n : Nat} {sc : Scanner} (h : sc₀.after n = .ok sc) (hf : sc.failed = false) : Visits sc₀ sc
  | turn {sc sc' : Scanner} (h : Visits sc₀ sc) (ht : sc.turn = .ok (.again sc')) : Visits sc₀ sc'

/-! ### Inside the source -/

/-- The positions of a scanner between two turns: they lie in order in the source, and a candidate in progress has a
    character to go on with. -/
structure InBounds (sc : Scanner) : Prop where
  start_le : sc.tokenStart ≤ sc.cursor
  le : sc.cursor ≤ sc.source.length
  lt_of_inProgress : sc.tokenStart < sc.cursor → sc.cursor < sc.source.length

/-- The characters of the candidate before the cursor. -/
def candidate (sc : Scanner) : Text := (sc.source.drop sc.tokenStart).take (sc.cursor - sc.tokenStart)

/-- The lexer that keeps the candidate and the characters that remain. -/
def lexer (sc : Scanner) : Lexer :=
  ⟨sc.rules, sc.file, sc.tokenStart, sc.candidate, sc.source.drop sc.cursor, sc.failed⟩

section
variable {sc : Scanner} {c : Char}

theorem successor_eq {p : Nat} (h : p + 1 < UInt64.size) : successor p = .ok (p + 1) := if_pos h

theorem advance_eq (h : sc.cursor + 1 < UInt64.size) : sc.advance = .ok { sc with cursor := sc.cursor + 1 } := by
  rw [advance, successor_eq h]
  rfl

theorem leave_eq (h : sc.cursor + 1 < UInt64.size) :
    sc.leave = .ok { sc with tokenStart := sc.cursor + 1, cursor := sc.cursor + 1 } := by
  rw [leave, successor_eq h]
  rfl

theorem char_eq (hc : sc.source[sc.cursor]? = some c) : sc.char = .ok c := by
  rw [char, hc]
  rfl

theorem hasNext_eq (h : sc.cursor + 1 < UInt64.size) : sc.hasNext = .ok (sc.source[sc.cursor + 1]?).isSome := by
  have hsome : decide (sc.cursor + 1 < sc.source.length) = (sc.source[sc.cursor + 1]?).isSome := by
    rcases Nat.lt_or_ge (sc.cursor + 1) sc.source.length with hlt | hle <;> simp [*]
  rw [hasNext, successor_eq h, ← hsome]
  rfl

theorem slice_eq_append {s n : Nat} {source : Text} (hs : s ≤ n) (hc : source[n]? = some c) :
    Span.slice ⟨s, n⟩ source = (source.drop s).take (n - s) ++ [c] := by
  have hget : (source.drop s)[n - s]? = some c := by rw [List.getElem?_drop, Nat.add_sub_cancel' hs, hc]
  rw [Span.slice, show n + 1 - s = n - s + 1 by omega, List.take_add_one, hget, Option.toList_some]

theorem window_eq {n : Nat} (hs : sc.tokenStart ≤ n) (hc : sc.source[n]? = some c) :
    sc.window n = .ok ((sc.source.drop sc.tokenStart).take (n - sc.tokenStart) ++ [c]) := by
  have hlt : n < sc.source.length := (List.getElem?_eq_some_iff.mp hc).1
  rw [window, if_pos ⟨hs, hlt⟩, slice_eq_append hs hc]

namespace InBounds

theorem window_cursor (h : sc.InBounds) (hc : sc.source[sc.cursor]? = some c) :
    sc.window sc.cursor = .ok (sc.candidate ++ [c]) := window_eq h.start_le hc

/-- With the character at the cursor the candidate becomes the longer one of the next turn. -/
theorem candidate_advance (h : sc.InBounds) (hc : sc.source[sc.cursor]? = some c) :
    candidate { sc with cursor := sc.cursor + 1 } = sc.candidate ++ [c] := slice_eq_append h.start_le hc

theorem isEmpty_candidate (h : sc.InBounds) : sc.candidate.isEmpty = (sc.tokenStart == sc.cursor) := by
  have := h.start_le
  have := h.le
  rw [Bool.eq_iff_iff, List.isEmpty_iff_length_eq_zero, beq_iff_eq, candidate, List.length_take, List.length_drop]
  omega

theorem grows_eq (h : sc.InBounds) (hc : sc.source[sc.cursor]? = some c) (hlen : sc.cursor + 1 < UInt64.size) (k : Kind) :
    sc.grows k = .ok (sc.source[sc.cursor + 1]?.any fun d => sc.rules.growsTo k (sc.candidate ++ [c, d])) := by
  rw [grows, hasNext_eq hlen]
  cases hd : sc.source[sc.cursor + 1]? with
  | none => rfl
  | some d =>
    have hwindow := window_eq (Nat.le_succ_of_le h.start_le) hd
    have hcandidate : (sc.source.drop sc.tokenStart).take (sc.cursor + 1 - sc.tokenStart) = sc.candidate ++ [c] :=
      h.candidate_advance hc
    rw [hcandidate, List.append_assoc] at hwindow
    simp only [Option.isSome_some, bind, Except.bind, if_pos, successor_eq hlen, hwindow]
    rfl

/-- A turn inside the source has no fault, and does what the verdict on the character at the cursor says. -/
theorem turn_eq (h : sc.InBounds) (hlen : sc.source.length < UInt64.size) (hc : sc.source[sc.cursor]? = some c) :
    sc.turn = .ok (match sc.rules.verdict sc.candidate c sc.source[sc.cursor + 1]? with
      | .skip => .again { sc with tokenStart := sc.cursor + 1, cursor := sc.cursor + 1 }
      | .grow => .again { sc with cursor := sc.cursor + 1 }
      | .emit k => .token ⟨k, sc.candidate ++ [c], ⟨sc.tokenStart, sc.cursor⟩⟩
          { sc with tokenStart := sc.cursor + 1, cursor := sc.cursor + 1 }
      | .reject => .error ⟨sc.candidate ++ [c], ⟨sc.tokenStart, sc.cursor⟩, sc.file⟩) := by
  have hlt : sc.cursor < sc.source.length := (List.getElem?_eq_some_iff.mp hc).1
  have hword : sc.cursor + 1 < UInt64.size := Nat.lt_of_le_of_lt hlt hlen
  rw [turn, if_neg (Nat.not_le.mpr hlt), look, char_eq hc]
  simp only [bind, Except.bind, pure, Except.pure, h.window_cursor hc, hasNext_eq hword, h.grows_eq hc hword,
    advance_eq hword, leave_eq hword, RuleTable.verdict, h.isEmpty_candidate, Bool.and_comm (isBlank c)]
  split
  · rfl
  · cases sc.rules.classify (sc.candidate ++ [c]) with
    | none => cases sc.source[sc.cursor + 1]? <;> rfl
    | some k =>
      cases sc.source[sc.cursor + 1]? with
      | none => rfl
      | some d => cases hd : sc.rules.growsTo k (sc.candidate ++ [c, d]) <;> simp [hd]

end InBounds

end

/-! ### The same items as the lexer -/

theorem InBounds.length_candidate {sc : Scanner} (h : sc.InBounds) : sc.tokenStart + sc.candidate.length = sc.cursor := by
  have := h.start_le
  have := h.le
  rw [candidate, List.length_take, List.length_drop]
  omega

theorem candidate_leave (sc : Scanner) (p : Nat) : candidate { sc with tokenStart := p, cursor := p } = [] := by
  simp [candidate]

/-- What a turn comes to, against what the lexer of the scanner hands out next. -/
def Agrees (sc : Scanner) : Turn → Prop
  | .finished => sc.lexer.next = (none, sc.lexer)
  | .again sc' => sc'.InBounds ∧ sc'.source = sc.source ∧ sc'.failed = false ∧ sc.lexer.next = sc'.lexer.next
  | .token t sc' => sc'.InBounds ∧ sc'.source = sc.source ∧ sc'.failed = false ∧
      sc.lexer.next = (some (.token t), sc'.lexer)
  | .error e => sc.lexer.next = (some (.error e), lexer { sc with failed := true })

theorem InBounds.leave {sc : Scanner} (hlt : sc.cursor < sc.source.length) :
    InBounds { sc with tokenStart := sc.cursor + 1, cursor := sc.cursor + 1 } :=
  ⟨Nat.le_refl _, hlt, fun h => absurd h (Nat.lt_irrefl _)⟩

theorem next_lexer (sc : Scanner) (hf : sc.failed = false) :
    sc.lexer.next = Lexer.scan sc.rules sc.file sc.tokenStart sc.candidate (sc.source.drop sc.cursor) := by
  rw [Lexer.next_of_not_failed hf]
  rfl

/-- A turn inside the bounds has no fault, stays inside them, and does its part of what the lexer does. -/
theorem InBounds.exists_turn {sc : Scanner} (h : sc.InBounds) (hlen : sc.source.length < UInt64.size)
    (hf : sc.failed = false) : ∃ out, sc.turn = .ok out ∧ sc.Agrees out := by
  rcases Nat.lt_or_ge sc.cursor sc.source.length with hlt | hge
  · obtain ⟨c, hc⟩ : ∃ c, sc.source[sc.cursor]? = some c := ⟨_, List.getElem?_eq_getElem hlt⟩
    have hdrop : sc.source.drop sc.cursor = c :: sc.source.drop (sc.cursor + 1) := by
      rw [List.drop_eq_getElem_cons hlt, (List.getElem?_eq_some_iff.mp hc).2]
    have hspan := h.length_candidate
    have hscan := next_lexer sc hf
    rw [hdrop, Lexer.scan_cons, List.head?_drop] at hscan
    refine ⟨_, h.turn_eq hlen hc, ?_⟩
    cases hv : sc.rules.verdict sc.candidate c sc.source[sc.cursor + 1]? with
    | skip =>
      rw [hv] at hscan
      rw [RuleTable.eq_nil_of_verdict_eq_skip hv, List.length_nil, Nat.add_zero] at hspan
      refine ⟨.leave hlt, rfl, hf, hscan.trans ?_⟩
      rw [next_lexer { sc with tokenStart := sc.cursor + 1, cursor := sc.cursor + 1 } hf, candidate_leave, hspan]
    | grow =>
      rw [hv] at hscan
      obtain ⟨d, hd⟩ := RuleTable.exists_next_of_verdict_eq_grow hv
      have hlt' : sc.cursor + 1 < sc.source.length := (List.getElem?_eq_some_iff.mp hd).1
      refine ⟨⟨Nat.le_succ_of_le h.start_le, hlt, fun _ => hlt'⟩, rfl, hf, hscan.trans ?_⟩
      rw [next_lexer { sc with cursor := sc.cursor + 1 } hf, h.candidate_advance hc]
    | emit k =>
      rw [hv, hspan] at hscan
      refine ⟨.leave hlt, rfl, hf, hscan.trans ?_⟩
      rw [lexer, candidate_leave, hf]
    | reject =>
      rw [hv, hspan, ← hdrop] at hscan
      exact hscan
  · refine ⟨.finished, ?_, ?_⟩
    · rw [turn, if_pos hge]
    · exact Lexer.next_of_rest_eq_nil (List.drop_eq_nil_of_le hge)

theorem InBounds.agrees {sc : Scanner} (h : sc.InBounds) (hlen : sc.source.length < UInt64.size) (hf : sc.failed = false)
    {out : Turn} (ht : sc.turn = .ok out) : sc.Agrees out := by
  obtain ⟨out', ht', hagrees⟩ := h.exists_turn hlen hf
  cases ht.symm.trans ht'
  exact hagrees

/-- The loop ends without a fault, with what the lexer hands out next. -/
theorem InBounds.exists_scan {sc : Scanner} (h : sc.InBounds) (hlen : sc.source.length < UInt64.size)
    (hf : sc.failed = false) : ∃ i? sc', sc.scan = .ok (i?, sc') ∧ sc'.InBounds ∧ sc'.source = sc.source ∧
      sc.lexer.next = (i?, lexer { sc' with failed := i?.any Item.isError }) := by
  -- The induction is on the turns: each one but the last hands the same question on, with fewer characters left.
  fun_induction scan sc with
  | case1 sc fault ht =>
    obtain ⟨out, hturn, -⟩ := h.exists_turn hlen hf
    cases ht.symm.trans hturn
  | case2 sc ht =>
    have hnext : sc.lexer.next = (none, sc.lexer) := h.agrees hlen hf ht
    exact ⟨none, sc, rfl, h, rfl, by rw [hnext, Option.any_none, ← hf]⟩
  | case3 sc sc' ht ih =>
    obtain ⟨h', hsource, hf', hnext⟩ := h.agrees hlen hf ht
    rw [← hsource] at hlen ⊢
    rw [hnext]
    exact ih h' hlen hf'
  | case4 sc t sc' ht =>
    obtain ⟨h', hsource, hf', hnext⟩ := h.agrees hlen hf ht
    exact ⟨some (.token t), sc', rfl, h', hsource, by rw [hnext, lexer, lexer, hf']; rfl⟩
  | case5 sc e ht => exact ⟨some (.error e), sc, rfl, h, rfl, h.agrees hlen hf ht⟩

/-- A call of `next` has no fault, and hands out and leaves what it does for the lexer. -/
theorem InBounds.exists_next {sc : Scanner} (h : sc.InBounds) (hlen : sc.source.length < UInt64.size) :
    ∃ sc', sc.next = .ok (sc.lexer.next.1, sc') ∧ sc'.InBounds ∧ sc'.source = sc.source ∧
      sc'.lexer = sc.lexer.next.2 := by
  cases hf : sc.failed with
  | true =>
    rw [Lexer.next_of_failed hf]
    exact ⟨sc, by simp [next, hf], h, rfl, rfl⟩
  | false =>
    obtain ⟨i?, sc', hscan, h', hsource, hnext⟩ := h.exists_scan hlen hf
    rw [hnext]
    refine ⟨{ sc' with failed := i?.any Item.isError }, ?_, ⟨h'.start_le, h'.le, h'.lt_of_inProgress⟩, hsource, rfl⟩
    rw [next, if_neg (by simp [hf]), hscan]
    rfl

/-- Any number of calls have no fault, and lead to the scanner of the lexer that as many calls lead to. -/
theorem InBounds.exists_after {sc : Scanner} (h : sc.InBounds) (hlen : sc.source.length < UInt64.size) (n : Nat) :
    ∃ sc', sc.after n = .ok sc' ∧ sc'.InBounds ∧ sc'.source = sc.source ∧ sc'.lexer = sc.lexer.after n := by
  induction n generalizing sc with
  | zero => exact ⟨sc, rfl, h, rfl, rfl⟩
  | succ n ih =>
    obtain ⟨sc', hnext, h', hsource, hlexer⟩ := h.exists_next hlen
    obtain ⟨sc'', hafter, h'', hsource', hlexer'⟩ := ih h' (hsource ▸ hlen)
    refine ⟨sc'', ?_, h'', hsource'.trans hsource, ?_⟩
    · rw [after, hnext]
      exact hafter
    · rw [hlexer', hlexer]
      rfl

/-! ### Every turn of every call -/

/-- What holds of a turn that begins in a state of a scanner of the source. It has no fault, so each position that it reads
    and each window that it cuts lies in the source, the window of the longer candidate too, and no sum leaves 64 bits. -/
structure Safe (source : Text) (sc : Scanner) : Prop extends InBounds sc where
  source_eq : sc.source = source
  noFault : ∃ out, sc.turn = .ok out
  lt_of_look : sc.turn ≠ .ok .finished → sc.cursor < sc.source.length
  again : ∀ sc', sc.turn = .ok (.again sc') → sc'.cursor = sc.cursor + 1 ∧ sc'.cursor ≤ sc.source.length

theorem inBounds_ofSource (r : RuleTable) (source : Text) (file? : Option Text) : (ofSource r source file?).InBounds :=
  ⟨Nat.le_refl _, Nat.zero_le _, fun h => absurd h (Nat.lt_irrefl _)⟩

theorem Visits.inBounds {sc₀ sc : Scanner} (h₀ : sc₀.InBounds) (hlen : sc₀.source.length < UInt64.size)
    (h : sc₀.Visits sc) : sc.InBounds ∧ sc.source = sc₀.source ∧ sc.failed = false := by
  induction h with
  | @call n sc hafter hf =>
    obtain ⟨sc', hafter', h', hsource, -⟩ := h₀.exists_after hlen n
    cases hafter.symm.trans hafter'
    exact ⟨h', hsource, hf⟩
  | turn _ ht ih =>
    obtain ⟨h, hsource, hf⟩ := ih
    obtain ⟨h', hsource', hf', -⟩ := h.agrees (hsource ▸ hlen) hf ht
    exact ⟨h', hsource'.trans hsource, hf'⟩

theorem InBounds.safe {sc : Scanner} (h : sc.InBounds) (hlen : sc.source.length < UInt64.size) (hf : sc.failed = false) :
    sc.Safe sc.source where
  toInBounds := h
  source_eq := rfl
  noFault := by
    obtain ⟨out, ht, -⟩ := h.exists_turn hlen hf
    exact ⟨out, ht⟩
  lt_of_look hturn := Nat.not_le.mp fun hle => hturn (by rw [turn, if_pos hle])
  again sc' ht := by
    obtain ⟨hlt, -, hcursor⟩ := turn_again ht
    exact ⟨hcursor, hcursor ▸ hlt⟩

end Scanner

/-- The span of a piece of a source has the length of the piece, if the source has its length in 64 bits. -/
theorem Span.length_of_drop {source v rest : Text} {i : Nat} {c : Char} (h : source.drop i = c :: (v ++ rest))
    (hlen : source.length < UInt64.size) : Span.length ⟨i, i + v.length⟩ = .ok (c :: v).length := by
  have hsource := Munch.length_of_drop h
  rw [List.length_append] at hsource
  have hlast : i + v.length - i + 1 = (c :: v).length := by simp
  rw [Span.length, if_neg (Nat.not_lt.mpr (Nat.le_add_right i _)), hlast, if_pos]
  rw [List.length_cons]
  omega

/-- A source that is held in memory has its length in 64 bits. Any number of calls of `next` on a scanner of it have no
    fault, and hand out what the calls of the lexer do; each turn of the loop begins and goes on in the source; and the
    spans of the tokens and the error are in order and as long as their texts. -/
theorem scan_stays_in_bounds (r : RuleTable) (source : Text) (file? : Option Text) (hlen : source.length < UInt64.size) :
    (∀ n, ∃ sc sc', (Scanner.ofSource r source file?).after n = .ok sc ∧ sc.InBounds ∧
      sc.lexer = (Lexer.ofSource r source file?).after n ∧ sc.next = .ok ((Lexer.ofSource r source file?).call n, sc')) ∧
    (∀ sc, (Scanner.ofSource r source file?).Visits sc → sc.Safe source) ∧
    (∀ n t, (Lexer.ofSource r source file?).call n = some (.token t) →
      t.span.first ≤ t.span.last ∧ t.span.length = .ok t.value.length) ∧
    ∀ n e, (Lexer.ofSource r source file?).call n = some (.error e) →
      e.span.first ≤ e.span.last ∧ e.span.length = .ok e.token.length := by
  have hstart := Scanner.inBounds_ofSource r source file?
  have hlexes := lexes_items r source file?
  refine ⟨fun n => ?_, fun sc h => ?_, fun n t h => ?_, fun n e h => ?_⟩
  · obtain ⟨sc, hafter, hin, hsource, hlexer⟩ := hstart.exists_after hlen n
    obtain ⟨sc', hnext, -⟩ := hin.exists_next (hsource ▸ hlen)
    refine ⟨sc, sc', hafter, hin, hlexer, ?_⟩
    rw [hnext, hlexer]
    rfl
  · obtain ⟨hin, hsource, hf⟩ := h.inBounds hstart hlen
    have hsource : sc.source = source := hsource
    have hsafe := hin.safe (hsource ▸ hlen) hf
    rwa [hsource] at hsafe
  · rw [Lexer.call_ofSource] at h
    obtain ⟨i, c, v, rest, hdrop, -, -, hvalue, hspan⟩ := hlexes.exists_cuts (List.mem_of_getElem? h)
    rw [hspan, hvalue, Nat.zero_add]
    exact ⟨Nat.le_add_right i _, Span.length_of_drop hdrop hlen⟩
  · rw [Lexer.call_ofSource] at h
    obtain ⟨i, c, v, hdrop, -, -, rfl⟩ := hlexes.exists_stuck (List.mem_of_getElem? h)
    rw [Nat.zero_add]
    exact ⟨Nat.le_add_right i _, Span.length_of_drop (by rw [hdrop, List.append_nil]) hlen⟩

/-- The calls on `x//`, two newlines and `@` hand out a token, a comment and an error, and then nothing. -/
theorem scan_stays_in_bounds_failed :
    let source := "x//\n\n@".toList
    source.length < UInt64.size ∧
      (∃ sc sc', (Scanner.ofSource .standard source none).after 2 = .ok sc ∧ sc.InBounds ∧
        sc.next = .ok (some (.error ⟨['@'], ⟨5, 5⟩, Lexer.unnamed⟩), sc')) ∧
      (∃ sc sc', (Scanner.ofSource .standard source none).after 3 = .ok sc ∧ sc.InBounds ∧ sc.next = .ok (none, sc')) ∧
      Span.length ⟨1, 4⟩ = .ok 4 := by
  intro source
  have hlen : source.length < UInt64.size := by decide
  have hitems : (Lexer.ofSource .standard source none).items = [.token ⟨.identifier, ['x'], ⟨0, 0⟩⟩,
      .token ⟨.comment, "//\n\n".toList, ⟨1, 4⟩⟩, .error ⟨['@'], ⟨5, 5⟩, Lexer.unnamed⟩] := rfl
  obtain ⟨hcalls, -, htoken, -⟩ := scan_stays_in_bounds .standard source none hlen
  simp only [Lexer.call_ofSource, hitems] at hcalls htoken
  refine ⟨hlen, ?_, ?_, ?_⟩
  · obtain ⟨sc, sc', hafter, hin, -, hnext⟩ := hcalls 2
    exact ⟨sc, sc', hafter, hin, hnext⟩
  · obtain ⟨sc, sc', hafter, hin, -, hnext⟩ := hcalls 3
    exact ⟨sc, sc', hafter, hin, hnext⟩
  · exact (htoken 1 _ rfl).2

end Munch
