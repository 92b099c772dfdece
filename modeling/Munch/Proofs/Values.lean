import Munch.Proofs.Calls

/-! The values of tokens. A token is cut off from what the lexer has read of it, and the character behind it counts only
    in that the candidate does not go on with it. So its value alone, which no character follows, is read as the same
    token, and the texts that can be tokens are the sources that are one token. Not every text of some kind is one: a
    candidate may end before it gets so far. -/

namespace Munch

section
variable {r : RuleTable} {source v : Text} {file? : Option Text} {n : Nat} {c : Char} {k : Kind} {t : Token}

theorem exists_cuts_of_call (h : (Lexer.ofSource r source file?).call n = some (.token t)) :
    ∃ c v next?, t.value = c :: v ∧ isBlank c = false ∧ r.Cuts c v t.kind next? := by
  rw [Lexer.call_ofSource] at h
  obtain ⟨_, c, v, rest, -, hc, hcut, hvalue, -⟩ := (lexes_items r source file?).exists_cuts (List.mem_of_getElem? h)
  exact ⟨c, v, rest.head?, hvalue, hc, hcut⟩

theorem tokenize_of_cuts {next? : Option Char} (hc : isBlank c = false) (hcut : r.Cuts c v k next?) (file? : Option Text) :
    tokenize r (c :: v) file? = .ok [⟨k, c :: v, ⟨0, (c :: v).length - 1⟩⟩] := by
  rw [tokenize_of_lexes (hcut.lexes hc _ 0), Nat.zero_add]
  rfl

/-- Whatever call hands out a token, its value as a source of its own is this one token, from its first character to its
    last. What stands around the token does not matter, nor whether the lexer fails behind it. -/
theorem tokenize_value (h : (Lexer.ofSource r source file?).call n = some (.token t)) (file?' : Option Text) :
    tokenize r t.value file?' = .ok [⟨t.kind, t.value, ⟨0, t.value.length - 1⟩⟩] := by
  obtain ⟨c, v, next?, hvalue, hc, hcut⟩ := exists_cuts_of_call h
  rw [hvalue, tokenize_of_cuts hc hcut]

/-- The comment takes in both newlines, and ends at a character of which no token can be made. -/
theorem tokenize_value_comment :
    let source := "x//\n\n@".toList
    let t : Token := ⟨.comment, "//\n\n".toList, ⟨1, 4⟩⟩
    (Lexer.ofSource .standard source none).call 1 = some (.token t) ∧
      (Lexer.ofSource .standard source none).call 2 = some (.error ⟨['@'], ⟨5, 5⟩, Lexer.unnamed⟩) ∧
      tokenize .standard t.value none = .ok [⟨.comment, t.value, ⟨0, 3⟩⟩] := by
  intro source t
  have hitems : (Lexer.ofSource .standard source none).items =
      [.token ⟨.identifier, ['x'], ⟨0, 0⟩⟩, .token t, .error ⟨['@'], ⟨5, 5⟩, Lexer.unnamed⟩] := rfl
  have htoken : (Lexer.ofSource .standard source none).call 1 = some (.token t) := by
    rw [Lexer.call_ofSource, hitems]
    rfl
  refine ⟨htoken, ?_, tokenize_value htoken none⟩
  rw [Lexer.call_ofSource, hitems]
  rfl

/-- Some source has a token of kind `k` with the value `w` just when `w` as a source is this token. -/
theorem exists_call_iff (w : Text) : (∃ source file? n t, (Lexer.ofSource r source file?).call n = some (.token t) ∧
    t.value = w ∧ t.kind = k) ↔ tokenize r w none = .ok [⟨k, w, ⟨0, w.length - 1⟩⟩] := by
  constructor
  · rintro ⟨source, file?, n, t, h, rfl, rfl⟩
    obtain ⟨c, v, next?, hvalue, hc, hcut⟩ := exists_cuts_of_call h
    rw [hvalue, tokenize_of_cuts hc hcut]
  · intro h
    exact ⟨w, none, 0, _, (tokenize_eq_ok_iff_call r w none _).mp h 0, rfl, rfl⟩

end

end Munch
