import Munch.Proofs.Calls
import Munch.Proofs.Rules.Relabeling

/-! Tables with the same rules. The order of the entries of a table and their number do not count, and neither does which
    truth value or which bound is the first one: every test asks only whether some entry fits. -/

namespace Munch

namespace RuleTable

/-- The two tables have the same entries of each sort, in any order and any number, and the same two truth values and the
    same two bounds, in either order. -/
structure SameRules (r r' : RuleTable) : Prop where
  keywords : ∀ w, w ∈ r'.keywords ↔ w ∈ r.keywords
  breakers : ∀ w, w ∈ r'.breakers ↔ w ∈ r.breakers
  operators : ∀ w, w ∈ r'.operators ↔ w ∈ r.operators
  commentPairs : ∀ p, p ∈ r'.commentPairs ↔ p ∈ r.commentPairs
  boolValues : r'.boolValues = r.boolValues ∨ r'.boolValues = r.boolValues.swap
  bounds : (r'.stringBound = r.stringBound ∧ r'.runeBound = r.runeBound) ∨
    (r'.stringBound = r.runeBound ∧ r'.runeBound = r.stringBound)

theorem contains_congr {ws ws' : List Text} (h : ∀ w, w ∈ ws' ↔ w ∈ ws) (w : Text) : ws'.contains w = ws.contains w := by
  rw [Bool.eq_iff_iff, List.contains_iff_mem, List.contains_iff_mem, h]

theorem any_congr {ps ps' : List CommentPair} (h : ∀ p, p ∈ ps' ↔ p ∈ ps) (f : CommentPair → Bool) :
    ps'.any f = ps.any f := by
  rw [Bool.eq_iff_iff, List.any_eq_true, List.any_eq_true]
  simp only [h]

namespace SameRules
variable {r r' : RuleTable}

theorem isBool_eq (h : SameRules r r') (w : Text) : r'.isBool w = r.isBool w := by
  rcases h.boolValues with h | h
  · rw [isBool, h, isBool]
  · rw [isBool, h, isBool, Prod.fst_swap, Prod.snd_swap, Bool.or_comm]

theorem isLiteral_eq (h : SameRules r r') (w : Text) : r'.isLiteral w = r.isLiteral w := by
  rw [isLiteral, isLiteral, h.isBool_eq]
  rcases h.bounds with ⟨hstring, hrune⟩ | ⟨hstring, hrune⟩
  · rw [hstring, hrune]
  · rw [hstring, hrune, Bool.or_comm (isBounded r.runeBound w)]

theorem admits_eq (h : SameRules r r') (k : Kind) (w : Text) : r'.admits k w = r.admits k w := by
  cases k with
  | keyword => exact contains_congr h.keywords w
  | breaker => exact contains_congr h.breakers w
  | operator => exact contains_congr h.operators w
  | literal => exact h.isLiteral_eq w
  | identifier => rfl
  | newline => rfl
  | comment => exact any_congr h.commentPairs _

theorem isCommentOpener_eq (h : SameRules r r') (w : Text) : r'.isCommentOpener w = r.isCommentOpener w :=
  any_congr h.commentPairs _

theorem classify_eq (h : SameRules r r') (w : Text) : r'.classify w = r.classify w := by
  simp only [classify, h.admits_eq]

theorem relabels (h : SameRules r r') (cs : Text) : r.Relabels r' (fun _ k => k) cs where
  continuesAs _ _ _ _ := rfl
  isCommentOpener v _ := h.isCommentOpener_eq v
  classify v _ := by rw [Option.map_id', h.classify_eq]

end SameRules

end RuleTable

/-- Tables with the same rules give every text the same kind and every source the same items, by whatever calls they are
    taken. -/
theorem items_eq_of_sameRules {r r' : RuleTable} (h : r.SameRules r') :
    (∀ w, r'.classify w = r.classify w) ∧ ∀ (source : Text) (file? : Option Text),
      (Lexer.ofSource r' source file?).items = (Lexer.ofSource r source file?).items ∧
      (∀ n, (Lexer.ofSource r' source file?).call n = (Lexer.ofSource r source file?).call n) ∧
      tokenize r' source file? = tokenize r source file? := by
  refine ⟨h.classify_eq, fun source file? => ?_⟩
  have hitems : (Lexer.ofSource r' source file?).items = (Lexer.ofSource r source file?).items := by
    have hall := (follows_items (fun _ => true) source file? fun i _ => h.relabels (source.drop i)).all fun _ _ => rfl
    rwa [Item.relabel_id, List.map_id] at hall
  refine ⟨hitems, fun n => ?_, ?_⟩
  · rw [Lexer.call_ofSource, Lexer.call_ofSource, hitems]
  · rw [tokenize_eq_tokensOf_items, tokenize_eq_tokensOf_items, hitems]

/-- With the pairs in the other order `//` still opens a comment, and both bounds still open literals. -/
theorem items_eq_of_sameRules_standard :
    let r := RuleTable.standard
    let r' : RuleTable := { r with
      keywords := r.keywords.reverse ++ r.keywords
      operators := r.operators.reverse
      commentPairs := r.commentPairs.reverse
      boolValues := r.boolValues.swap
      stringBound := r.runeBound
      runeBound := r.stringBound }
    r.SameRules r' ∧ r'.classify "true".toList = some .literal ∧
      (Lexer.ofSource r' "use 'a'//b".toList none).items = [.token ⟨.keyword, "use".toList, ⟨0, 2⟩⟩,
        .token ⟨.literal, "'a'".toList, ⟨4, 6⟩⟩, .error ⟨"//b".toList, ⟨7, 9⟩, Lexer.unnamed⟩] := by
  intro r r'
  have h : r.SameRules r' := {
    keywords := by simp [r']
    breakers := fun _ => Iff.rfl
    operators := by simp [r']
    commentPairs := by simp [r']
    boolValues := Or.inr rfl
    bounds := Or.inr ⟨rfl, rfl⟩ }
  obtain ⟨hkinds, hitems⟩ := items_eq_of_sameRules h
  refine ⟨h, ?_, ?_⟩
  · rw [hkinds]
    decide
  · rw [(hitems _ none).1]
    rfl

end Munch
