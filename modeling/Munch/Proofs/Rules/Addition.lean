import Munch.Proofs.Rules.Kinds
import Munch.Proofs.Rules.Relabeling

/-! What one more rule does to the items of a source. A rule speaks of texts that start with its own text
    only, so it changes nothing before the first item that starts with this text; and a reserved word changes the kind
    of the identifiers that it reserves, but no place where a token ends. -/

namespace Munch

namespace RuleTable

/-! ### Texts that a rule speaks of -/

namespace Addition

/-- The text of a rule; that of a comment pair is its opener. -/
def text : Addition → Text
  | .keyword w | .breaker w | .operator w => w
  | .commentPair p => p.opener

/-- Whether a rule alone makes a text open a comment. -/
def opens : Addition → Text → Bool
  | .commentPair p, v => p.opener == v
  | _, _ => false

end Addition

variable {r : RuleTable} {x : Addition} {v w cs : Text} {k : Kind}

theorem isCommentOpener_add (r : RuleTable) (x : Addition) (v : Text) :
    (r.add x).isCommentOpener v = (r.isCommentOpener v || x.opens v) := by
  cases x <;> simp [add, isCommentOpener, Addition.opens]

theorem text_prefix_of_grants (h : x.grants k v = true) : x.text <+: v := by
  cases x <;> cases k <;> simp only [Addition.grants, Bool.false_eq_true, beq_iff_eq] at h
  case keyword.keyword => exact h ▸ List.prefix_rfl
  case breaker.breaker => exact h ▸ List.prefix_rfl
  case operator.operator => exact h ▸ List.prefix_rfl
  case commentPair.comment =>
    simp only [CommentPair.encloses, Bool.and_eq_true, List.isPrefixOf_iff_prefix] at h
    exact h.1

theorem text_prefix_of_opens (h : x.opens v = true) : x.text <+: v := by
  cases x <;> simp only [Addition.opens, Bool.false_eq_true, beq_iff_eq] at h
  exact h ▸ List.prefix_rfl

/-! ### One more rule and the items of a source -/

/-- A rule changes nothing for texts that do not start with its text. -/
theorem relabels_add (r : RuleTable) (h : ¬x.text <+: cs) : r.Relabels (r.add x) (fun _ k => k) cs where
  continuesAs _ _ _ _ := rfl
  isCommentOpener v hv := by
    have hopens : x.opens v = false := by
      rw [Bool.eq_false_iff]
      exact fun ho => h ((text_prefix_of_opens ho).trans hv)
    rw [isCommentOpener_add, hopens, Bool.or_false]
  classify v hv := by
    rw [Option.map_id']
    refine classify_add_eq fun k => ?_
    rw [Bool.eq_false_iff]
    exact fun hg => h ((text_prefix_of_grants hg).trans hv)

end RuleTable

/-- With one more rule the lexer hands out the same items up to the first one that starts, under the table as it was,
    where the text of the rule stands in the source. When no item starts there, all items and the answer are the same. -/
theorem items_add (r : RuleTable) (x : RuleTable.Addition) (source : Text) (file? : Option Text) :
    (((Lexer.ofSource r source file?).items.takeWhile fun i => !x.text.isPrefixOf (source.drop i.first)) <+:
      (Lexer.ofSource (r.add x) source file?).items) ∧
    ((∀ i ∈ (Lexer.ofSource r source file?).items, ¬x.text <+: source.drop i.first) →
      (Lexer.ofSource (r.add x) source file?).items = (Lexer.ofSource r source file?).items ∧
        tokenize (r.add x) source file? = tokenize r source file?) := by
  have hagree : ∀ i, (!x.text.isPrefixOf (source.drop i)) = true → r.Relabels (r.add x) (fun _ k => k) (source.drop i) :=
    fun i hi => RuleTable.relabels_add r (by simpa [← List.isPrefixOf_iff_prefix] using hi)
  obtain ⟨hbefore, hall⟩ := follows_items (fun i => !x.text.isPrefixOf (source.drop i)) source file? hagree
  rw [Item.relabel_id, List.map_id] at hbefore hall
  refine ⟨hbefore, fun hnone => ?_⟩
  have hitems := hall fun i hi => by simpa [← List.isPrefixOf_iff_prefix] using hnone i hi
  exact ⟨hitems, by rw [tokenize_eq_tokensOf_items, tokenize_eq_tokensOf_items, hitems]⟩

/-- From there on the items may differ: the operators become a comment, which takes in what follows them. -/
example : (Lexer.ofSource (RuleTable.standard.add (.commentPair ⟨['-', '-'], ['\n']⟩)) "a --b\n".toList none).items =
    [.token ⟨.identifier, ['a'], ⟨0, 0⟩⟩, .token ⟨.comment, "--b\n".toList, ⟨2, 5⟩⟩] := rfl

/-! ### Reserving a word -/

/-- The kind of a text once the word `w` is reserved. -/
def reserve (w v : Text) (k : Kind) : Kind := if k = .identifier ∧ v = w then .keyword else k

theorem continuesAs_reserve (w v v' : Text) (k l : Kind) :
    (reserve w v k).continuesAs (reserve w v' l) = k.continuesAs l := by
  unfold reserve
  split
  · next hk =>
    split
    · next hl => rw [hk.1, hl.1, Kind.keyword_continuesAs, Kind.continuesAs_keyword]
    · rw [hk.1, Kind.keyword_continuesAs]
  · split
    · next hl => rw [hl.1, Kind.continuesAs_keyword]
    · rfl

namespace RuleTable
variable {r : RuleTable} {w v : Text} {k : Kind}

theorem classify_add_keyword (hw : r.classify w = some k) (hk : k ∈ [.identifier, .keyword, .literal]) (v : Text) :
    (r.add (.keyword w)).classify v = (r.classify v).map (reserve w v) := by
  rw [classify_add]
  by_cases hv : v = w
  · rw [hv, hw]
    simp only [List.mem_cons, List.not_mem_nil, or_false] at hk
    rcases hk with rfl | rfl | rfl <;> simp [Addition.grants, Addition.kind, yieldsTo_keyword, reserve]
  · have hgrants : (Addition.keyword w).grants .keyword v = false := by simp [Addition.grants, hv]
    have hreserve : reserve w v = id := by
      funext l
      simp [reserve, hv]
    rw [Addition.kind, hgrants, Bool.false_and, if_neg Bool.false_ne_true, hreserve, Option.map_id_fun, id]

theorem relabels_reserve (hw : r.classify w = some k) (hk : k ∈ [.identifier, .keyword, .literal]) (cs : Text) :
    r.Relabels (r.add (.keyword w)) (reserve w) cs where
  continuesAs := continuesAs_reserve w
  isCommentOpener _ _ := rfl
  classify v _ := classify_add_keyword hw hk v

end RuleTable

/-- Reserving a word that is an identifier, a keyword or a literal changes the items of a source only in that the
    identifiers with that value are keywords. -/
theorem items_reserve {r : RuleTable} {w : Text} {k : Kind} (hw : r.classify w = some k)
    (hk : k ∈ [.identifier, .keyword, .literal]) (source : Text) (file? : Option Text) :
    (Lexer.ofSource (r.add (.keyword w)) source file?).items =
      (Lexer.ofSource r source file?).items.map (Item.relabel (reserve w)) ∧
    tokenize (r.add (.keyword w)) source file? =
      (tokenize r source file?).map (List.map (Token.relabel (reserve w))) := by
  have hitems := (follows_items (fun _ => true) source file? fun i _ =>
    RuleTable.relabels_reserve hw hk (source.drop i)).all fun _ _ => rfl
  refine ⟨hitems, ?_⟩
  rw [tokenize_eq_tokensOf_items, tokenize_eq_tokensOf_items, hitems, tokensOf_map_relabel]

/-- Reserving `us` makes neither the keyword `use` nor the identifier `uses` end earlier, and the error stays where it is. -/
theorem items_reserve_us :
    let r := RuleTable.standard
    r.classify "us".toList = some .identifier ∧
      (Lexer.ofSource (r.add (.keyword "us".toList)) "us use uses #".toList none).items =
        [.token ⟨.keyword, "us".toList, ⟨0, 1⟩⟩, .token ⟨.keyword, "use".toList, ⟨3, 5⟩⟩,
          .token ⟨.identifier, "uses".toList, ⟨7, 10⟩⟩, .error ⟨['#'], ⟨12, 12⟩, Lexer.unnamed⟩] := by
  intro r
  have hw : r.classify "us".toList = some .identifier := by decide
  refine ⟨hw, ?_⟩
  rw [(items_reserve hw (by simp) "us use uses #".toList none).1]
  rfl

end Munch
