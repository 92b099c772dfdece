import Munch.Proofs.Stream

/-! Two tables on one source. A candidate ends at the same character under both, as long as they give each text that the
    candidate can become the same kind, or kinds that go on as the same other kinds. The items then differ in their
    kinds alone, and they do so up to the first place where the tables disagree. -/

namespace Munch

/-! ### Changing kinds -/

/-- A token whose kind is changed by `f`, which may look at its value. -/
def Token.relabel (f : Text → Kind → Kind) (t : Token) : Token := { t with kind := f t.value t.kind }

def Item.relabel (f : Text → Kind → Kind) : Item → Item := Item.map (Token.relabel f) id

/-- The position at which an item starts. -/
def Item.first : Item → Nat
  | .token t => t.span.first
  | .error e => e.span.first

theorem Item.relabel_id : Item.relabel (fun _ k => k) = id := by
  funext i
  cases i <;> rfl

theorem tokensOf_map_relabel (f : Text → Kind → Kind) (is : List Item) :
    tokensOf (is.map (Item.relabel f)) = (tokensOf is).map (List.map (Token.relabel f)) := by
  rw [Item.relabel, tokensOf_map]
  cases tokensOf is <;> rfl

/-! ### Tables that agree but for labels -/

namespace RuleTable
variable {f : Text → Kind → Kind} {r r' : RuleTable} {w v cs rest : Text} {c : Char} {k : Kind}

/-- On the initial parts of a text `cs` the kinds of `r'` are those of `r` changed by `f`, which keeps what goes on as
    what, and both open the same comments. -/
structure Relabels (r r' : RuleTable) (f : Text → Kind → Kind) (cs : Text) : Prop where
  continuesAs : ∀ v v' k l, (f v k).continuesAs (f v' l) = k.continuesAs l
  isCommentOpener : ∀ v, v <+: cs → r'.isCommentOpener v = r.isCommentOpener v
  classify : ∀ v, v <+: cs → r'.classify v = (r.classify v).map (f v)

namespace Relabels

theorem growsTo_eq (h : r.Relabels r' f cs) (hv : v <+: cs) : r'.growsTo (f w k) v = r.growsTo k v := by
  rw [growsTo, growsTo, h.isCommentOpener v hv, h.classify v hv, Option.any_map]
  congr 2
  funext l
  exact h.continuesAs w v k l

theorem endKind?_eq (h : r.Relabels r' f (w ++ rest)) :
    r'.endKind? w rest.head? = (r.endKind? w rest.head?).map (f w) := by
  rw [endKind?, endKind?, h.classify w (List.prefix_append w rest), Option.filter_map]
  congr 2
  funext k
  cases rest with
  | nil => rfl
  | cons d rest =>
    have hd : w ++ [d] <+: w ++ d :: rest := ⟨rest, by simp⟩
    simp [h.growsTo_eq hd]

theorem growsThrough (h : r.Relabels r' f (w ++ (v ++ rest))) (hg : r.GrowsThrough w v) : r'.GrowsThrough w v := by
  rw [growsThrough_iff] at hg ⊢
  rintro u d t rfl
  have hu : r.Relabels r' f (w ++ u ++ d :: (t ++ rest)) := by simpa using h
  have hend := hu.endKind?_eq
  rwa [List.head?_cons, hg u d t rfl] at hend

theorem cuts (h : r.Relabels r' f (c :: (v ++ rest))) (hcut : r.Cuts c v k rest.head?) :
    r'.Cuts c v (f (c :: v) k) rest.head? := by
  refine ⟨growsThrough (w := [c]) h hcut.grows, ?_⟩
  have hend : r'.endKind? (c :: v) rest.head? = _ := endKind?_eq (w := c :: v) h
  rw [hend, hcut.ends, Option.map_some]

theorem stuck (h : r.Relabels r' f (c :: v)) (hs : r.Stuck c v) : r'.Stuck c v := by
  have h' : r.Relabels r' f ([c] ++ (v ++ [])) := by simpa using h
  refine ⟨h'.growsThrough hs.grows, ?_⟩
  rw [h.classify _ List.prefix_rfl, hs.unclassified, Option.map_none]

end Relabels

end RuleTable

/-! ### Derivations -/

section
variable {f : Text → Kind → Kind} {agree : Nat → Bool} {i : Item} {is is' : List Item}

/-- The items `is'` are the relabelled items `is`, up to the first one of `is` that starts where the tables disagree. -/
structure Follows (f : Text → Kind → Kind) (agree : Nat → Bool) (is is' : List Item) : Prop where
  before : (is.takeWhile fun i => agree i.first).map (Item.relabel f) <+: is'
  all : (∀ i ∈ is, agree i.first = true) → is' = is.map (Item.relabel f)

namespace Follows

theorem nil : Follows f agree [] [] := ⟨List.nil_prefix, fun _ => rfl⟩

theorem cons (hi : agree i.first = true) (h : Follows f agree is is') :
    Follows f agree (i :: is) (i.relabel f :: is') := by
  refine ⟨?_, fun hall => ?_⟩
  · simp only [List.takeWhile_cons, hi, ↓reduceIte, List.map_cons, List.prefix_cons_inj]
    exact h.before
  · rw [h.all fun j hj => hall j (List.mem_cons_of_mem i hj), List.map_cons]

theorem of_disagree (hi : agree i.first = false) : Follows f agree (i :: is) is' := by
  refine ⟨?_, fun hall => ?_⟩
  · simp [hi]
  · have := hall i List.mem_cons_self
    simp [hi] at this

end Follows

theorem Lexes.relabel {r r' : RuleTable} {file : Text} {p : Nat} {cs : Text} (h : Lexes r file p cs is)
    (hr : ∀ i, agree (p + i) = true → r.Relabels r' f (cs.drop i)) :
    ∃ is', Lexes r' file p cs is' ∧ Follows f agree is is' := by
  induction h with
  | nil => exact ⟨[], .nil, .nil⟩
  | @blank p c cs is hc _ ih =>
    obtain ⟨is', h', hfollows⟩ := ih fun i hi => hr (i + 1) (by rwa [Nat.add_comm i, ← Nat.add_assoc])
    exact ⟨is', .blank hc h', hfollows⟩
  | @token p c v rest k is hc hcut _ ih =>
    -- Where the tables disagree, the other one has some items, and nothing is said of them.
    cases hp : agree p with
    | false =>
      obtain ⟨is', h'⟩ := exists_lexes r' file p (c :: (v ++ rest))
      exact ⟨is', h', .of_disagree hp⟩
    | true =>
      have hstart : r.Relabels r' f (c :: (v ++ rest)) := hr 0 hp
      obtain ⟨is', h', hfollows⟩ := ih fun i hi => by
        have hdrop : (c :: (v ++ rest)).drop (v.length + 1 + i) = rest.drop i := by
          rw [← List.drop_drop, List.drop_succ_cons, List.drop_left]
        exact hdrop ▸ hr _ (by rwa [← Nat.add_assoc, ← Nat.add_assoc])
      exact ⟨_, .token hc (hstart.cuts hcut) h', hfollows.cons hp⟩
  | @error p c v hc hs =>
    cases hp : agree p with
    | false =>
      obtain ⟨is', h'⟩ := exists_lexes r' file p (c :: v)
      exact ⟨is', h', .of_disagree hp⟩
    | true =>
      have hstart : r.Relabels r' f (c :: v) := hr 0 hp
      exact ⟨_, .error hc (hstart.stuck hs), Follows.nil.cons hp⟩

/-- The items of a source under two tables that agree but for labels where `agree` says so. -/
theorem follows_items {r r' : RuleTable} (agree : Nat → Bool) (source : Text) (file? : Option Text)
    (hr : ∀ i, agree i = true → r.Relabels r' f (source.drop i)) :
    Follows f agree (Lexer.ofSource r source file?).items (Lexer.ofSource r' source file?).items := by
  obtain ⟨is', h', hfollows⟩ := (lexes_items r source file?).relabel fun i hi => hr i (by rwa [Nat.zero_add] at hi)
  rwa [(lexes_items r' source file?).unique h']

end

end Munch
