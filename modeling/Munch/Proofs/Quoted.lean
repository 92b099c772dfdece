import Mathlib.Data.List.Basic
import Mathlib.Tactic.Cases
import Munch.LexError
import Munch.Proofs.Dump

/-! Quoted texts. No written form of a character begins another one, so a text can be read back from how it is written, whatever
    characters are held for non-printable and for merging. With that the short form of a token tells its kind, its span and its
    value, and the advice on an error tells its text. -/

namespace Munch

namespace Text

/-! ### Numbers -/

theorem append_cons_inj {a : Char} {u v x y : Text} (hu : a ∉ u) (hv : a ∉ v) :
    u ++ a :: x = v ++ a :: y ↔ u = v ∧ x = y := by
  refine ⟨fun h => ?_, by rintro ⟨rfl, rfl⟩; rfl⟩
  induction u generalizing v with
  | nil =>
    cases v with
    | nil => exact ⟨rfl, (List.cons.inj h).2⟩
    | cons c v => exact absurd ((List.cons.inj h).1 ▸ List.mem_cons_self) hv
  | cons c u ih =>
    obtain ⟨hc, hu⟩ := List.ne_and_not_mem_of_not_mem_cons hu
    cases v with
    | nil => exact absurd (List.cons.inj h).1.symm hc
    | cons d v =>
      obtain ⟨rfl, htail⟩ := List.cons.inj h
      obtain ⟨rfl, rfl⟩ := ih hu (List.not_mem_of_not_mem_cons hv) htail
      exact ⟨rfl, rfl⟩

theorem concat_ne_singleton {w : Text} {c d : Char} (hw : w ≠ []) : w ++ [c] ≠ [d] := by
  cases w with
  | nil => exact absurd rfl hw
  | cons => simp

theorem digitChar_inj : ∀ m < 16, ∀ n < 16, Nat.digitChar m = Nat.digitChar n → m = n := by
  decide

theorem toDigits_injective {b : Nat} (hb : 1 < b) (hb' : b ≤ 16) : Function.Injective (Nat.toDigits b) := by
  intro m
  induction m using Nat.strongRecOn with
  | ind m ih =>
    intro n h
    rw [Nat.toDigits_eq_if hb, Nat.toDigits_eq_if hb (n := n)] at h
    split_ifs at h with hm hn hn
    · exact digitChar_inj m (by omega) n (by omega) (List.singleton_inj.mp h)
    · exact absurd h.symm (concat_ne_singleton Nat.toDigits_ne_nil)
    · exact absurd h (concat_ne_singleton Nat.toDigits_ne_nil)
    · obtain ⟨hdiv, hmod⟩ := List.append_inj' h rfl
      have hm' : m % b < b := Nat.mod_lt m (by omega)
      have hn' : n % b < b := Nat.mod_lt n (by omega)
      have hq := ih (m / b) (Nat.div_lt_self (by omega) hb) hdiv
      have hr := digitChar_inj _ (by omega) _ (by omega) (List.singleton_inj.mp hmod)
      rw [← Nat.div_add_mod m b, ← Nat.div_add_mod n b, hq, hr]

theorem exists_digit_of_mem_toDigits {b n : Nat} {c : Char} (hb : 1 < b) (h : c ∈ Nat.toDigits b n) :
    ∃ d < b, Nat.digitChar d = c := by
  induction n using Nat.strongRecOn with
  | ind n ih =>
    rw [Nat.toDigits_eq_if hb] at h
    split_ifs at h with hn
    · exact ⟨n, hn, (List.mem_singleton.mp h).symm⟩
    · rcases List.mem_append.mp h with h | h
      · exact ih (n / b) (Nat.div_lt_self (by omega) hb) h
      · exact ⟨n % b, Nat.mod_lt n (by omega), (List.mem_singleton.mp h).symm⟩

theorem not_mem_hexadecimal {c : Char} (hc : ∀ d < 16, Nat.digitChar d ≠ c) (n : Nat) : c ∉ hexadecimal n := by
  intro h
  obtain ⟨d, hd, hdigit⟩ := exists_digit_of_mem_toDigits (by decide) h
  exact hc d hd hdigit

end Text

/-! ### Written forms -/

namespace Quoting
open Text

/-- The characters that are written with a backslash, each with the letter behind it. -/
def letters : List (Char × Char) :=
  [('\x00', '0'), ('\t', 't'), ('\r', 'r'), ('\n', 'n'), ('\\', '\\'), ('\x22', '\x22'), ('\x27', '\x27')]

/-- The written forms of a character: the character itself, a letter behind a backslash, or its code point. -/
inductive Form : Char → Text → Prop
  | plain {c : Char} (hbackslash : c ≠ '\\') (hnewline : c ≠ '\n') : Form c [c]
  | letter {c l : Char} (h : (c, l) ∈ letters) : Form c ['\\', l]
  | code {c : Char} : Form c (codePoint c)

/-- A text is written as forms of its characters, one after the other. -/
inductive Writes : Text → Text → Prop
  | nil : Writes [] []
  | cons {c : Char} {cs u x : Text} (hform : Form c u) (h : Writes cs x) : Writes (c :: cs) (u ++ x)

section
variable {c d : Char} {u v w x y : Text}

theorem eq_of_letters {l : Char} (hc : (c, l) ∈ letters) (hd : (d, l) ∈ letters) : c = d := by
  have hall : ∀ p ∈ letters, ∀ q ∈ letters, p.2 = q.2 → p.1 = q.1 := by decide
  exact hall _ hc _ hd rfl

theorem letter_ne_u {l : Char} (h : (c, l) ∈ letters) : l ≠ 'u' := by
  have hall : ∀ p ∈ letters, p.2 ≠ 'u' := by decide
  exact hall _ h

theorem letter_ne_newline {l : Char} (h : (c, l) ∈ letters) : l ≠ '\n' := by
  have hall : ∀ p ∈ letters, p.2 ≠ '\n' := by decide
  exact hall _ h

theorem codePoint_append (c : Char) (x : Text) :
    codePoint c ++ x = '\\' :: 'u' :: '\x7b' :: (hexadecimal c.toNat ++ '\x7d' :: x) := by
  simp [codePoint]

theorem codePoint_append_inj (h : codePoint c ++ x = codePoint d ++ y) : c = d ∧ x = y := by
  rw [codePoint_append, codePoint_append] at h
  obtain ⟨hdigits, htail⟩ := (append_cons_inj (not_mem_hexadecimal (by decide) _) (not_mem_hexadecimal (by decide) _)).mp
    (List.cons.inj (List.cons.inj (List.cons.inj h).2).2).2
  exact ⟨Char.toNat_inj.mp (toDigits_injective (by decide) (Nat.le_refl 16) hdigits), htail⟩

/-- No form begins another one: what is written tells the first character, and where the next one begins. -/
theorem Form.append_inj (hc : Form c u) (hd : Form d v) (h : u ++ x = v ++ y) : c = d ∧ x = y := by
  cases hc with
  | plain hbackslash _ =>
    cases hd with
    | plain _ _ => exact List.cons.inj h
    | letter _ => exact absurd (List.cons.inj h).1 hbackslash
    | code => exact absurd (List.cons.inj h).1 hbackslash
  | letter hl =>
    cases hd with
    | plain hbackslash _ => exact absurd (List.cons.inj h).1.symm hbackslash
    | letter hl' =>
      obtain ⟨rfl, htail⟩ := List.cons.inj (List.cons.inj h).2
      exact ⟨eq_of_letters hl hl', htail⟩
    | code => exact absurd (List.cons.inj (List.cons.inj h).2).1 (letter_ne_u hl)
  | code =>
    cases hd with
    | plain hbackslash _ => exact absurd (List.cons.inj h).1.symm hbackslash
    | letter hl => exact absurd (List.cons.inj (List.cons.inj h).2).1.symm (letter_ne_u hl)
    | code => exact codePoint_append_inj h

theorem Form.newline_not_mem (h : Form c u) : '\n' ∉ u := by
  cases h with
  | plain _ hnewline => simpa using Ne.symm hnewline
  | letter hl => simpa using Ne.symm (letter_ne_newline hl)
  | code =>
    have hdigits := not_mem_hexadecimal (c := '\n') (by decide) c.toNat
    simp [codePoint, hdigits]

theorem Form.of_eq {l : Char} (hd : (d, l) ∈ letters) (h : c = d) : Form c ['\\', l] := h ▸ .letter hd

theorem Form.ne_nil (h : Form c u) : u ≠ [] := by
  cases h <;> exact List.cons_ne_nil _ _

/-- What is written is the writing of one text only. -/
theorem Writes.unique (h : Writes v x) (h' : Writes w y) (hxy : x = y) : v = w := by
  induction h generalizing w y with
  | nil =>
    cases h' with
    | nil => rfl
    | cons hform' _ => exact absurd (List.append_eq_nil_iff.mp hxy.symm).1 hform'.ne_nil
  | cons hform _ ih =>
    cases h' with
    | nil => exact absurd (List.append_eq_nil_iff.mp hxy).1 hform.ne_nil
    | cons hform' h' =>
      obtain ⟨rfl, hrest⟩ := hform.append_inj hform' hxy
      rw [ih h' hrest]

theorem Writes.newline_not_mem (h : Writes w x) : '\n' ∉ x := by
  induction h with
  | nil => exact List.not_mem_nil
  | cons hform _ ih => exact List.not_mem_append hform.newline_not_mem ih

end

/-! ### Escapes -/

section
variable (cls : CharClasses) (q : Quoting)

theorem form_escapeChar (isFirst : Bool) (c : Char) : Form c (q.escapeChar cls isFirst c) := by
  unfold escapeChar
  refine iteInduction (.of_eq (by decide)) fun _ => iteInduction (.of_eq (by decide)) fun _ =>
    iteInduction (.of_eq (by decide)) fun _ => iteInduction (.of_eq (by decide)) fun hnewline =>
    iteInduction (.of_eq (by decide)) fun hbackslash => iteInduction (.of_eq (by decide)) fun _ =>
    iteInduction (fun hsingle => .of_eq (d := '\x27') (by decide) ?_) fun _ => iteInduction (fun _ => .code) fun _ =>
    iteInduction (fun _ => .code) fun _ => .plain hbackslash hnewline
  simp only [Bool.and_eq_true, decide_eq_true_eq] at hsingle
  exact hsingle.1

theorem writes_escape (w : Text) : Writes w (q.escape cls w) := by
  have hlater (cs : Text) : Writes cs (cs.flatMap (q.escapeChar cls false)) := by
    induction cs with
    | nil => exact .nil
    | cons c cs ih => exact .cons (form_escapeChar cls q false c) ih
  cases w with
  | nil => exact .nil
  | cons c cs => exact .cons (form_escapeChar cls q true c) (hlater cs)

theorem escape_injective : Function.Injective (q.escape cls) :=
  fun v w h => (writes_escape cls q v).unique (writes_escape cls q w) h

theorem newline_not_mem_escape (w : Text) : '\n' ∉ q.escape cls w := (writes_escape cls q w).newline_not_mem

end

end Quoting

/-! ### Short forms and advice -/

theorem Kind.name_injective : Function.Injective Kind.name := by
  intro k l h
  have hname (k : Kind) : ofName? k.name = some k := by cases k <;> rfl
  rw [← Option.some_inj, ← hname k, ← hname l, h]

theorem Span.render_injective : Function.Injective Span.render := by
  rintro ⟨first, last⟩ ⟨first', last'⟩ h
  simp only [render, List.cons_append, List.append_assoc, List.nil_append, List.cons.injEq, true_and] at h
  obtain ⟨hfirst, hrest⟩ := (Text.append_cons_inj (Text.not_mem_decimal rfl _) (Text.not_mem_decimal rfl _)).mp h
  simp only [List.cons.injEq, true_and] at hrest
  obtain ⟨hlast, -⟩ := (Text.append_cons_inj (Text.not_mem_decimal rfl _) (Text.not_mem_decimal rfl _)).mp hrest
  have hdecimal := Text.toDigits_injective (b := 10) (by decide) (by decide)
  rw [hdecimal hfirst, hdecimal hlast]

section
variable (cls : CharClasses)

theorem Text.quoted_injective : Function.Injective (Text.quoted cls) := by
  intro v w h
  exact Quoting.escape_injective cls .value (List.append_cancel_right (List.cons.inj h).2)

theorem Token.renderWith_injective : Function.Injective (Token.renderWith cls) := by
  rintro ⟨kind, value, span⟩ ⟨kind', value', span'⟩ h
  simp only [renderWith, List.append_assoc, List.cons_append] at h
  obtain ⟨hkind, hrest⟩ := (Text.append_cons_inj (kind.not_mem_name rfl) (kind'.not_mem_name rfl)).mp h
  obtain ⟨hspan, hvalue⟩ := (Text.append_cons_inj (span.not_mem_render rfl (by decide))
    (span'.not_mem_render rfl (by decide))).mp hrest
  rw [Kind.name_injective hkind, Span.render_injective hspan, Text.quoted_injective cls hvalue]

theorem Token.newline_not_mem_renderWith (t : Token) : '\n' ∉ t.renderWith cls := by
  have hkind := t.kind.not_mem_name (c := '\n') rfl
  have hspan := t.span.not_mem_render (c := '\n') rfl (by decide)
  have hvalue := Quoting.newline_not_mem_escape cls .value t.value
  simp [renderWith, Text.quoted, hkind, hspan, hvalue]

theorem LexError.tipWith_eq {e : LexError} (h : e.token.length ≠ 1) : e.tipWith cls =
    some ("no lexical rule matches ".toList ++ ['\x60'] ++ Quoting.fragment.escape cls e.token ++ ['\x60']
      ++ ", is a literal or comment left unclosed?".toList) :=
  if_neg h

theorem LexError.token_eq_of_tipWith {e f : LexError} (he : e.token.length ≠ 1) (hf : f.token.length ≠ 1)
    (h : (e.tipWith cls).getD [] = (f.tipWith cls).getD []) : e.token = f.token := by
  rw [tipWith_eq cls he, tipWith_eq cls hf] at h
  exact Quoting.escape_injective cls .fragment
    (List.append_cancel_left (List.append_cancel_right (List.append_cancel_right h)))

theorem LexError.newline_not_mem_tipWith (e : LexError) : '\n' ∉ (e.tipWith cls).getD [] := by
  by_cases h : e.token.length = 1
  · rw [tipWith, if_pos h]
    exact List.not_mem_nil
  · have hescape := Quoting.newline_not_mem_escape cls .fragment e.token
    have hopening : '\n' ∉ "no lexical rule matches ".toList := by decide
    have hclosing : '\n' ∉ ", is a literal or comment left unclosed?".toList := by decide
    rw [tipWith_eq cls h, Option.getD_some]
    simp only [List.mem_append, not_or]
    exact ⟨⟨⟨⟨hopening, by decide⟩, hescape⟩, by decide⟩, hclosing⟩

/-- Whatever characters are escaped, the short form of a token tells the token, the advice on an error tells its text, and neither
    holds a newline. -/
theorem renderings_lose_nothing : Function.Injective (Token.renderWith cls) ∧
    (∀ e f : LexError, e.token.length ≠ 1 → f.token.length ≠ 1 →
      (e.tipWith cls).getD [] = (f.tipWith cls).getD [] → e.token = f.token) ∧
    (∀ t : Token, '\n' ∉ t.renderWith cls) ∧ ∀ e : LexError, '\n' ∉ (e.tipWith cls).getD [] :=
  ⟨Token.renderWith_injective cls, fun _ _ => LexError.token_eq_of_tipWith cls, Token.newline_not_mem_renderWith cls,
    LexError.newline_not_mem_tipWith cls⟩

end

/-- Advice tells a line break from the two characters that are written for it. -/
theorem renderings_lose_nothing_newline :
    let e : LexError := ⟨"'\n".toList, ⟨0, 1⟩, "a.su".toList⟩
    let f : LexError := ⟨"'\\n".toList, ⟨0, 2⟩, "a.su".toList⟩
    e.token.length ≠ 1 ∧ f.token.length ≠ 1 ∧ e.tip.getD [] ≠ f.tip.getD [] := by
  intro e f
  have he : e.token.length ≠ 1 := by decide
  have hf : f.token.length ≠ 1 := by decide
  obtain ⟨-, htip, -⟩ := renderings_lose_nothing .unicode
  refine ⟨he, hf, fun h => ?_⟩
  have htoken : e.token ≠ f.token := by decide
  exact htoken (htip e f he hf h)

end Munch
