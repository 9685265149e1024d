import GrammarText.Token.Scan
import Mathlib.Data.List.TakeWhile

/-!
# Lexemes

The lexical grammar, said without the scanner: `Lexeme d k t` lists the texts that a complete token of
class `k` can have, and `Apart d k t rest` says what may follow such a text for the token to end where
it does. The scanner cuts exactly such tokens:

* `lexemes_append`: a lexeme that stands apart from what follows is the first token, and scanning goes
  on right after it;
* `lexeme_of_form`: what the scanner cuts, if it is closed, is a lexeme that stands apart.

Places play no part here: `lexemes d t` are the tokens of `t` without them.
-/

namespace GrammarText

/-! ### Tokens without their places -/

/-- The token at no place in particular. -/
def Token.bare (t : Token) : Token :=
  { t with start := {} }

@[simp] theorem Token.kind_bare (t : Token) : t.bare.kind = t.kind := rfl

@[simp] theorem Token.text_bare (t : Token) : t.bare.text = t.text := rfl

@[simp] theorem Token.isOp_bare (t : Token) (s : Text) : t.bare.isOp s = t.isOp s := rfl

@[simp] theorem Token.isTrivia_bare (t : Token) : t.bare.isTrivia = t.isTrivia := rfl

@[simp] theorem Token.bare_bare (t : Token) : t.bare.bare = t.bare := rfl

/-- The tokens of a text without their places. -/
def lexemes (d : Dialect) (t : Text) : List Token :=
  (scan d t).map Token.bare

theorem map_bare_scanFrom (d : Dialect) (p q : Position) (t : Text) :
    (scanFrom d p t).map Token.bare = (scanFrom d q t).map Token.bare := by
  fun_induction scanFrom d p t generalizing q with
  | case1 => simp
  | case2 p c rest f text ih =>
    rw [scanFrom_cons, List.map_cons, List.map_cons, ih]
    rfl

@[simp] theorem lexemes_nil (d : Dialect) : lexemes d [] = [] := by
  simp [lexemes, scan]

/-- The first token of a text, and those of the rest. -/
theorem lexemes_cons (d : Dialect) (c : Char) (rest : Text) :
    lexemes d (c :: rest) =
      ⟨(form d c rest).1, (c :: rest).take (form d c rest).2, {}⟩ ::
        lexemes d ((c :: rest).drop (form d c rest).2) := by
  rw [lexemes, scan, scanFrom_cons, List.map_cons, map_bare_scanFrom d _ {}]
  rfl

theorem bare_of_mem_lexemes {d : Dialect} {t : Text} {k : Token} (h : k ∈ lexemes d t) : k.bare = k := by
  obtain ⟨k', -, rfl⟩ := List.mem_map.1 h
  rfl

theorem spelling_map_bare (ts : List Token) : spelling (ts.map Token.bare) = spelling ts :=
  List.flatMap_map _ _ _

theorem spelling_lexemes (d : Dialect) (t : Text) : spelling (lexemes d t) = t := by
  rw [lexemes, spelling_map_bare, spelling_scan]

/-! ### Delimited forms that are closed -/

section Closing

variable {σ : Type} {step : σ → Char → σ} {closed : σ → Bool}

/-- Whether the machine is closed at the end of the text and at no place before. -/
def closesAtEnd (step : σ → Char → σ) (closed : σ → Bool) (s : σ) : Text → Bool
  | [] => false
  | c :: r => if closed (step s c) then r.isEmpty else closesAtEnd step closed (step s c) r

theorem closingLength_append {s : σ} {t : Text} (h : closesAtEnd step closed s t = true) (rest : Text) :
    closingLength step closed s (t ++ rest) = t.length := by
  induction t generalizing s with
  | nil => simp [closesAtEnd] at h
  | cons c r ih =>
    rw [closesAtEnd] at h
    rw [List.cons_append, closingLength]
    split
    · rename_i hc
      rw [if_pos hc] at h
      simp [List.isEmpty_iff.1 h]
    · rename_i hc
      rw [if_neg hc] at h
      rw [ih h, List.length_cons]

/-- Whether the machine is closed at no place of the text. -/
def staysOpen (step : σ → Char → σ) (closed : σ → Bool) (s : σ) : Text → Bool
  | [] => true
  | c :: r => !closed (step s c) && staysOpen step closed (step s c) r

/-- What the machine reads without closing at its end is the whole text. -/
theorem staysOpen_of_not_closes {s : σ} {t : Text}
    (h : closesAtEnd step closed s (t.take (closingLength step closed s t)) = false) :
    staysOpen step closed s t = true ∧ closingLength step closed s t = t.length := by
  induction t generalizing s with
  | nil => exact ⟨rfl, rfl⟩
  | cons c r ih =>
    rw [closingLength] at h ⊢
    cases hc : closed (step s c) with
    | true => simp [hc, closesAtEnd] at h
    | false =>
      rw [if_neg (by simp [hc]), List.take_succ_cons, closesAtEnd, if_neg (by simp [hc])] at h
      obtain ⟨hopen, hlen⟩ := ih h
      exact ⟨by simp [staysOpen, hc, hopen], by simp [hlen]⟩

end Closing

/-- Whether a literal that began with `mark` ends with the text. -/
def closesLiteral (mark : Char) (rest : Text) : Bool :=
  closesAtEnd (LiteralState.step mark) (· == .closed) .inside rest

/-- Whether a character class ends with the text that follows its opening bracket. -/
def closesClass (rest : Text) : Bool :=
  closesAtEnd ClassState.step (·.depth == 0) ⟨1, false⟩ rest

/-- Whether an action ends with the text that follows its opening brace. -/
def closesAction (rest : Text) : Bool :=
  closesAtEnd ActionState.step ActionState.closed ⟨1, false, none⟩ rest

/-- Whether a block comment ends with the text that follows its opening mark. -/
def closesBlock (first second : Char) (rest : Text) : Bool :=
  closesAtEnd (BlockState.step first second) (· == .closed) .inside rest

/-- Whether a token of a delimited form is terminated. Every other token is. -/
def Token.isClosed (t : Token) : Bool :=
  match t.kind, t.text with
  | .literal, mark :: rest => closesLiteral mark rest
  | .charClass, _ :: rest => closesClass rest
  | .action, _ :: rest => closesAction rest
  | .comment, '(' :: _ :: rest => closesBlock '*' ')' rest
  | .comment, '/' :: '*' :: rest => closesBlock '*' '/' rest
  | _, _ => true

@[simp] theorem Token.isClosed_bare (t : Token) : t.bare.isClosed = t.isClosed := rfl

/-! ### Word characters -/

theorem isAlpha_iff (c : Char) :
    c.isAlpha = true ↔ (65 ≤ c.toNat ∧ c.toNat ≤ 90) ∨ (97 ≤ c.toNat ∧ c.toNat ≤ 122) := by
  have hupper : c.isUpper = true ↔ 65 ≤ c.toNat ∧ c.toNat ≤ 90 := decide_eq_true_iff
  have hlower : c.isLower = true ↔ 97 ≤ c.toNat ∧ c.toNat ≤ 122 := by
    change (decide _ && decide _) = true ↔ _
    rw [Bool.and_eq_true, decide_eq_true_iff, decide_eq_true_iff]
    rfl
  change (c.isUpper || c.isLower) = true ↔ _
  rw [Bool.or_eq_true, hupper, hlower]

theorem isDigit_iff (c : Char) : c.isDigit = true ↔ 48 ≤ c.toNat ∧ c.toNat ≤ 57 := by
  change (decide _ && decide _) = true ↔ _
  rw [Bool.and_eq_true, decide_eq_true_iff, decide_eq_true_iff]
  rfl

/-! ### The lexical grammar -/

/-- A character that begins no form but stands for itself. -/
def isStray (d : Dialect) (c : Char) : Bool :=
  !(c == '\'' || c == '"' || c == '[' || (d == .antlr && c == '\x7b') || d.shortOperators.contains c ||
    isNameStart c || isSpace c)

/-- The texts of complete tokens, by class. -/
inductive Lexeme (d : Dialect) : TokenKind → Text → Prop where
  | literal {mark : Char} {rest : Text} (hm : mark = '\'' ∨ mark = '"')
      (h : closesLiteral mark rest = true) : Lexeme d .literal (mark :: rest)
  | charClass {rest : Text} (h : closesClass rest = true) : Lexeme d .charClass ('[' :: rest)
  | action {rest : Text} (hd : d = .antlr) (h : closesAction rest = true) :
      Lexeme d .action ('\x7b' :: rest)
  | starred {rest : Text} (hd : d = .ebnf) (h : closesBlock '*' ')' rest = true) :
      Lexeme d .comment ('(' :: '*' :: rest)
  | slashed {rest : Text} (h : closesBlock '*' '/' rest = true) : Lexeme d .comment ('/' :: '*' :: rest)
  | line {rest : Text} (h : '\n' ∉ rest) : Lexeme d .comment ('/' :: '/' :: rest)
  | longOperator {op : Text} (h : op ∈ d.longOperators) : Lexeme d .operator op
  | shortOperator {c : Char} (h : c ∈ d.shortOperators) : Lexeme d .operator [c]
  | word {c : Char} {rest : Text} (hc : isNameStart c = true) (h : ∀ x ∈ rest, isNamePart x = true) :
      Lexeme d .identifier (c :: rest)
  | space {c : Char} {rest : Text} (hc : isSpace c = true) (h : ∀ x ∈ rest, isSpace x = true) :
      Lexeme d .whitespace (c :: rest)
  | stray {c : Char} (hc : isStray d c = true) : Lexeme d .identifier [c]

/-- Whether a sign of fixed spelling keeps its end before `rest`: together they begin no comment, and
no longer operator. -/
def KeepsSign (d : Dialect) (t rest : Text) : Prop :=
  commentForm? d (t ++ rest) = none ∧ ∀ op ∈ d.longOperators, op <+: t ++ rest → op = t

/-- Whether a token of the class `k` and the text `t` ends where it does if `rest` follows. -/
def Apart (d : Dialect) (k : TokenKind) (t rest : Text) : Prop :=
  match k with
  | .whitespace => ∀ c ∈ rest.head?, isSpace c = false
  | .comment => ['/', '/'] <+: t → ∀ c ∈ rest.head?, c = '\n'
  | .operator => KeepsSign d t rest
  | .identifier => KeepsSign d t rest ∧ (t.head?.any isNameStart → ∀ c ∈ rest.head?, isNamePart c = false)
  | .literal | .charClass | .action => True

/-! ### Lexemes are what the scanner cuts -/

section Form

variable {d : Dialect} {c : Char} {rest : Text}

theorem commentForm?_eq_none (h1 : c ≠ '(') (h2 : c ≠ '/') : commentForm? d (c :: rest) = none := by
  simp [commentForm?, List.isPrefixOf, h1.symm, h2.symm]

theorem form_comment {f : CommentForm} (h : commentForm? d (c :: rest) = some f) :
    form d c rest = (.comment, f.restLength (rest.drop 1) + 2) := by
  rw [form, h]

theorem form_plain (h : commentForm? d (c :: rest) = none) :
    form d c rest = plainForm d (c :: rest) c rest := by
  rw [form, h]

theorem form_quote (hc : c = '\'' ∨ c = '"') : form d c rest = (.literal, literalLength c rest + 1) := by
  have h : commentForm? d (c :: rest) = none := by
    rcases hc with rfl | rfl <;> exact commentForm?_eq_none (by decide) (by decide)
  rw [form_plain h, plainForm, if_pos (by simpa using hc)]

theorem form_bracket : form d '[' rest = (.charClass, classLength rest + 1) := by
  rw [form_plain (commentForm?_eq_none (by decide) (by decide)), plainForm]
  rfl

theorem form_brace : form .antlr '\x7b' rest = (.action, actionLength rest + 1) := by
  rw [form_plain (commentForm?_eq_none (by decide) (by decide)), plainForm]
  rfl

/-- A character that begins a delimited form other than a comment. -/
def opensForm (d : Dialect) (c : Char) : Bool :=
  c == '\'' || c == '"' || c == '[' || (d == .antlr && c == '\x7b')

theorem form_sign (h : commentForm? d (c :: rest) = none) (ho : opensForm d c = false) :
    form d c rest =
      (match d.longOperators.find? (·.isPrefixOf (c :: rest)) with
      | some op => (.operator, op.length)
      | none =>
        if d.shortOperators.contains c then (.operator, 1)
        else if isNameStart c then (.identifier, (rest.takeWhile isNamePart).length + 1)
        else if isSpace c then (.whitespace, (rest.takeWhile isSpace).length + 1)
        else (.identifier, 1)) := by
  simp only [opensForm, Bool.or_eq_false_iff, Bool.and_eq_false_iff] at ho
  obtain ⟨⟨⟨h1, h2⟩, h3⟩, h4⟩ := ho
  have h5 : ¬(d = .antlr ∧ c = '\x7b') := by
    rintro ⟨hd, hc⟩
    simp [hd, hc] at h4
  rw [form_plain h, plainForm, if_neg (by simp [h1, h2]), if_neg (by simp [h3])]
  exact if_neg h5

theorem find?_longOperators_eq_none {t : Text} (h : ∀ op ∈ d.longOperators, ¬op <+: t) :
    d.longOperators.find? (·.isPrefixOf t) = none := by
  rw [List.find?_eq_none]
  intro op hop
  simpa using h op hop

/-- No two operators of several characters begin the same text. -/
theorem longOperator_unique {op op' t : Text} (h : op ∈ d.longOperators) (h' : op' ∈ d.longOperators)
    (hp : op <+: t) (hp' : op' <+: t) : op = op' := by
  obtain ⟨r, rfl⟩ := hp
  cases d <;> simp [Dialect.longOperators] at h h' <;> rcases h with rfl | rfl | rfl | rfl <;>
    rcases h' with rfl | rfl | rfl | rfl <;> simp_all [List.prefix_iff_eq_take]

/-- Word characters and spaces begin words and spaces, and nothing else. -/
theorem form_ordinary (hc : isNameStart c = true ∨ isSpace c = true) :
    form d c rest =
      if isNameStart c then (.identifier, (rest.takeWhile isNamePart).length + 1)
      else (.whitespace, (rest.takeWhile isSpace).length + 1) := by
  have hne : ∀ x, isNameStart x = false → isSpace x = false → c ≠ x := by
    rintro x h1 h2 rfl
    simp [h1, h2] at hc
  have ho : opensForm d c = false := by
    simp [opensForm, hne '\'' (by decide) (by decide), hne '"' (by decide) (by decide),
      hne '[' (by decide) (by decide), hne '\x7b' (by decide) (by decide)]
  have hl : ∀ op ∈ d.longOperators, ¬op <+: c :: rest := by
    intro op hop hp
    have hx : ∀ op ∈ d.longOperators, ∀ x ∈ op.head?, isNameStart x = false ∧ isSpace x = false := by
      cases d <;> simp [Dialect.longOperators] <;> decide
    obtain ⟨x, r, rfl⟩ := List.exists_cons_of_length_pos (longOperators_length_pos hop)
    have h := hx _ hop x rfl
    exact hne x h.1 h.2 (List.cons_prefix_cons.1 hp).1.symm
  have hs : c ∉ d.shortOperators := by
    have hx : ∀ x ∈ d.shortOperators, isNameStart x = false ∧ isSpace x = false := by
      cases d <;> simp [Dialect.shortOperators] <;> decide
    intro hm
    exact hne c (hx c hm).1 (hx c hm).2 rfl
  have hf : commentForm? d (c :: rest) = none :=
    commentForm?_eq_none (hne _ (by decide) (by decide)) (hne _ (by decide) (by decide))
  rw [form_sign hf ho, find?_longOperators_eq_none hl]
  by_cases hn : isNameStart c = true
  · simp [hs, hn]
  · have hsp : isSpace c = true := hc.resolve_left hn
    simp [hs, hn, hsp]

/-- A sign of one character, if no comment and no longer operator begins with it. -/
theorem form_single (h : commentForm? d (c :: rest) = none)
    (hl : ∀ op ∈ d.longOperators, ¬op <+: c :: rest) (hc : c ∈ d.shortOperators ∨ isStray d c = true) :
    form d c rest = (if c ∈ d.shortOperators then .operator else .identifier, 1) := by
  have ho : opensForm d c = false := by
    rcases hc with hc | hc
    · have hx : ∀ x ∈ d.shortOperators, opensForm d x = false := by
        cases d <;> simp [Dialect.shortOperators] <;> decide
      exact hx c hc
    · simp only [isStray, Bool.not_eq_true', Bool.or_eq_false_iff] at hc
      simp only [opensForm, hc, Bool.or_self]
  rw [form_sign h ho, find?_longOperators_eq_none hl]
  by_cases hs : c ∈ d.shortOperators
  · simp [hs]
  · have hstray := hc.resolve_left hs
    simp only [isStray, Bool.not_eq_true', Bool.or_eq_false_iff] at hstray
    simp [hs, hstray]

theorem length_takeWhile_append {p : Char → Bool} {t : Text} (h : ∀ x ∈ t, p x = true)
    (hr : ∀ x ∈ rest.head?, p x = false) : ((t ++ rest).takeWhile p).length = t.length := by
  rw [List.takeWhile_append_of_pos h]
  cases rest with
  | nil => simp
  | cons x r => simp [hr x rfl]

theorem not_longOperator_prefix {t : Text} (h : ∀ op ∈ d.longOperators, op <+: t → op = [c]) :
    ∀ op ∈ d.longOperators, ¬op <+: t := by
  intro op hop hp
  have hx : [c] ∉ d.longOperators := by
    cases d <;> simp [Dialect.longOperators]
  exact hx (h op hop hp ▸ hop)

/-- A lexeme that stands apart from what follows is what the scanner cuts first. -/
theorem form_of_lexeme {k : TokenKind} {t : Text} (h : Lexeme d k (c :: t))
    (ha : Apart d k (c :: t) rest) : form d c (t ++ rest) = (k, t.length + 1) := by
  cases h with
  | literal hm h => rw [form_quote hm, literalLength, closingLength_append h]
  | charClass h => rw [form_bracket, classLength, closingLength_append h]
  | action hd h => subst hd; rw [form_brace, actionLength, closingLength_append h]
  | @starred r hd h =>
    subst hd
    have hf : commentForm? .ebnf ('(' :: ('*' :: r ++ rest)) = some .starred := rfl
    rw [form_comment hf, CommentForm.restLength, blockLength, List.cons_append, List.drop_one, List.tail_cons,
      closingLength_append h, List.length_cons]
  | @slashed r h =>
    have hf : commentForm? d ('/' :: ('*' :: r ++ rest)) = some .slashed := by
      cases d <;> rfl
    rw [form_comment hf, CommentForm.restLength, blockLength, List.cons_append, List.drop_one, List.tail_cons,
      closingLength_append h, List.length_cons]
  | @line r h =>
    have hf : commentForm? d ('/' :: ('/' :: r ++ rest)) = some .line := by
      cases d <;> rfl
    have hr : ∀ x ∈ rest.head?, (x != '\n') = false := by
      intro x hx
      simp [ha ⟨r, rfl⟩ x hx]
    have hl : ∀ x ∈ r, (x != '\n') = true := by
      intro x hx
      simp only [bne_iff_ne, ne_eq]
      rintro rfl
      exact h hx
    rw [form_comment hf, CommentForm.restLength, lineLength, List.cons_append, List.drop_one, List.tail_cons,
      length_takeWhile_append hl hr, List.length_cons]
  | longOperator h =>
    have ho : opensForm d c = false := by
      have hx : ∀ op ∈ d.longOperators, ∀ x ∈ op.head?, opensForm d x = false := by
        cases d <;> simp [Dialect.longOperators] <;> decide
      exact hx _ h c rfl
    have hfind : d.longOperators.find? (·.isPrefixOf (c :: t ++ rest)) = some (c :: t) := by
      cases hf : d.longOperators.find? (·.isPrefixOf (c :: t ++ rest)) with
      | none =>
        rw [List.find?_eq_none] at hf
        exact absurd (List.isPrefixOf_iff_prefix.2 (List.prefix_append _ _)) (hf _ h)
      | some op =>
        have hp := List.find?_some hf
        rw [ha.2 op (List.mem_of_find?_eq_some hf) (List.isPrefixOf_iff_prefix.1 hp)]
    have hf : commentForm? d (c :: (t ++ rest)) = none := ha.1
    rw [List.cons_append] at hfind
    rw [form_sign hf ho, hfind]
    rfl
  | shortOperator h =>
    have hl : ∀ op ∈ d.longOperators, ¬op <+: c :: rest := not_longOperator_prefix ha.2
    have hf : commentForm? d (c :: rest) = none := ha.1
    rw [List.nil_append, form_single hf hl (.inl h), if_pos h]
    rfl
  | word hc h =>
    rw [form_ordinary (.inl hc), if_pos hc, length_takeWhile_append h (ha.2 (by simpa using hc))]
  | space hc h =>
    have hn : isNameStart c = false := by
      simp only [isSpace, Bool.or_eq_true, beq_iff_eq] at hc
      rcases hc with ((rfl | rfl) | rfl) | rfl <;> decide
    rw [form_ordinary (.inr hc), hn, length_takeWhile_append h ha]
    rfl
  | stray hc =>
    have hs : c ∉ d.shortOperators := by
      intro hm
      simp [isStray, hm] at hc
    have hl : ∀ op ∈ d.longOperators, ¬op <+: c :: rest := not_longOperator_prefix ha.1.2
    have hf : commentForm? d (c :: rest) = none := ha.1.1
    rw [List.nil_append, form_single hf hl (.inr hc), if_neg hs]
    rfl

theorem Lexeme.ne_nil {k : TokenKind} {t : Text} (h : Lexeme d k t) : t ≠ [] := by
  cases h with
  | longOperator h =>
    rintro rfl
    exact absurd (longOperators_length_pos h) (by simp)
  | _ => exact List.cons_ne_nil _ _

/-- Scanning goes on right after a lexeme that stands apart from what follows. -/
theorem lexemes_append {k : TokenKind} {t : Text} (h : Lexeme d k t) (ha : Apart d k t rest) :
    lexemes d (t ++ rest) = ⟨k, t, {}⟩ :: lexemes d rest := by
  match t, h.ne_nil with
  | c :: t, _ =>
    rw [List.cons_append, lexemes_cons, form_of_lexeme h ha]
    simp

theorem opening_of_commentForm? {f : CommentForm} {t : Text} (h : commentForm? d t = some f) :
    match f with
    | .starred => d = .ebnf ∧ ['(', '*'] <+: t
    | .slashed => ['/', '*'] <+: t
    | .line => ['/', '/'] <+: t := by
  unfold commentForm? at h
  split at h
  · rename_i hc
    cases h
    exact ⟨hc.1, List.isPrefixOf_iff_prefix.1 hc.2⟩
  split at h
  · rename_i hc
    cases h
    exact List.isPrefixOf_iff_prefix.1 hc
  split at h
  · rename_i hc
    cases h
    exact List.isPrefixOf_iff_prefix.1 hc
  · cases h

theorem take_length_takeWhile (p : Char → Bool) (t : Text) :
    t.take (t.takeWhile p).length = t.takeWhile p :=
  (List.prefix_iff_eq_take.1 (List.takeWhile_prefix p)).symm

theorem head?_drop_takeWhile {p : Char → Bool} {t : Text} :
    ∀ x ∈ (t.drop (t.takeWhile p).length).head?, p x = false := by
  induction t with
  | nil => simp
  | cons c r ih =>
    by_cases hc : p c = true
    · rw [List.takeWhile_cons_of_pos hc]
      exact ih
    · simpa [List.takeWhile_cons_of_neg hc] using hc

/-- What the scanner cuts, if it is closed, is a lexeme that stands apart from what follows. -/
theorem lexeme_of_form {k : TokenKind} {n : Nat} (hf : form d c rest = (k, n))
    (h : Token.isClosed ⟨k, (c :: rest).take n, {}⟩ = true) :
    Lexeme d k ((c :: rest).take n) ∧ Apart d k ((c :: rest).take n) ((c :: rest).drop n) := by
  cases hcf : commentForm? d (c :: rest) with
  | some f =>
    rw [form_comment hcf] at hf
    cases hf
    have hopen := opening_of_commentForm? hcf
    cases f with
    | starred =>
      obtain ⟨rfl, r, hr⟩ := hopen
      cases hr
      exact ⟨.starred rfl h, fun hp => by simp at hp⟩
    | slashed =>
      obtain ⟨r, hr⟩ := hopen
      cases hr
      exact ⟨.slashed h, fun hp => by simp at hp⟩
    | line =>
      obtain ⟨r, hr⟩ := hopen
      cases hr
      refine ⟨.line fun hm => ?_, fun _ x hx => ?_⟩
      · change '\n' ∈ r.take (r.takeWhile (· != '\n')).length at hm
        rw [take_length_takeWhile] at hm
        simpa using List.mem_takeWhile_imp hm
      · change x ∈ (r.drop (r.takeWhile (· != '\n')).length).head? at hx
        simpa using head?_drop_takeWhile x hx
  | none =>
    have happ : (c :: rest).take n ++ (c :: rest).drop n = c :: rest := List.take_append_drop n _
    rw [form_plain hcf, plainForm] at hf
    split at hf
    · rename_i hq
      cases hf
      exact ⟨.literal (by simpa using hq) h, trivial⟩
    split at hf
    · rename_i hb
      cases hf
      obtain rfl := beq_iff_eq.1 hb
      exact ⟨.charClass h, trivial⟩
    split at hf
    · rename_i ha
      cases hf
      obtain ⟨rfl, rfl⟩ := ha
      exact ⟨.action rfl h, trivial⟩
    split at hf
    · rename_i op hop
      cases hf
      have hmem := List.mem_of_find?_eq_some hop
      have hpre : op <+: c :: rest := by simpa using List.find?_some hop
      rw [← List.prefix_iff_eq_take.1 hpre] at happ ⊢
      refine ⟨.longOperator hmem, ?_, fun op' hmem' hpre' => ?_⟩
      · rw [happ]; exact hcf
      · rw [happ] at hpre'
        exact longOperator_unique hmem' hmem hpre' hpre
    · rename_i hnone
      have hl : ∀ op ∈ d.longOperators, op <+: (c :: rest).take n ++ (c :: rest).drop n →
          op = (c :: rest).take n := by
        rw [happ]
        intro op hop hp
        simpa [hp] using List.find?_eq_none.1 hnone op hop
      have hsign : KeepsSign d ((c :: rest).take n) ((c :: rest).drop n) := ⟨by rw [happ]; exact hcf, hl⟩
      split at hf
      · rename_i hs
        cases hf
        exact ⟨.shortOperator (by simpa using hs), hsign⟩
      split at hf
      · rename_i hn
        cases hf
        rw [List.take_succ_cons, List.drop_succ_cons, take_length_takeWhile] at hsign ⊢
        exact ⟨.word hn fun x hx => List.mem_takeWhile_imp hx, hsign, fun _ => head?_drop_takeWhile⟩
      split at hf
      · rename_i hsp
        cases hf
        rw [List.take_succ_cons, List.drop_succ_cons, take_length_takeWhile]
        exact ⟨.space hsp fun x hx => List.mem_takeWhile_imp hx, head?_drop_takeWhile⟩
      · rename_i hq hb ha hs hn hsp
        cases hf
        refine ⟨.stray ?_, hsign, fun hw => ?_⟩
        · cases d <;> simp_all [isStray]
        · simp [hn] at hw

/-- The first token of a scan, what it was cut from, and what it says of itself if it is closed. -/
theorem lexemes_eq_cons {s : Text} {t : Token} {ts : List Token} (h : lexemes d s = t :: ts) :
    ∃ rest, s = t.text ++ rest ∧ ts = lexemes d rest ∧
      (t.isClosed = true → Lexeme d t.kind t.text ∧ Apart d t.kind t.text rest) := by
  match s with
  | [] => simp at h
  | c :: r =>
    rw [lexemes_cons] at h
    cases h
    refine ⟨(c :: r).drop (form d c r).2, (List.take_append_drop _ _).symm, rfl, fun hc => ?_⟩
    exact lexeme_of_form rfl hc

theorem lexeme_of_mem_lexemes {s : Text} {t : Token} (h : t ∈ lexemes d s) (hc : t.isClosed = true) :
    Lexeme d t.kind t.text := by
  generalize hts : lexemes d s = ts at h
  induction ts generalizing s with
  | nil => cases h
  | cons u us ih =>
    obtain ⟨rest, -, hus, hu⟩ := lexemes_eq_cons hts
    rcases List.mem_cons.1 h with rfl | h
    · exact (hu hc).1
    · exact ih hus.symm h

/-- The tokens behind a stretch of a text's tokens are those of the text behind what the stretch spells. -/
theorem lexemes_eq_append {s : Text} {ts us : List Token} (h : lexemes d s = ts ++ us) :
    ∃ rest, s = spelling ts ++ rest ∧ us = lexemes d rest := by
  induction ts generalizing s with
  | nil => exact ⟨s, rfl, h.symm⟩
  | cons t ts ih =>
    obtain ⟨r, rfl, hts, -⟩ := lexemes_eq_cons h
    obtain ⟨rest, rfl, hus⟩ := ih hts.symm
    exact ⟨rest, (List.append_assoc _ _ _).symm, hus⟩

end Form

end GrammarText
