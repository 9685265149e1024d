import GrammarText.Proofs.Layout.Thinning

/-!
# Tokens that are never closed

A literal, a character class or a block comment that is never closed takes the rest of the text
(`unclosed_of_lexemes`), and a text that begins one and never closes it is a single token (`lexemes_unclosed`). Blanks
close nothing: the token is as open as before when some are dropped (`Unclosed.thin`) or more come behind it
(`Unclosed.append`).
-/

namespace GrammarText

/-- The texts of tokens that are not terminated, by class. -/
inductive Unclosed : TokenKind → Text → Prop where
  | literal {mark : Char} {rest : Text} (hm : mark = '\'' ∨ mark = '"')
      (h : staysOpen (LiteralState.step mark) (· == .closed) .inside rest = true) : Unclosed .literal (mark :: rest)
  | charClass {rest : Text} (h : staysOpen ClassState.step (·.depth == 0) ⟨1, false⟩ rest = true) :
      Unclosed .charClass ('[' :: rest)
  | starred {rest : Text} (h : staysOpen (BlockState.step '*' ')') (· == .closed) .inside rest = true) :
      Unclosed .comment ('(' :: '*' :: rest)
  | slashed {rest : Text} (h : staysOpen (BlockState.step '*' '/') (· == .closed) .inside rest = true) :
      Unclosed .comment ('/' :: '*' :: rest)

section Machine

variable {σ : Type} {step : σ → Char → σ} {closed : σ → Bool} {s : σ}

theorem closingLength_of_staysOpen {t : Text} (h : staysOpen step closed s t = true) :
    closingLength step closed s t = t.length := by
  induction t generalizing s with
  | nil => rfl
  | cons c r ih =>
    rw [staysOpen, Bool.and_eq_true, Bool.not_eq_true'] at h
    rw [closingLength, if_neg (by simp [h.1]), ih h.2, List.length_cons]

variable {P : σ → Prop}

/-- What stays open stays so without some of its blanks. -/
theorem staysOpen_thin (hm : PassesBlanks step closed P) {after r r' : Text} (h : Thin after r r') (hs : P s)
    (hr : staysOpen step closed s r = true) : staysOpen step closed s r' = true := by
  induction h generalizing s with
  | nil => exact hr
  | @keep c r r' h ih =>
    rw [staysOpen, Bool.and_eq_true, Bool.not_eq_true'] at hr ⊢
    exact ⟨hr.1, ih (hm.stays s c hs hr.1) hr.2⟩
  | @tab r r' h ih =>
    have hcl := hm.leavesOpen s '\t' hs (by decide)
    have htab := hm.same s '\t' ' ' hs (by decide) (by decide)
    rw [staysOpen, Bool.and_eq_true, Bool.not_eq_true'] at hr ⊢
    rw [← htab]
    exact ⟨hr.1, ih (hm.stays s '\t' hs hcl) hr.2⟩
  | @drop c r r' hb hc hn h ih =>
    rw [staysOpen, Bool.and_eq_true, Bool.not_eq_true'] at hr
    have hrest := ih (hm.stays s c hs hr.1) hr.2
    cases r' with
    | nil => rfl
    | cons d z =>
      -- the blank behind the dropped one is read as if it were the first
      have hd : isBlank d = true := isBlank_of_isSpace (hn d rfl)
      rw [staysOpen, hm.passes s c d hs hb hd] at hrest
      rw [staysOpen]
      exact hrest

theorem staysOpen_append_blank (hm : PassesBlanks step closed P) {r b : Text} (hb : ∀ x ∈ b, isBlank x = true)
    (hs : P s) (hr : staysOpen step closed s r = true) : staysOpen step closed s (r ++ b) = true := by
  induction r generalizing s with
  | nil =>
    rw [List.nil_append]
    induction b generalizing s with
    | nil => rfl
    | cons c b ih =>
      have hcl := hm.leavesOpen s c hs (hb c List.mem_cons_self)
      rw [staysOpen, hcl, Bool.not_false, Bool.true_and]
      exact ih (fun x hx => hb x (List.mem_cons_of_mem _ hx)) (hm.stays s c hs hcl) rfl
  | cons c r ih =>
    rw [staysOpen, Bool.and_eq_true, Bool.not_eq_true'] at hr
    rw [List.cons_append, staysOpen, hr.1, Bool.not_false, Bool.true_and]
    exact ih (hm.stays s c hs hr.1) hr.2

end Machine

section Token

variable {k : TokenKind} {x : Text}

/-- A token that is never closed is the only one of its text. -/
theorem lexemes_unclosed (h : Unclosed k x) : lexemes .ebnf x = [⟨k, x, {}⟩] := by
  have hall : ∀ {c : Char} {r : Text}, form .ebnf c r = (k, (c :: r).length) → lexemes .ebnf (c :: r) = [⟨k, c :: r, {}⟩] := by
    intro c r hf
    rw [lexemes_cons, hf, List.take_length, List.drop_length, lexemes_nil]
  cases h with
  | literal hm h =>
    apply hall
    rw [form_quote hm, literalLength, closingLength_of_staysOpen h]
    rfl
  | charClass h =>
    apply hall
    rw [form_bracket, classLength, closingLength_of_staysOpen h]
    rfl
  | @starred r h =>
    have hf : commentForm? .ebnf ('(' :: '*' :: r) = some .starred := rfl
    apply hall
    rw [form_comment hf, CommentForm.restLength, blockLength, List.drop_one, List.tail_cons, closingLength_of_staysOpen h]
    rfl
  | @slashed r h =>
    have hf : commentForm? .ebnf ('/' :: '*' :: r) = some .slashed := rfl
    apply hall
    rw [form_comment hf, CommentForm.restLength, blockLength, List.drop_one, List.tail_cons, closingLength_of_staysOpen h]
    rfl

/-- What the scanner cuts without its end is the whole text. -/
theorem unclosed_of_form {c : Char} {rest : Text} {n : Nat} (hf : form .ebnf c rest = (k, n))
    (h : Token.isClosed ⟨k, (c :: rest).take n, {}⟩ = false) : Unclosed k (c :: rest) ∧ n = (c :: rest).length := by
  cases hcf : commentForm? .ebnf (c :: rest) with
  | some f =>
    rw [form_comment hcf] at hf
    cases hf
    have hopen := opening_of_commentForm? hcf
    cases f with
    | starred =>
      obtain ⟨-, r, hr⟩ := hopen
      cases hr
      obtain ⟨hstays, hlen⟩ := staysOpen_of_not_closes h
      exact ⟨.starred hstays, congrArg (· + 2) hlen⟩
    | slashed =>
      obtain ⟨r, hr⟩ := hopen
      cases hr
      obtain ⟨hstays, hlen⟩ := staysOpen_of_not_closes h
      exact ⟨.slashed hstays, congrArg (· + 2) hlen⟩
    | line =>
      obtain ⟨r, hr⟩ := hopen
      cases hr
      cases h
  | none =>
    rw [form_plain hcf, plainForm] at hf
    split at hf
    · rename_i hq
      cases hf
      obtain ⟨hstays, hlen⟩ := staysOpen_of_not_closes h
      exact ⟨.literal (by simpa using hq) hstays, congrArg (· + 1) hlen⟩
    split at hf
    · rename_i hb
      cases hf
      obtain rfl := beq_iff_eq.1 hb
      obtain ⟨hstays, hlen⟩ := staysOpen_of_not_closes h
      exact ⟨.charClass hstays, congrArg (· + 1) hlen⟩
    split at hf
    · rename_i ha
      cases ha.1
    -- every other form is closed
    split at hf
    · cases hf
      cases h
    · repeat' split at hf
      all_goals
        cases hf
        cases h

/-- A token without its end is the last of its text. -/
theorem unclosed_of_lexemes {s : Text} {t : Token} {ts : List Token} (h : lexemes .ebnf s = t :: ts)
    (hcl : t.isClosed = false) : ts = [] ∧ t.text = s ∧ Unclosed t.kind s := by
  match s with
  | [] => simp at h
  | c :: rest =>
    rw [lexemes_cons] at h
    cases h
    obtain ⟨hopen, hlen⟩ := @unclosed_of_form (form .ebnf c rest).1 c rest (form .ebnf c rest).2 rfl hcl
    rw [hlen, List.take_length, List.drop_length, lexemes_nil]
    exact ⟨rfl, rfl, hopen⟩

/-- A token that is never closed is none of the others when some of its blanks are dropped. -/
theorem Unclosed.thin {after x' : Text} (h : Unclosed k x) (ht : Thin after x x') : Unclosed k x' := by
  have hstar : isBlank '*' = false := by decide
  have hslash : isBlank '/' = false := by decide
  cases h with
  | @literal mark r hm h =>
    have hmb : isBlank mark = false := by
      rcases hm with rfl | rfl <;> decide
    obtain ⟨r', rfl, hr⟩ := ht.cons_of_not_blank hmb
    exact .literal hm (staysOpen_thin (passesBlanks_literal hmb) hr (by simp) h)
  | charClass h =>
    obtain ⟨r', rfl, hr⟩ := ht.cons_of_not_blank (by decide)
    exact .charClass (staysOpen_thin passesBlanks_class hr (by simp) h)
  | starred h =>
    obtain ⟨z, rfl, hz⟩ := ht.cons_of_not_blank (by decide)
    obtain ⟨r', rfl, hr⟩ := hz.cons_of_not_blank hstar
    exact .starred (staysOpen_thin (passesBlanks_block hstar (by decide)) hr (by simp) h)
  | slashed h =>
    obtain ⟨z, rfl, hz⟩ := ht.cons_of_not_blank hslash
    obtain ⟨r', rfl, hr⟩ := hz.cons_of_not_blank hstar
    exact .slashed (staysOpen_thin (passesBlanks_block hstar hslash) hr (by simp) h)

/-- Blanks behind a token that is never closed become part of it. -/
theorem Unclosed.append {b : Text} (h : Unclosed k x) (hb : ∀ c ∈ b, isBlank c = true) : Unclosed k (x ++ b) := by
  cases h with
  | @literal mark r hm h =>
    have hmb : isBlank mark = false := by
      rcases hm with rfl | rfl <;> decide
    exact .literal hm (staysOpen_append_blank (passesBlanks_literal hmb) hb (by simp) h)
  | charClass h => exact .charClass (staysOpen_append_blank passesBlanks_class hb (by simp) h)
  | starred h =>
    exact .starred (staysOpen_append_blank (passesBlanks_block (by decide) (by decide)) hb (by simp) h)
  | slashed h =>
    exact .slashed (staysOpen_append_blank (passesBlanks_block (by decide) (by decide)) hb (by simp) h)

end Token

end GrammarText
