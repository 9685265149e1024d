import GrammarText.Proofs.Antlr.Recovery
import GrammarText.Proofs.Rule.Alternatives
import GrammarText.Proofs.Scan.Lexeme

/-!
# Reading without whitespace and comments

The gist of tokens is what is left without whitespace, comments and places. Functions that pass over a span look
for significant tokens only: what they leave of the gist is the gist of what they leave. So whitespace and comments
play no part in where spans end, up to the colon of a rule.
-/

namespace GrammarText.Antlr

/-- The significant tokens at no place in particular. -/
def gist (ts : List Token) : List Token :=
  (significant ts).map Token.bare

section Gist

variable {t : Token} {ts rest : List Token}

@[simp] theorem gist_nil : gist [] = [] := rfl

theorem gist_cons_trivia (ht : t.isTrivia = true) (ts : List Token) : gist (t :: ts) = gist ts := by
  rw [gist, significant, List.filter_cons_of_neg (by simp [ht])]
  rfl

theorem gist_cons (ht : t.isTrivia = false) (ts : List Token) : gist (t :: ts) = t.bare :: gist ts := by
  rw [gist, significant, List.filter_cons_of_pos (by simp [ht])]
  rfl

/-- Tokens of the same classes and texts have one gist. -/
theorem gist_eq_of_map_sign {ts ts' : List Token}
    (h : (significant ts).map Token.sign = (significant ts').map Token.sign) : gist ts = gist ts' := by
  rw [gist, gist, map_sign_eq_iff.1 h]

theorem skipTrivia_gist (ts : List Token) : skipTrivia (gist ts) = gist ts := by
  induction ts with
  | nil => rfl
  | cons t ts ih =>
    cases ht : t.isTrivia with
    | true => rw [gist_cons_trivia ht, ih]
    | false => rw [gist_cons ht, skipTrivia_cons (by rw [Token.isTrivia_bare, ht])]

theorem gist_skipTrivia (ts : List Token) : gist (skipTrivia ts) = gist ts := by
  induction ts with
  | nil => rfl
  | cons t ts ih =>
    cases ht : t.isTrivia with
    | true => rw [skipTrivia_cons_trivia ht, ih, gist_cons_trivia ht]
    | false => rw [skipTrivia_cons ht]

/-- The gist of tokens begins with the next significant one. -/
theorem gist_eq_cons (h : skipTrivia ts = t :: rest) : gist ts = t.bare :: gist rest := by
  rw [← gist_skipTrivia, h, gist_cons (not_trivia_of_skipTrivia h)]

theorem gist_eq_nil (h : skipTrivia ts = []) : gist ts = [] := by
  rw [← gist_skipTrivia, h, gist_nil]

end Gist

/-! ### Spans -/

section Spans

variable {p : Token → Bool}

theorem nextIs_gist (hp : ∀ t, p t.bare = p t) (ts : List Token) : nextIs p (gist ts) = nextIs p ts := by
  rw [nextIs, nextIs, next?, next?, skipTrivia_gist]
  cases h : skipTrivia ts with
  | nil => rw [gist_eq_nil h]
  | cons t rest => rw [gist_eq_cons h]; exact hp t

theorem dropNext_gist (ts : List Token) : dropNext (gist ts) = gist (dropNext ts) := by
  rw [dropNext, dropNext, skipTrivia_gist]
  cases h : skipTrivia ts with
  | nil => rw [gist_eq_nil h]; rfl
  | cons t rest => rw [gist_eq_cons h]; rfl

theorem dropNextIf_gist (hp : ∀ t, p t.bare = p t) (ts : List Token) :
    dropNextIf p (gist ts) = gist (dropNextIf p ts) := by
  rw [dropNextIf, dropNextIf, skipTrivia_gist]
  cases h : skipTrivia ts with
  | nil => rw [gist_eq_nil h]; rfl
  | cons t rest =>
    rw [gist_eq_cons h]
    dsimp only
    rw [hp]
    split
    · rfl
    · exact (gist_cons (not_trivia_of_skipTrivia h) rest).symm

theorem dropNextWhile_gist (hp : ∀ t, p t.bare = p t) (ts : List Token) :
    dropNextWhile p (gist ts) = gist (dropNextWhile p ts) := by
  induction ts with
  | nil => rfl
  | cons t ts ih =>
    rw [dropNextWhile] at ih ⊢
    cases ht : t.isTrivia with
    | true => rw [gist_cons_trivia ht, ih, dropNextWhile, dropNextWhile, List.dropWhile_cons, if_pos (by simp [ht])]
    | false =>
      rw [gist_cons ht, List.dropWhile_cons, ih, dropNextWhile, dropNextWhile, List.dropWhile_cons, Token.isTrivia_bare, hp]
      split
      · rfl
      · exact (gist_cons ht ts).symm

theorem skipThroughSemicolon_gist (ts : List Token) : skipThroughSemicolon (gist ts) = gist (skipThroughSemicolon ts) := by
  induction ts with
  | nil => rfl
  | cons t ts ih =>
    rw [skipThroughSemicolon] at ih ⊢
    cases ht : t.isTrivia with
    | true =>
      have hs : t.isOp [';'] = false := isOp_of_isTrivia ht _
      rw [gist_cons_trivia ht, ih, skipThroughSemicolon, skipThroughSemicolon, List.dropWhile_cons, if_pos (by simp [hs])]
    | false =>
      rw [gist_cons ht, List.dropWhile_cons, Token.isOp_bare, skipThroughSemicolon, List.dropWhile_cons]
      split
      · exact ih
      · rfl

theorem skipNamedAction_gist (ts : List Token) : skipNamedAction (gist ts) = gist (skipNamedAction ts) := by
  rw [skipNamedAction, skipNamedAction, dropNext_gist, dropNextWhile_gist (fun _ => rfl), dropNextIf_gist fun _ => rfl]

theorem skipParenthesized_gist (depth : Nat) (ts : List Token) :
    skipParenthesized depth (gist ts) = gist (skipParenthesized depth ts) := by
  fun_induction skipParenthesized depth ts with
  | case1 => rfl
  | case2 depth t ts ho ih =>
    rw [gist_cons (isTrivia_eq_false_of_isOp ho), skipParenthesized, Token.isOp_bare, if_pos ho, ih]
  | case3 depth t ts ho hc hd =>
    rw [gist_cons (isTrivia_eq_false_of_isOp hc), skipParenthesized, Token.isOp_bare, Token.isOp_bare, if_neg ho, if_pos hc,
      if_pos hd]
  | case4 depth t ts ho hc hd ih =>
    rw [gist_cons (isTrivia_eq_false_of_isOp hc), skipParenthesized, Token.isOp_bare, Token.isOp_bare, if_neg ho, if_pos hc,
      if_neg hd, ih]
  | case5 depth t ts ho hc ih =>
    cases ht : t.isTrivia with
    | true => rw [gist_cons_trivia ht, ih]
    | false => rw [gist_cons ht, skipParenthesized, Token.isOp_bare, Token.isOp_bare, if_neg ho, if_neg hc, ih]

theorem skipElementOptions_gist (ts : List Token) : skipElementOptions (gist ts) = gist (skipElementOptions ts) := by
  fun_induction skipElementOptions ts with
  | case1 => rfl
  | case2 t ts hs => rw [gist_cons (isTrivia_eq_false_of_isOp hs), skipElementOptions, Token.isOp_bare, if_pos hs]
  | case3 t ts hs hc =>
    rw [gist_cons (isTrivia_eq_false_of_isOp hc), skipElementOptions, Token.isOp_bare, Token.isOp_bare, if_neg hs, if_pos hc]
  | case4 t ts hs hc ih =>
    cases ht : t.isTrivia with
    | true => rw [gist_cons_trivia ht, ih]
    | false => rw [gist_cons ht, skipElementOptions, Token.isOp_bare, Token.isOp_bare, if_neg hs, if_neg hc, ih]

/-- What follows the arguments of a lexer command, if it has any. -/
theorem gist_arguments (ts : List Token) :
    (if nextIs (·.isOp ['(']) (gist ts) then skipParenthesized 0 (gist ts) else gist ts) =
      gist (if nextIs (·.isOp ['(']) ts then skipParenthesized 0 ts else ts) := by
  rw [nextIs_gist fun _ => rfl]
  split
  · exact skipParenthesized_gist 0 ts
  · rfl

theorem skipLexerCommands_of_not_word {ts rest : List Token} {t : Token} (hs : skipTrivia ts = t :: rest)
    (ht : ¬(t.kind == .identifier) = true) : skipLexerCommands ts = t :: rest := by
  rw [skipLexerCommands]
  split
  · rename_i h
    rw [h] at hs
    cases hs
  · rename_i h
    rw [h] at hs
    cases hs
    rw [if_neg ht]

/-- The commands of the gist from a name on. -/
theorem skipLexerCommands_gist_name {ts rest rest' : List Token} {name : Token} (hs : skipTrivia ts = name :: rest)
    (hn : (name.kind == .identifier) = true)
    (hr : (if nextIs (·.isOp ['(']) rest then skipParenthesized 0 rest else rest) = rest') :
    skipLexerCommands (gist ts) =
      match gist rest' with
      | [] => []
      | u :: more => if u.isOp [','] then skipLexerCommands more else u :: more := by
  have hgist : skipTrivia (gist ts) = name.bare :: gist rest := by rw [skipTrivia_gist, gist_eq_cons hs]
  have hcons := skipLexerCommands_cons hgist (by simpa using hn)
  rw [gist_arguments, hr, skipTrivia_gist] at hcons
  exact hcons

theorem skipLexerCommands_gist (ts : List Token) : skipLexerCommands (gist ts) = gist (skipLexerCommands ts) := by
  fun_induction skipLexerCommands ts with
  | case1 ts hs => rw [gist_eq_nil hs, skipLexerCommands]; rfl
  | case2 ts t rest hs hn rest' hs' =>
    have hname := skipLexerCommands_gist_name hs hn (show _ = rest' from rfl)
    rw [gist_eq_nil hs'] at hname
    exact hname
  | case3 ts t rest hs hn rest' u more hs' hu ih =>
    have hname := skipLexerCommands_gist_name hs hn (show _ = rest' from rfl)
    rw [gist_eq_cons hs'] at hname
    exact hname.trans ((if_pos hu).trans ih)
  | case4 ts t rest hs hn rest' u more hs' hu =>
    have hname := skipLexerCommands_gist_name hs hn (show _ = rest' from rfl)
    rw [gist_eq_cons hs'] at hname
    rw [gist_cons (not_trivia_of_skipTrivia hs')]
    exact hname.trans (if_neg hu)
  | case5 ts t rest hs hn =>
    have hgist : skipTrivia (gist ts) = t.bare :: gist rest := by rw [skipTrivia_gist, gist_eq_cons hs]
    rw [skipLexerCommands_of_not_word hgist hn, gist_cons (not_trivia_of_skipTrivia hs)]

end Spans

/-! ### The part of a rule in front of its body -/

section Rules

variable {t : Token}

@[simp] theorem isWord_bare (ws : List String) (t : Token) : isWord ws t.bare = isWord ws t := rfl

theorem skipModifiers_gist (fragment : Bool) (ts : List Token) :
    skipModifiers fragment (gist ts) = ((skipModifiers fragment ts).1, gist (skipModifiers fragment ts).2) := by
  fun_induction skipModifiers fragment ts with
  | case1 => rfl
  | case2 fragment t ts ht ih => rw [gist_cons_trivia ht, ih]
  | case3 fragment t ts ht hm ih =>
    rw [gist_cons (by simpa using ht), skipModifiers, Token.isTrivia_bare, isWord_bare, isWord_bare, if_neg ht, if_pos hm, ih]
  | case4 fragment t ts ht hm =>
    rw [gist_cons (by simpa using ht), skipModifiers, Token.isTrivia_bare, isWord_bare, if_neg ht, if_neg hm]

theorem afterPrequelItem?_gist (ht : t.isTrivia = false) (ts : List Token) :
    afterPrequelItem? t.bare (gist ts) = (afterPrequelItem? t ts).map gist := by
  have haction : skipNamedAction (t.bare :: gist ts) = gist (skipNamedAction (t :: ts)) := by
    rw [← gist_cons ht, skipNamedAction_gist]
  rw [afterPrequelItem?, afterPrequelItem?, Token.kind_bare, Token.isOp_bare, isWord_bare, isWord_bare, isWord_bare,
    nextIs_gist fun _ => rfl, dropNextIf_gist fun _ => rfl, dropNextWhile_gist fun _ => rfl, dropNext_gist, haction]
  repeat' split
  all_goals rfl

/-- The end of the part, with the gist of what is left. -/
def PrequelEnd.gist : PrequelEnd → PrequelEnd
  | colon rest => colon (Antlr.gist rest)
  | endOfFile => endOfFile
  | stuck rest => stuck (Antlr.gist rest)

/-- The gist of the part from a significant token on. -/
theorem skipPrequel_gist_cons {ts rest : List Token} (hs : skipTrivia ts = t :: rest) :
    skipPrequel (gist ts) =
      if t.isOp [':'] then .colon (gist rest)
      else
        match (afterPrequelItem? t rest).map gist with
        | some rest' => skipPrequel rest'
        | none => .stuck (gist (t :: rest)) := by
  have ht := not_trivia_of_skipTrivia hs
  have heq := skipPrequel_eq (gist ts)
  rw [skipTrivia_gist, gist_eq_cons hs] at heq
  rw [gist_eq_cons hs, ← afterPrequelItem?_gist ht, gist_cons ht]
  exact heq

theorem skipPrequel_gist (ts : List Token) : skipPrequel (gist ts) = (skipPrequel ts).gist := by
  fun_induction skipPrequel ts with
  | case1 ts hs => rw [skipPrequel_eq, gist_eq_nil hs]; rfl
  | case2 ts t rest hs hc => exact (skipPrequel_gist_cons hs).trans (if_pos hc)
  | case3 ts t rest hs hc rest' hi ih =>
    have hcons := skipPrequel_gist_cons hs
    rw [if_neg hc, hi] at hcons
    exact hcons.trans ih
  | case4 ts t rest hs hc hi =>
    have hcons := skipPrequel_gist_cons hs
    rw [if_neg hc, hi] at hcons
    exact hcons

end Rules

end GrammarText.Antlr
