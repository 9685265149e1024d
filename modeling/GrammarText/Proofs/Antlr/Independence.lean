import GrammarText.Proofs.Antlr.Gist
import GrammarText.Proofs.Antlr.Rest
import GrammarText.Proofs.Rule.Alternatives
import Mathlib.Data.List.Chain

/-!
# What whitespace and comments change in a conversion

Reading tokens and reading their gist give the same rules (`readStatements_gist`), so grammars of one gist are read
alike (`readGrammar_congr`). Two spans in bodies are the exception, since there it is the very next or the last token
that is looked at and not the significant one. The question mark of a predicate is dropped right behind the braces
only, and brackets are dropped as arguments right behind the name only: whitespace in front of them, or a comment in
front of the question mark, and they are kept.
-/

namespace GrammarText.Antlr

/-- Whether the question mark of every predicate stands right behind its braces. -/
def predicatesJoined : List Token → Bool
  | [] => true
  | t :: ts =>
    (t.kind != .action || !nextIs (·.isOp ['?']) ts || ts.head?.any (·.isOp ['?'])) && predicatesJoined ts

/-- Whether no class follows a name. -/
def NoArguments (ks : List Token) : Prop :=
  ks.IsChain fun t u => ¬(t.kind = .identifier ∧ u.kind = .charClass)

instance (ks : List Token) : Decidable (NoArguments ks) :=
  inferInstanceAs (Decidable (List.IsChain _ ks))

section Bodies

variable {phrase : Bool} {depth : Nat} {last last' : Option Token} {t : Token} {us rest : List Token}

/-- Which token was kept last is asked at classes only. -/
theorem afterDropped?_congr (hk : t.kind ≠ .charClass) :
    afterDropped? phrase last t us = afterDropped? phrase last' t us := by
  simp [afterDropped?, hk]

/-- A class is dropped or kept, and reading goes on behind it. -/
theorem readKept_class (hk : t.kind = .charClass) :
    readKept phrase depth last (t :: us) =
      if phrase && last.any (·.kind == .identifier) then readKept phrase depth last us
      else (t :: (readKept phrase depth (some t) us).1, (readKept phrase depth (some t) us).2) := by
  have hop : ∀ s, t.isOp s = false := isOp_eq_false (by simp [hk])
  have hdepth : depthAfter depth t = depth := depthAfter_of_not_operator (by simp [hk]) depth
  split
  · rename_i h
    exact readKept_dropped (by simp [afterDropped?, hk, hop, h])
  · rename_i h
    rw [readKept_kept (by simp_all [afterDropped?]) (by simp [hop]), hdepth]

theorem readKept_of_none (hn : afterDropped? phrase last t us = none) :
    readKept phrase depth last (t :: us) =
      if t.isOp [';'] = true ∧ depth = 0 then ([], us)
      else (t :: (readKept phrase (depthAfter depth t) (some t) us).1,
        (readKept phrase (depthAfter depth t) (some t) us).2) := by
  split
  · rename_i h
    obtain ⟨hs, rfl⟩ := h
    exact readKept_semicolon hs us
  · rename_i h
    exact readKept_kept hn h

/-- What a body leaves does not depend on which token was kept last. -/
theorem rest_readKept_congr (phrase : Bool) (depth : Nat) (last last' : Option Token) (ts : List Token) :
    (readKept phrase depth last ts).2 = (readKept phrase depth last' ts).2 := by
  induction hn : ts.length using Nat.strongRecOn generalizing depth last last' ts with
  | ind n ih =>
    match ts with
    | [] => simp [readKept]
    | t :: us =>
      have hlt : us.length < n := by rw [← hn]; exact Nat.lt_succ_self _
      by_cases hk : t.kind = .charClass
      · rw [readKept_class hk, readKept_class hk]
        split <;> split <;> exact ih us.length hlt _ _ _ us rfl
      · cases hd : afterDropped? phrase last t us with
        | some rest =>
          have hle := Nat.lt_of_le_of_lt (length_le_of_afterDropped? hd) hlt
          rw [readKept_dropped hd, readKept_dropped ((afterDropped?_congr hk).symm.trans hd)]
          exact ih rest.length hle _ _ _ rest rfl
        | none =>
          rw [readKept_of_none hd, readKept_of_none ((afterDropped?_congr hk).symm.trans hd)]

theorem readKept_action (ha : t.kind = .action) :
    readKept phrase depth last (t :: us) =
      readKept phrase depth last (if us.head?.any (·.isOp ['?']) then us.tail else us) := by
  cases us with
  | nil => exact readKept_dropped (afterDropped?_action ha (by simp))
  | cons u us =>
    cases hu : u.isOp ['?'] with
    | true => simpa [hu] using readKept_dropped (afterDropped?_predicate ha hu)
    | false => simpa [hu] using readKept_dropped (afterDropped?_action ha (by simp [hu]))

/-- A question mark that is kept changes nothing behind it. -/
theorem rest_readKept_mark (hm : t.isOp ['?'] = true) :
    (readKept phrase depth last (t :: us)).2 = (readKept phrase depth last us).2 := by
  have hop := isOp_eq_of_isOp hm
  have hnone : afterDropped? phrase last t us = none :=
    afterDropped?_operator (kind_of_isOp hm) fun s hs => by
      rw [hop]
      revert hs s
      simp
  have hdepth : depthAfter depth t = depth := by simp [depthAfter, hop]
  rw [readKept_of_none hnone, hop, if_neg (by simp), hdepth]
  exact rest_readKept_congr ..

/-! ### Bodies by their gist -/

theorem head?_any_gist {p : Token → Bool} (hp : ∀ t, p t.bare = p t) (ts : List Token) :
    (gist ts).head?.any p = nextIs p ts := by
  rw [← nextIs_gist hp, nextIs, next?, skipTrivia_gist]

theorem tail_gist (ts : List Token) : (gist ts).tail = gist (dropNext ts) := by
  rw [← dropNext_gist, dropNext, skipTrivia_gist]

theorem nextIs_of_head? {p : Token → Bool} (hp : ∀ t, p t = true → t.isTrivia = false) {ts : List Token}
    (h : ts.head?.any p = true) : nextIs p ts = true ∧ dropNext ts = ts.tail := by
  cases ts with
  | nil => cases h
  | cons t ts =>
    have ht := hp t h
    rw [nextIs_cons ht, dropNext, skipTrivia_cons ht]
    exact ⟨h, rfl⟩

/-- All that is dropped but actions and arguments is dropped from the gist too. -/
theorem afterDropped?_gist (ht : t.isTrivia = false) (ha : t.kind ≠ .action) (hc : t.kind ≠ .charClass) :
    afterDropped? phrase last' t.bare (gist us) = (afterDropped? phrase last t us).map gist := by
  have hk : t.kind ≠ .comment := by
    rintro hk
    simp [Token.isTrivia, hk] at ht
  simp only [afterDropped?, Token.kind_bare, Token.isOp_bare, beq_iff_eq, hk, ha, hc, if_false, Bool.and_eq_true, false_and,
    skipLexerCommands_gist, skipElementOptions_gist, dropNext_gist, nextIs_gist (p := isLabelSign) fun _ => rfl,
    dropNextIf_gist (p := fun t => t.kind == .identifier) fun _ => rfl]
  repeat' split
  all_goals rfl

theorem NoArguments.of_append {ks ls : List Token} (h : NoArguments (ks ++ ls)) : NoArguments ls :=
  (List.isChain_append.1 h).2.1

theorem predicatesJoined_tail (h : predicatesJoined (t :: us) = true) : predicatesJoined us = true := by
  rw [predicatesJoined, Bool.and_eq_true] at h
  exact h.2

theorem predicatesJoined_of_suffix {ts : List Token} (hs : us <:+ ts) (h : predicatesJoined ts = true) :
    predicatesJoined us = true := by
  induction ts with
  | nil => rwa [List.suffix_nil.1 hs]
  | cons t ts ih =>
    rcases List.suffix_cons_iff.1 hs with rfl | hs
    · exact h
    · exact ih hs (predicatesJoined_tail h)

/-- How a body is read by its gist, `last` and `last'` being the tokens that were kept last: to its end alike; and the
same is kept, if predicates are joined and no arguments are kept. -/
def ReadsByGist (phrase : Bool) (depth : Nat) (last last' : Option Token) (ts : List Token) : Prop :=
  (readKept phrase depth last' (gist ts)).2 = gist (readKept phrase depth last ts).2 ∧
    (predicatesJoined ts = true → (last.any (·.kind == .identifier) → last'.any (·.kind == .identifier)) →
      (phrase = true → NoArguments (last'.toList ++ gist (readKept phrase depth last ts).1)) →
      (readKept phrase depth last' (gist ts)).1 = gist (readKept phrase depth last ts).1)

theorem readsByGist_action (ha : t.kind = .action) (h : ReadsByGist phrase depth last last' us)
    (h' : ReadsByGist phrase depth last last' us.tail) : ReadsByGist phrase depth last last' (t :: us) := by
  have ht : t.isTrivia = false := by simp [Token.isTrivia, ha]
  have ha' : t.bare.kind = .action := ha
  rw [ReadsByGist, gist_cons ht, readKept_action ha, readKept_action ha', head?_any_gist fun _ => rfl, tail_gist]
  by_cases hjoin : us.head?.any (·.isOp ['?']) = true
  · obtain ⟨hnext, hdrop⟩ := nextIs_of_head? (fun _ => isTrivia_eq_false_of_isOp) hjoin
    rw [if_pos hnext, if_pos hjoin, hdrop]
    have hsuffix : us.tail <:+ t :: us := (List.tail_suffix us).trans (List.suffix_cons t us)
    exact ⟨h'.1, fun hj => h'.2 (predicatesJoined_of_suffix hsuffix hj)⟩
  · rw [if_neg hjoin]
    by_cases hnext : nextIs (·.isOp ['?']) us = true
    · -- The question mark of a predicate that is not joined is kept, and dropped from the gist.
      rw [if_pos hnext]
      refine ⟨?_, fun hj => ?_⟩
      · cases hs : skipTrivia us with
        | nil => simp [nextIs, next?, hs] at hnext
        | cons mark rest =>
          have hmark : mark.bare.isOp ['?'] = true := by simpa [nextIs, next?, hs] using hnext
          have hdrop : dropNext us = rest := by rw [dropNext, hs]; rfl
          rw [hdrop, ← h.1, gist_eq_cons hs, rest_readKept_mark hmark]
      · simp [predicatesJoined, ha, hnext, hjoin] at hj
    · rw [if_neg hnext]
      exact ⟨h.1, fun hj => h.2 (predicatesJoined_tail hj)⟩

theorem readsByGist_class (hk : t.kind = .charClass) (h : ∀ last last', ReadsByGist phrase depth last last' us) :
    ReadsByGist phrase depth last last' (t :: us) := by
  have ht : t.isTrivia = false := by simp [Token.isTrivia, hk]
  have hk' : t.bare.kind = .charClass := hk
  rw [ReadsByGist, gist_cons ht, readKept_class hk, readKept_class hk']
  by_cases hdrop : (phrase && last.any (·.kind == .identifier)) = true
  · rw [if_pos hdrop]
    by_cases hdrop' : (phrase && last'.any (·.kind == .identifier)) = true
    · rw [if_pos hdrop']
      exact ⟨(h last last').1, fun hj => (h last last').2 (predicatesJoined_tail hj)⟩
    · rw [if_neg hdrop']
      obtain ⟨hp, hlast⟩ := Bool.and_eq_true_iff.1 hdrop
      exact ⟨(h last (some t.bare)).1, fun _ hlasts => absurd (Bool.and_eq_true_iff.2 ⟨hp, hlasts hlast⟩) hdrop'⟩
  · rw [if_neg hdrop]
    by_cases hdrop' : (phrase && last'.any (·.kind == .identifier)) = true
    · -- Arguments that whitespace separates from their name are kept, and dropped from the gist.
      rw [if_pos hdrop']
      refine ⟨(h (some t) last').1, fun _ _ hno => ?_⟩
      obtain ⟨hp, hlast⟩ := Bool.and_eq_true_iff.1 hdrop'
      cases last' with
      | none => cases hlast
      | some name =>
        have hchain := hno hp
        rw [gist_cons ht] at hchain
        exact absurd ⟨by simpa using hlast, hk'⟩ (List.isChain_cons_cons.1 hchain).1
    · rw [if_neg hdrop', gist_cons ht]
      obtain ⟨hrest, hkept⟩ := h (some t) (some t.bare)
      refine ⟨hrest, fun hj _ hno => congrArg (t.bare :: ·) ?_⟩
      exact hkept (predicatesJoined_tail hj) (by simp [hk]) fun hp => (hno hp).of_append

theorem readsByGist_comment (hk : t.kind = .comment) (h : ReadsByGist phrase depth last last' us) :
    ReadsByGist phrase depth last last' (t :: us) := by
  rw [ReadsByGist, gist_cons_trivia (by simp [Token.isTrivia, hk]), readKept_dropped (afterDropped?_comment hk)]
  exact ⟨h.1, fun hj => h.2 (predicatesJoined_tail hj)⟩

theorem readsByGist_whitespace (hk : t.kind = .whitespace) (h : ReadsByGist phrase depth (some t) last' us) :
    ReadsByGist phrase depth last last' (t :: us) := by
  have ht : t.isTrivia = true := by simp [Token.isTrivia, hk]
  rw [ReadsByGist, gist_cons_trivia ht, readKept_of_none (afterDropped?_whitespace hk),
    if_neg (by simp [isOp_eq_false, hk]), depthAfter_of_not_operator (by simp [hk]), gist_cons_trivia ht]
  exact ⟨h.1, fun hj _ hno => h.2 (predicatesJoined_tail hj) (by simp [hk]) hno⟩

theorem readsByGist_dropped (ht : t.isTrivia = false) (ha : t.kind ≠ .action) (hc : t.kind ≠ .charClass)
    (hd : afterDropped? phrase last t us = some rest) (h : ReadsByGist phrase depth last last' rest) :
    ReadsByGist phrase depth last last' (t :: us) := by
  have hd' : afterDropped? phrase last' t.bare (gist us) = some (gist rest) := by
    rw [afterDropped?_gist ht ha hc, hd, Option.map_some]
  have hsuffix : rest <:+ t :: us := (afterDropped?_suffix hd).trans (List.suffix_cons t us)
  rw [ReadsByGist, gist_cons ht, readKept_dropped hd, readKept_dropped hd']
  exact ⟨h.1, fun hj => h.2 (predicatesJoined_of_suffix hsuffix hj)⟩

theorem readsByGist_kept (ht : t.isTrivia = false) (ha : t.kind ≠ .action) (hc : t.kind ≠ .charClass)
    (hd : afterDropped? phrase last t us = none)
    (h : ReadsByGist phrase (depthAfter depth t) (some t) (some t.bare) us) :
    ReadsByGist phrase depth last last' (t :: us) := by
  have hd' : afterDropped? phrase last' t.bare (gist us) = none := by rw [afterDropped?_gist ht ha hc, hd, Option.map_none]
  have hdepth : depthAfter depth t.bare = depthAfter depth t := rfl
  rw [ReadsByGist, gist_cons ht, readKept_of_none hd, readKept_of_none hd', Token.isOp_bare, hdepth]
  split
  · exact ⟨rfl, fun _ _ _ => rfl⟩
  · rw [gist_cons ht]
    refine ⟨h.1, fun hj _ hno => congrArg (t.bare :: ·) ?_⟩
    exact h.2 (predicatesJoined_tail hj) (by simp) fun hp => (hno hp).of_append

/-- Every body is read by its gist. -/
theorem readsByGist (phrase : Bool) (depth : Nat) (last last' : Option Token) (ts : List Token) :
    ReadsByGist phrase depth last last' ts := by
  induction hn : ts.length using Nat.strongRecOn generalizing depth last last' ts with
  | ind n ih =>
    match ts with
    | [] => simp [ReadsByGist, readKept]
    | t :: us =>
      have hlt : us.length < n := by rw [← hn]; exact Nat.lt_succ_self _
      have hus : ∀ depth last last', ReadsByGist phrase depth last last' us :=
        fun depth last last' => ih us.length hlt depth last last' us rfl
      have htail : ReadsByGist phrase depth last last' us.tail :=
        ih us.tail.length (Nat.lt_of_le_of_lt (List.tail_sublist us).length_le hlt) depth last last' us.tail rfl
      by_cases hc : t.kind = .comment
      · exact readsByGist_comment hc (hus depth last last')
      by_cases hw : t.kind = .whitespace
      · exact readsByGist_whitespace hw (hus depth (some t) last')
      by_cases ha : t.kind = .action
      · exact readsByGist_action ha (hus depth last last') htail
      by_cases hk : t.kind = .charClass
      · exact readsByGist_class hk fun last last' => hus depth last last'
      have ht := isTrivia_eq_false hw hc
      cases hd : afterDropped? phrase last t us with
      | some rest =>
        have hlen := Nat.lt_of_le_of_lt (length_le_of_afterDropped? hd) hlt
        exact readsByGist_dropped ht ha hk hd (ih rest.length hlen depth last last' rest rfl)
      | none => exact readsByGist_kept ht ha hk hd (hus _ _ _)

theorem kind_ne_comment_of_kept (phrase : Bool) (depth : Nat) (last : Option Token) (ts : List Token) :
    ∀ t ∈ (readKept phrase depth last ts).1, t.kind ≠ .comment := by
  intro t ht
  obtain ⟨last, us, hd⟩ := afterDropped?_of_mem_readKept ht
  exact (afterDropped?_eq_none hd).1

theorem gist_gist (ts : List Token) : gist (gist ts) = gist ts := by
  simp [gist, significant, List.filter_map, Function.comp_def]

theorem gist_trimBody {ts : List Token} (hc : ∀ t ∈ ts, t.kind ≠ .comment) :
    gist (trimBody ts) = withoutLastBars (gist ts) := by
  rw [gist, significant_trimBody hc, withoutLastBars, withoutLastBars, List.rdropWhile, List.rdropWhile, gist,
    ← List.map_reverse, List.dropWhile_map, List.map_reverse]
  rfl

theorem noArguments_map_bare {ks : List Token} : NoArguments (ks.map Token.bare) ↔ NoArguments ks :=
  List.isChain_map _

/-- Bars at the end are no arguments. -/
theorem noArguments_of_withoutLastBars {ks : List Token} (h : NoArguments (withoutLastBars ks)) : NoArguments ks := by
  induction ks using List.reverseRecOn with
  | nil => exact List.isChain_nil
  | append_singleton ks t ih =>
    by_cases hb : t.isOp ['|'] = true
    · rw [withoutLastBars, List.rdropWhile_concat_pos (fun u : Token => u.isOp ['|']) ks t hb] at h
      refine List.isChain_append.2 ⟨ih h, List.isChain_singleton t, fun u _ v hv => ?_⟩
      obtain rfl : t = v := by simpa using hv
      simp [kind_of_isOp hb]
    · rwa [withoutLastBars, List.rdropWhile_concat_neg (fun u : Token => u.isOp ['|']) ks t hb] at h

/-- The gist of a body is read from its gist, if predicates are joined and no arguments are kept. -/
theorem gist_readBody {ts : List Token} (hj : predicatesJoined ts = true)
    (hno : phrase = true → NoArguments (gist (readBody phrase ts).1)) :
    gist (readBody phrase (gist ts)).1 = gist (readBody phrase ts).1 := by
  have hcomment := kind_ne_comment_of_kept phrase 0 none ts
  rw [readBody] at hno ⊢
  rw [readBody, gist_trimBody (kind_ne_comment_of_kept phrase 0 none _), gist_trimBody hcomment]
  rw [gist_trimBody hcomment] at hno
  rw [(readsByGist phrase 0 none none ts).2 hj id fun hp => noArguments_of_withoutLastBars (hno hp), gist_gist]

end Bodies

/-! ### Statements by their gist -/

/-- Whether a rule for phrases keeps no class behind a name. -/
def AntlrRule.KeepsNoArguments (r : AntlrRule) : Prop :=
  r.isLexer = false → NoArguments (GrammarText.significant r.body)

instance (r : AntlrRule) : Decidable r.KeepsNoArguments :=
  inferInstanceAs (Decidable (_ → _))

/-- Whether one rule says the same as the other: in its body only on a condition, and if it keeps no arguments. -/
structure AntlrRule.Alike (condition : Prop) (r r' : AntlrRule) : Prop where
  name : r.name = r'.name
  isFragment : r.isFragment = r'.isFragment
  body : condition → r.KeepsNoArguments → gist r.body = gist r'.body

/-- Whether one statement says the same as the other, as far as places play no part. -/
def Statement.Alike (condition : Prop) : Statement → Statement → Prop
  | rule r, rule r' => r.Alike condition r'
  | header k, header k' => k = k'
  | abandoned n _, abandoned n' _ => n = n'
  | skipped, skipped => True
  | _, _ => False

section Statements

variable {t : Token} {ts : List Token} {s s' : Statement}

theorem Statement.Alike.mono {c c' : Prop} (h : s.Alike c s') (hc : c' → c) : s.Alike c' s' := by
  cases s <;> cases s' <;> try exact h
  exact { h with body := fun hc' => h.body (hc hc') }

theorem not_trivia_of_skipModifiers {fragment : Bool} {name : Token} {rest : List Token}
    (h : (skipModifiers fragment ts).2 = name :: rest) : name.isTrivia = false := by
  fun_induction skipModifiers fragment ts with
  | case1 => cases h
  | case2 fragment t ts _ ih => exact ih h
  | case3 fragment t ts _ _ ih => exact ih h
  | case4 fragment t ts ht =>
    cases h
    simpa using ht

/-- A rule is read by its gist. -/
theorem readRule_gist (ts : List Token) :
    Statement.Alike (predicatesJoined ts = true) (readRule ts).1 (readRule (gist ts)).1 ∧
      (readRule (gist ts)).2 = gist (readRule ts).2 := by
  have hsuffix := skipModifiers_suffix false ts
  have hname := @not_trivia_of_skipModifiers ts false
  rw [readRule, readRule, skipModifiers_gist]
  generalize skipModifiers false ts = m at hsuffix hname
  obtain ⟨fragment, ms⟩ := m
  cases ms with
  | nil => exact ⟨trivial, rfl⟩
  | cons name rest =>
    have hprequel := rest_skipPrequel_suffix rest
    dsimp only at hsuffix hname ⊢
    rw [gist_cons (hname rfl)]
    dsimp only
    rw [Token.kind_bare, skipPrequel_gist]
    split
    · exact ⟨trivial, rfl⟩
    cases hp : skipPrequel rest with
    | endOfFile => exact ⟨trivial, rfl⟩
    | stuck left => exact ⟨rfl, rfl⟩
    | colon left =>
      rw [hp] at hprequel
      have hleft : left <:+ ts := hprequel.trans ((List.suffix_cons name rest).trans hsuffix)
      refine ⟨⟨rfl, rfl, fun hj hno => (gist_readBody (predicatesJoined_of_suffix hleft hj) fun hp => ?_).symm⟩, ?_⟩
      · exact noArguments_map_bare.2 (hno (show isLexerName name.text = false by simpa using hp))
      · exact (readsByGist (!isLexerName name.text) 0 none none left).1

/-- A statement is read by its gist. -/
theorem readStatementFrom_gist (ht : t.isTrivia = false) (ts : List Token) :
    Statement.Alike (predicatesJoined (t :: ts) = true) (readStatementFrom t ts).1
        (readStatementFrom t.bare (gist ts)).1 ∧
      (readStatementFrom t.bare (gist ts)).2 = gist (readStatementFrom t ts).2 := by
  have hrule := readRule_gist (t :: ts)
  have haction := skipNamedAction_gist (t :: ts)
  rw [gist_cons ht] at hrule haction
  simp only [readStatementFrom, Token.isOp_bare, Token.kind_bare, isWord_bare, haction, skipThroughSemicolon_gist,
    dropNext_gist, dropNextIf_gist (p := (·.isOp [';'])) fun _ => rfl,
    nextIs_gist (p := fun u => u.text == "grammar".toList) fun _ => rfl, nextIs_gist (p := (·.isOp [':'])) fun _ => rfl,
    nextIs_gist (p := fun t => t.kind == .action) fun _ => rfl]
  split
  · exact ⟨trivial, rfl⟩
  split
  · exact ⟨trivial, rfl⟩
  split
  · exact ⟨rfl, rfl⟩
  split
  · exact ⟨trivial, rfl⟩
  split
  · exact ⟨trivial, rfl⟩
  · exact hrule

/-- All statements are read by their gist. -/
theorem readStatements_gist (ts : List Token) :
    List.Forall₂ (Statement.Alike (predicatesJoined ts = true)) (readStatements ts) (readStatements (gist ts)) := by
  induction hn : ts.length using Nat.strongRecOn generalizing ts with
  | ind n ih =>
    rw [readStatements_eq, readStatements_eq (gist ts), skipTrivia_gist]
    cases hs : skipTrivia ts with
    | nil =>
      rw [gist_eq_nil hs]
      exact .nil
    | cons t us =>
      obtain ⟨hfirst, hrest⟩ := readStatementFrom_gist (not_trivia_of_skipTrivia hs) us
      have hus : t :: us <:+ ts := hs ▸ skipTrivia_suffix ts
      have hlen : (readStatementFrom t us).2.length < n := by
        have := hus.length_le
        have := length_readStatementFrom_lt t us
        simp only [List.length_cons] at *
        omega
      have hleft : (readStatementFrom t us).2 <:+ ts := (readStatementFrom_suffix t us).trans hus
      rw [gist_eq_cons hs]
      refine .cons (hfirst.mono (predicatesJoined_of_suffix hus)) ?_
      rw [hrest]
      exact (ih _ hlen _ rfl).imp fun _ _ h => h.mono (predicatesJoined_of_suffix hleft)

/-- The headers of statements that are alike announce the same, and their rules are alike. -/
theorem Statement.Alike.rules {c : Prop} {ss ss' : List Statement} (h : List.Forall₂ (Statement.Alike c) ss ss') :
    ss.filterMap Statement.header? = ss'.filterMap Statement.header? ∧
      List.Forall₂ (AntlrRule.Alike c) (ss.filterMap Statement.rule?) (ss'.filterMap Statement.rule?) := by
  induction h with
  | nil => exact ⟨rfl, .nil⟩
  | @cons s s' ss ss' hs _ ih =>
    obtain ⟨hheaders, hrules⟩ := ih
    cases s <;> cases s' <;> try exact hs.elim
    case rule.rule => exact ⟨hheaders, .cons hs hrules⟩
    case header.header k k' => exact ⟨congrArg₂ List.cons hs hheaders, hrules⟩
    case abandoned.abandoned => exact ⟨hheaders, hrules⟩
    case skipped.skipped => exact ⟨hheaders, hrules⟩

end Statements

/-! ### Grammars by their gist -/

theorem map_eq_of_forall₂ {α β : Type} {f : α → β} {as bs : List α}
    (h : List.Forall₂ (fun a b => f a = f b) as bs) : as.map f = bs.map f := by
  rw [← List.forall₂_eq_eq_eq, List.forall₂_map_left_iff, List.forall₂_map_right_iff]
  exact h

theorem forall₂_of_common {α β γ : Type} {p : α → β → Prop} {q : γ → β → Prop} {r : α → γ → Prop}
    (hr : ∀ a b c, p a b → q c b → r a c) {as : List α} {bs : List β} {cs : List γ} (hp : List.Forall₂ p as bs)
    (hq : List.Forall₂ q cs bs) : List.Forall₂ r as cs := by
  induction hp generalizing cs with
  | nil => cases hq; exact .nil
  | cons h _ ih =>
    cases hq with
    | cons h' hq => exact .cons (hr _ _ _ h h') (ih hq)

theorem map_text_gist (ts : List Token) : (gist ts).map Token.text = (significant ts).map Token.text := by
  rw [gist, List.map_map]
  rfl

/-- Whitespace and comments play no part in which rules a grammar has, which of them are fragments and what kind of
grammar it is. They play none in the bodies of its rules if predicates are joined and no arguments are kept. -/
theorem readGrammar_congr (s s' : GrammarSource)
    (h : (significant (scan .antlr s.text)).map Token.sign = (significant (scan .antlr s'.text)).map Token.sign) :
    (readGrammar s).kind = (readGrammar s').kind ∧
      List.Forall₂ (fun r r' => r.name = r'.name ∧ r.isFragment = r'.isFragment ∧
          (predicatesJoined (scan .antlr s.text) = true → predicatesJoined (scan .antlr s'.text) = true →
            r.KeepsNoArguments → r'.KeepsNoArguments →
              (significant r.body).map Token.text = (significant r'.body).map Token.text))
        (readGrammar s).rules (readGrammar s').rules := by
  obtain ⟨hheaders, hrules⟩ := Statement.Alike.rules (readStatements_gist (scan .antlr s.text))
  obtain ⟨hheaders', hrules'⟩ := Statement.Alike.rules (readStatements_gist (scan .antlr s'.text))
  rw [gist_eq_of_map_sign h] at hheaders hrules
  refine ⟨?_, forall₂_of_common (fun r r₀ r' hr hr' => ?_) hrules hrules'⟩
  · have hnames := map_eq_of_forall₂ (hrules.imp fun _ _ hr => hr.name)
    have hnames' := map_eq_of_forall₂ (hrules'.imp fun _ _ hr => hr.name)
    simp only [readGrammar, announcedKind, hheaders.trans hheaders'.symm, hnames.trans hnames'.symm]
  · refine ⟨hr.name.trans hr'.name.symm, hr.isFragment.trans hr'.isFragment.symm, fun hj hj' hno hno' => ?_⟩
    rw [← map_text_gist, ← map_text_gist, hr.body hj hno, hr'.body hj' hno']

/-- A grammar with little whitespace. -/
def tightGrammar : GrammarSource :=
  ⟨"g.g4".toList, "grammar G;a:x=b[i]{p}?c|D->skip;fragment D:[0-9];".toList⟩

/-- The same with whitespace and comments wherever they change nothing. -/
def airyGrammar : GrammarSource :=
  ⟨"g.g4".toList, "// G\ngrammar G ;\na : x = b/**/[i] {p}? c // c\n  | D -> skip ;\nfragment\nD : [0-9] ;".toList⟩

theorem readGrammar_congr_airyGrammar :
    (readGrammar tightGrammar).kind = (readGrammar airyGrammar).kind ∧
      List.Forall₂ (fun r r' => (significant r.body).map Token.text = (significant r'.body).map Token.text)
        (readGrammar tightGrammar).rules (readGrammar airyGrammar).rules := by
  obtain ⟨hkind, hrules⟩ := readGrammar_congr tightGrammar airyGrammar (by decide +kernel)
  obtain ⟨hlength, hpairs⟩ := List.forall₂_iff_zip.1 hrules
  have htight : ∀ r ∈ (readGrammar tightGrammar).rules, r.KeepsNoArguments := by decide +kernel
  have hairy : ∀ r ∈ (readGrammar airyGrammar).rules, r.KeepsNoArguments := by decide +kernel
  refine ⟨hkind, List.forall₂_iff_zip.2 ⟨hlength, fun hpair => ?_⟩⟩
  obtain ⟨hr, hr'⟩ := List.of_mem_zip hpair
  exact (hpairs hpair).2.2 (by decide +kernel) (by decide +kernel) (htight _ hr) (hairy _ hr')

/-- Whitespace in front of arguments plays a part: they are kept. -/
theorem spacedArguments_kept :
    ¬∀ s s' : GrammarSource,
      (significant (scan .antlr s.text)).map Token.sign = (significant (scan .antlr s'.text)).map Token.sign →
        List.Forall₂ (fun r r' => r.name = r'.name ∧ r.isFragment = r'.isFragment ∧
            (significant r.body).map Token.text = (significant r'.body).map Token.text)
          (readGrammar s).rules (readGrammar s').rules ∧
        (readGrammar s).kind = (readGrammar s').kind := by
  intro h
  have hrules := (h ⟨"g.g4".toList, "a : b[x] ;".toList⟩ ⟨"g.g4".toList, "a : b [x] ;".toList⟩ (by decide +kernel)).1
  have hbodies := map_eq_of_forall₂ (hrules.imp fun _ _ hr => hr.2.2)
  revert hbodies
  decide +kernel

-- The question mark of a predicate behind whitespace is kept as well.
example : (readGrammar ⟨"g.g4".toList, "a : {p} ? b ;".toList⟩).rules.map (fun r => (significant r.body).map Token.text) =
    [["?".toList, "b".toList]] := by decide +kernel


end GrammarText.Antlr
