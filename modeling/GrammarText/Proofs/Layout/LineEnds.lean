import GrammarText.Proofs.Layout.Essence
import GrammarText.Proofs.Layout.Evened

/-!
# Blanks at the line ends of comments

Two documents whose comments differ in the blanks at their line ends hold rules that differ in nothing else
(`forall₂_documentRules`). Their lines of words differ only where a comment stands alone in its line (`LineAlike`), so
their rows (`Row.Alike`) and bodies differ only in what trimming drops. The exception is the width of a line, which is
measured before trimming: it decides whether several alternatives share a line (`Rule.sharesLine`). Rules for which it
decides the same are laid out the same way, up to what trimming drops (`sameTrimmed_joinedRules`).
-/

namespace GrammarText

/-! ### Lines of words -/

/-- Lines that are the same, or hold one comment each, the two differing in what trimming drops. -/
inductive LineAlike : List Text → List Text → Prop where
  | same (l : List Text) : LineAlike l l
  | comment {x x' : Text} (h : SameTrimmed x x') : LineAlike [x] [x']

section Lines

variable {t u t' u' : Token} {ts ts' p p' : List Token} {lines lines' : List (List Text)}

theorem LineAlike.words {l l' : List Text} (h : LineAlike l l') : List.Forall₂ SameTrimmed l l' := by
  cases h with
  | same => exact List.forall₂_same.2 fun x _ => .refl x
  | comment h => exact .cons h .nil

theorem needsSpace_evened (ht : t'.evened = t.evened) (hu : u'.evened = u.evened) (htc : t.kind ≠ .comment)
    (huc : u.kind ≠ .comment) : needsSpace (some t') u' = needsSpace (some t) u := by
  have hbare : ∀ v w : Token, needsSpace (some v.bare) w.bare = needsSpace (some v) w := fun _ _ => rfl
  rw [← hbare t', ← hbare t, bare_of_evened ht htc, bare_of_evened hu huc]

theorem forall₂_modifyHead (f : List Text → List Text) (h : List.Forall₂ LineAlike lines lines')
    (hhead : lines'.head? = lines.head?) :
    List.Forall₂ LineAlike (lines.modifyHead f) (lines'.modifyHead f) ∧
      (lines'.modifyHead f).head? = (lines.modifyHead f).head? := by
  cases h with
  | nil => exact ⟨.nil, rfl⟩
  | cons _ h =>
    obtain rfl := Option.some.inj hhead
    exact ⟨.cons (.same _) h, rfl⟩

/-- Only lines that hold a comment differ. -/
theorem forall₂_wordLines (h : ts'.map Token.evened = ts.map Token.evened) :
    List.Forall₂ LineAlike (wordLines ts) (wordLines ts') ∧
      ((∀ t ∈ ts.head?, t.kind ≠ .comment) → (wordLines ts').head? = (wordLines ts).head?) := by
  induction ts generalizing ts' with
  | nil =>
    obtain rfl : ts' = [] := by simpa using h
    exact ⟨.nil, fun _ => rfl⟩
  | cons t ts ih =>
    obtain ⟨t', ts', rfl⟩ := List.exists_cons_of_ne_nil (l := ts') (by rintro rfl; simp at h)
    obtain ⟨ht, hts⟩ := List.cons.inj h
    have hcomment : t.kind = .comment → LineAlike [rstrip t.text] [rstrip t'.text] := fun hc =>
      .comment (sameTrimmed_rstrip (trimBlanks_of_evened ht hc).symm)
    have htext : t.kind ≠ .comment → t'.text = t.text := fun hc => by
      rw [← Token.text_bare t', bare_of_evened ht hc, Token.text_bare]
    cases ts with
    | nil =>
      obtain rfl : ts' = [] := by simpa using hts
      by_cases hc : t.kind = .comment
      · simpa [wordLines, hc, kind_of_evened ht] using hcomment hc
      · simpa [wordLines, hc, kind_of_evened ht, htext hc] using LineAlike.same _
    | cons u ts =>
      obtain ⟨u', ts', rfl⟩ := List.exists_cons_of_ne_nil (l := ts') (by rintro rfl; simp at hts)
      obtain ⟨hlines, hhead⟩ := ih hts
      have hu := (List.cons.inj hts).1
      rw [wordLines, wordLines, kind_of_evened ht, kind_of_evened hu]
      by_cases hc : t.kind = .comment
      · simpa [hc] using ⟨hcomment hc, hlines⟩
      by_cases huc : u.kind = .comment
      · simpa [hc, huc, htext hc] using ⟨LineAlike.same _, hlines⟩
      have hhead' := hhead fun v hv => by
        obtain rfl := Option.some.inj hv
        exact huc
      rw [needsSpace_evened ht hu hc huc, htext hc]
      simp only [beq_eq_false_iff_ne.2 hc, beq_eq_false_iff_ne.2 huc, Bool.false_eq_true, if_false]
      split
      · obtain ⟨h, h'⟩ := forall₂_modifyHead (t.text :: ·) hlines hhead'
        exact ⟨h, fun _ => h'⟩
      · obtain ⟨h, h'⟩ := forall₂_modifyHead (List.modifyHead (t.text ++ ·)) hlines hhead'
        exact ⟨h, fun _ => h'⟩

/-- Pieces that differ in the line ends of comments have lines that do. -/
theorem forall₂_layoutLines (h : p'.map Token.evened = p.map Token.evened) :
    List.Forall₂ LineAlike (layoutLines p) (layoutLines p') := by
  refine (forall₂_wordLines ?_).1
  change (dense p').map Token.evened = (dense p).map Token.evened
  rw [← dense_map Token.kind_evened, ← dense_map Token.kind_evened, h]

theorem endsWithLineComment_evened (p : List Token) :
    endsWithLineComment (p.map Token.evened) = endsWithLineComment p := by
  refine endsWithLineComment_map Token.kind_evened (fun t h => ?_) p
  rw [Token.text_evened_of_comment h, (@thin_trimBlanks true [] (by simp) t.text).line_iff]

end Lines

/-! ### Rows -/

/-- Rows whose words differ in what trimming drops. -/
structure Row.Alike (r r' : Row) : Prop where
  indent : r'.indent = r.indent
  words : List.Forall₂ SameTrimmed r.words r'.words

section Rows

variable {rows rows' : List Row} {lines lines' : List (List Text)} {laidOut laidOut' : List (List (List Text))}

theorem forall₂_sameTrimmed_refl (ws : List Text) : List.Forall₂ SameTrimmed ws ws :=
  List.forall₂_same.2 fun w _ => .refl w

theorem Row.Alike.refl (r : Row) : r.Alike r :=
  ⟨rfl, forall₂_sameTrimmed_refl r.words⟩

theorem Row.Alike.text {r r' : Row} (h : r.Alike r') : SameTrimmed r.text r'.text := by
  rw [Row.text, Row.text, h.indent]
  exact (SameTrimmed.refl _).append (sameTrimmed_intercalate [' '] h.words)

theorem sameTrimmed_rowsText (h : List.Forall₂ Row.Alike rows rows') :
    SameTrimmed (rowsText rows) (rowsText rows') := by
  refine sameTrimmed_intercalate ['\n'] ?_
  rw [List.forall₂_map_left_iff, List.forall₂_map_right_iff]
  exact h.imp fun _ _ => Row.Alike.text

theorem forall₂_leadRows (start : Row) (indent : Nat) (h : List.Forall₂ LineAlike lines lines') :
    List.Forall₂ Row.Alike (leadRows start indent lines) (leadRows start indent lines') := by
  cases h with
  | nil => exact .cons (.refl start) .nil
  | cons hl h =>
    refine .cons ⟨rfl, List.rel_append (forall₂_sameTrimmed_refl start.words) hl.words⟩ ?_
    rw [List.forall₂_map_left_iff, List.forall₂_map_right_iff]
    exact h.imp fun _ _ hl => ⟨rfl, hl.words⟩

theorem forall₂_blockRows (name : Text) (h : List.Forall₂ (List.Forall₂ LineAlike) laidOut laidOut') :
    List.Forall₂ Row.Alike (blockRows name laidOut) (blockRows name laidOut') := by
  cases h with
  | nil => exact .nil
  | cons hl h =>
    exact List.rel_append (forall₂_leadRows (headRow name) _ hl)
      (List.rel_flatMap h fun _ _ => forall₂_leadRows (barRow name) _)

theorem forall₂_closeRows (swallows : Bool) (lead : Nat) (h : List.Forall₂ Row.Alike rows rows') :
    List.Forall₂ Row.Alike (closeRows swallows lead rows) (closeRows swallows lead rows') := by
  cases swallows with
  | true => exact List.rel_append h (.cons (.refl _) .nil)
  | false =>
    induction h with
    | nil => exact .nil
    | @cons r r' rows rows' hr h ih =>
      cases h with
      | nil => exact .cons ⟨hr.indent, List.rel_append hr.words (forall₂_sameTrimmed_refl _)⟩ .nil
      | cons => exact .cons hr ih

/-- Blocks of alternatives whose lines differ in what trimming drops do so themselves. -/
theorem sameTrimmed_block (name : Text) (swallows : Bool) (h : List.Forall₂ (List.Forall₂ LineAlike) laidOut laidOut')
    (hl : ∀ lines ∈ laidOut, ∀ l ∈ lines, l ≠ []) (hl' : ∀ lines ∈ laidOut', ∀ l ∈ lines, l ≠ []) :
    SameTrimmed (block (ruleHead name) laidOut swallows) (block (ruleHead name) laidOut' swallows) := by
  cases h with
  | nil => exact .refl _
  | cons hlines h =>
    rw [(block_rows (List.cons_ne_nil _ _) hl swallows).1, (block_rows (List.cons_ne_nil _ _) hl' swallows).1]
    exact sameTrimmed_rowsText (forall₂_closeRows swallows _ (forall₂_blockRows name (.cons hlines h)))

theorem sameTrimmed_oneLine (head : Text) {ws ws' : List Text} (h : List.Forall₂ SameTrimmed ws ws') :
    SameTrimmed (oneLine head ws) (oneLine head ws') :=
  sameTrimmed_intercalate [' '] (List.rel_append (.cons (.refl head) h) (forall₂_sameTrimmed_refl [[';']]))

theorem forall₂_barredWords (h : List.Forall₂ (List.Forall₂ LineAlike) laidOut laidOut') :
    List.Forall₂ SameTrimmed (barredWords laidOut) (barredWords laidOut') := by
  have hwords : List.Forall₂ (List.Forall₂ SameTrimmed) (laidOut.map List.flatten) (laidOut'.map List.flatten) := by
    rw [List.forall₂_map_left_iff, List.forall₂_map_right_iff]
    exact h.imp fun _ _ hlines => List.rel_flatten (hlines.imp fun _ _ => LineAlike.words)
  exact List.rel_flatten (forall₂_intersperse (forall₂_sameTrimmed_refl [['|']]) hwords)

/-- A single word is not wrapped. -/
theorem wrapped_singleton (width : Int) (head w : Text) : wrapped width head [w] = oneLine head [w] := by
  simp [wrapped, wrapUnits, fill, fillFrom, leadLines, oneLine, joinWords, joinLines]

end Rows

/-! ### Bodies -/

/-- Whether several alternatives share a line. -/
def sharesLine (o : LayoutOptions) (name : Text) (pieces : List (List Token)) : Bool :=
  let laidOut := pieces.map layoutLines
  let line := oneLine (ruleHead name) (barredWords laidOut)
  1 < pieces.length && !(pieces.any endsWithLineComment || laidOut.any (·.length > 1)) &&
    ((line.length : Int) ≤ o.width && o.joinShort)

section Body

variable {name : Text} {p p' : List Token} {pieces pieces' : List (List Token)}

/-- A single alternative stands on one line if it fits, and is wrapped otherwise. -/
theorem renderBody_single (o : LayoutOptions) (name : Text) (p : List Token) :
    renderBody o name [p] =
      if endsWithLineComment p || (layoutLines p).length > 1 then
        block (ruleHead name) [layoutLines p] (endsWithLineComment p)
      else if (oneLine (ruleHead name) (layoutLines p).flatten).length ≤ o.width then
        oneLine (ruleHead name) (layoutLines p).flatten
      else wrapped o.width (ruleHead name) (layoutLines p).flatten := by
  simp [renderBody, barredWords]

/-- Several alternatives share a line, or each begins one. -/
theorem renderBody_several (o : LayoutOptions) (name : Text) (h : 1 < pieces.length) :
    renderBody o name pieces =
      if sharesLine o name pieces then oneLine (ruleHead name) (barredWords (pieces.map layoutLines))
      else block (ruleHead name) (pieces.map layoutLines)
        ((pieces.getLast?.map endsWithLineComment).getD false) := by
  match pieces, h with
  | p :: q :: ps, h =>
    have hlong : decide (1 < (p :: q :: ps).length) = true := decide_eq_true h
    rw [sharesLine, hlong, Bool.true_and, renderBody]
    cases (p :: q :: ps).any endsWithLineComment || ((p :: q :: ps).map layoutLines).any (·.length > 1) with
    | true => rfl
    | false => rfl

theorem forall₂_map_layoutLines (h : pieces'.map (List.map Token.evened) = pieces.map (List.map Token.evened)) :
    List.Forall₂ (List.Forall₂ LineAlike) (pieces.map layoutLines) (pieces'.map layoutLines) := by
  rw [List.forall₂_map_left_iff, List.forall₂_map_right_iff]
  rw [eq_comm, ← List.forall₂_eq_eq_eq, List.forall₂_map_left_iff, List.forall₂_map_right_iff] at h
  exact h.imp fun _ _ hp => forall₂_layoutLines hp.symm

/-- A single alternative may fit into the width in one body and not in the other. Then it is a comment, and a single word
is laid out the same way whether it fits or not. -/
theorem sameTrimmed_renderBody_single (o : LayoutOptions) (name : Text) (h : p'.map Token.evened = p.map Token.evened) :
    SameTrimmed (renderBody o name [p]) (renderBody o name [p']) := by
  have hlines := forall₂_layoutLines h
  rw [renderBody_single, renderBody_single, ← endsWithLineComment_evened p', h, endsWithLineComment_evened,
    ← hlines.length_eq]
  split
  · exact sameTrimmed_block name _ (.cons hlines .nil) (filled_layoutLines [p]) (filled_layoutLines [p'])
  · rename_i hshort
    have hlen : (layoutLines p).length ≤ 1 := by
      simp only [Bool.or_eq_true, decide_eq_true_eq, not_or] at hshort
      omega
    generalize layoutLines p = lines at hlines hlen
    generalize layoutLines p' = lines' at hlines
    cases hlines with
    | nil => exact .refl _
    | cons hl hls =>
      obtain rfl := List.length_eq_zero_iff.1 (Nat.le_zero.1 (Nat.le_of_succ_le_succ hlen))
      cases hls
      cases hl with
      | same => exact .refl _
      | comment hx =>
        simp only [List.flatten_cons, List.flatten_nil, List.append_nil, wrapped_singleton, ite_self]
        exact sameTrimmed_oneLine _ (.cons hx .nil)

/-- Bodies that differ in the line ends of comments are laid out with the same lines, up to what trimming drops, if their
alternatives share a line in both or in neither. -/
theorem sameTrimmed_renderBody (o : LayoutOptions) (name : Text)
    (h : pieces'.map (List.map Token.evened) = pieces.map (List.map Token.evened))
    (hshare : sharesLine o name pieces' = sharesLine o name pieces) :
    SameTrimmed (renderBody o name pieces) (renderBody o name pieces') := by
  have hlength : pieces'.length = pieces.length := by simpa using congrArg List.length h
  by_cases hseveral : 1 < pieces.length
  · have hlast : pieces'.getLast?.map endsWithLineComment = pieces.getLast?.map endsWithLineComment := by
      have hends := congrArg (List.map endsWithLineComment) h
      simp only [List.map_map, Function.comp_def, endsWithLineComment_evened] at hends
      rw [← List.getLast?_map, hends, List.getLast?_map]
    rw [renderBody_several o name hseveral, renderBody_several o name (by rwa [hlength]), hshare, hlast]
    have hlines := forall₂_map_layoutLines h
    split
    · exact sameTrimmed_oneLine _ (forall₂_barredWords hlines)
    · exact sameTrimmed_block name _ hlines (filled_layoutLines pieces) (filled_layoutLines pieces')
  · match pieces, pieces', hlength with
    | [], [], _ => exact .refl _
    | [p], [p'], _ => exact sameTrimmed_renderBody_single o name (List.cons.inj h).1
    | _ :: _ :: _, _, _ => exact absurd (by simp) hseveral

end Body

/-! ### Documents -/

/-- Whether the alternatives of a rule share a line. -/
def Rule.sharesLine (o : LayoutOptions) (r : Rule) : Bool :=
  GrammarText.sharesLine o r.name (splitBars 0 r.body)

section Document

variable {o : LayoutOptions} {rules rules' : List Rule}

/-- The alternatives of such rules differ in the line ends of comments as well. -/
theorem Rule.SameEvened.pieces {r r' : Rule} (h : r.SameEvened r') :
    (splitBars 0 r'.body).map (List.map Token.evened) = (splitBars 0 r.body).map (List.map Token.evened) := by
  rw [← splitBars_map Token.isOp_evened, ← splitBars_map Token.isOp_evened, h.body]

theorem sameTrimmed_renderRule {r r' : Rule} (h : r.SameEvened r') (hshare : r'.sharesLine o = r.sharesLine o) :
    SameTrimmed (renderRule o r) (renderRule o r') := by
  rw [Rule.sharesLine, Rule.sharesLine, h.name] at hshare
  rw [renderRule, renderRule, h.name]
  exact (sameTrimmed_flatten h.comments).append (sameTrimmed_renderBody o r.name h.pieces hshare)

theorem joinSpaced_eq_intercalate (gap : Nat) (ts : List Text) :
    joinSpaced gap ts = (List.replicate gap '\n').intercalate ts := by
  induction ts with
  | nil => rfl
  | cons t ts ih =>
    cases ts with
    | nil => simp [joinSpaced]
    | cons u ts =>
      rw [joinSpaced, ih, List.intercalate_cons_cons]
      exact List.cons_ne_nil u ts

theorem sameTrimmed_joinedRules (h : List.Forall₂ Rule.SameEvened rules rules')
    (hshare : rules'.map (Rule.sharesLine o) = rules.map (Rule.sharesLine o)) :
    SameTrimmed (joinedRules o rules) (joinedRules o rules') := by
  rw [joinedRules, joinedRules, joinSpaced_eq_intercalate, joinSpaced_eq_intercalate]
  apply sameTrimmed_intercalate
  induction h with
  | nil => exact .nil
  | cons hr _ ih =>
    obtain ⟨hjoin, hrest⟩ := List.cons.inj hshare
    exact .cons (sameTrimmed_renderRule hr hjoin) (ih hrest)

/-- The last pass does not tell texts apart that trimming makes the same. -/
theorem cleanUp_congr (ho : o.trimLines = true) {t t' : Text} (h : trimBlanks true t' = trimBlanks true t) :
    cleanUp o t' = cleanUp o t := by
  simp only [cleanUp, if_pos ho, joinLines_map_rstrip, h]

end Document

end GrammarText
