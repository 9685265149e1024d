import GrammarText.Proofs.Lint.Balance

/-!
# Where delimited tokens end

When a text that begins a literal, a character class, an action or a block comment is closed, said without the
scanner (`Closed`): a literal when its mark comes again outside escapes, a class when its brackets balance outside
escapes, an action when its braces balance outside escapes and literals, a comment when its closing sign stands
behind the opening one. Such a token is the shortest beginning of the text ahead that is closed, or all that is
ahead if none is (`delimited_cut`).

The scanner reads each of the forms with a machine. All that is used of a machine is what it says about the
beginnings of a text (`Recognizes`): what it closes at its end is closed, and what it leaves open is not.
-/

namespace GrammarText

/-- The text without its escapes. A backslash takes the next character with it. -/
def unescaped : Text → Text
  | [] => []
  | c :: r => if c = '\\' then unescaped (r.drop 1) else c :: unescaped r
termination_by t => t.length

/-- What stands behind the first `mark` of the text outside escapes. -/
def afterLiteral (mark : Char) : Text → Text
  | [] => []
  | c :: r =>
    if c = '\\' then afterLiteral mark (r.drop 1)
    else if c = mark then r
    else afterLiteral mark r
termination_by t => t.length

theorem length_afterLiteral_le (mark : Char) (t : Text) : (afterLiteral mark t).length ≤ t.length := by
  fun_induction afterLiteral mark t with
  | case1 => exact Nat.le_refl 0
  | case2 r ih =>
    rw [List.length_drop] at ih
    rw [List.length_cons]
    omega
  | case3 r => exact Nat.le_succ r.length
  | case4 c r _ _ ih => exact Nat.le_succ_of_le ih

/-- The text without its escapes and its literals. A literal that is never closed takes the rest of the text. -/
def unquoted : Text → Text
  | [] => []
  | c :: r =>
    if c = '\\' then unquoted (r.drop 1)
    else if c = '\'' ∨ c = '"' then unquoted (afterLiteral c r)
    else c :: unquoted r
termination_by t => t.length
decreasing_by
  · simp only [List.length_drop, List.length_cons]; omega
  · exact Nat.lt_succ_of_le (length_afterLiteral_le c r)
  · exact Nat.lt_succ_self r.length

/-- Whether a text that begins a token of the class `k` is closed. -/
inductive Closed : TokenKind → Text → Prop where
  | literal {mark : Char} {rest : Text} (h : mark ∈ unescaped rest) : Closed .literal (mark :: rest)
  | charClass {t : Text} (hne : t ≠ []) (h : (unescaped t).count '[' = (unescaped t).count ']') : Closed .charClass t
  | action {t : Text} (hne : t ≠ []) (h : (unquoted t).count '\x7b' = (unquoted t).count '\x7d') : Closed .action t
  | starred {rest : Text} (h : ['*', ')'] <:+: rest) : Closed .comment ('(' :: '*' :: rest)
  | slashed {rest : Text} (h : ['*', '/'] <:+: rest) : Closed .comment ('/' :: '*' :: rest)

/-- Whether the token is a literal, a character class, an action or a block comment. -/
def Token.isDelimited (t : Token) : Bool :=
  match t.kind with
  | .literal | .charClass | .action => true
  | .comment => !(['/', '/'].isPrefixOf t.text)
  | _ => false

/-! ### Machines that recognize closed texts -/

section Machine

variable {σ : Type} {step : σ → Char → σ} {closed : σ → Bool} {s : σ} {c : Char} {t p r : Text} {P : Prop}

theorem staysOpen_of_isPrefix (h : staysOpen step closed s t = true) (hp : p <+: t) : staysOpen step closed s p = true := by
  induction p generalizing s t with
  | nil => rfl
  | cons c p ih =>
    obtain ⟨r, rfl⟩ := hp
    rw [List.cons_append, staysOpen, Bool.and_eq_true] at h
    rw [staysOpen, h.1, Bool.true_and]
    exact ih h.2 (List.prefix_append p r)

/-- What is closed at its end and at no place before is open at all places before. -/
theorem staysOpen_of_closesAtEnd (h : closesAtEnd step closed s t = true) (hp : p <+: t) (hne : p ≠ t) :
    staysOpen step closed s p = true := by
  induction p generalizing s t with
  | nil => rfl
  | cons c p ih =>
    obtain ⟨r, rfl⟩ := hp
    rw [List.cons_append, closesAtEnd] at h
    cases hc : closed (step s c) with
    | true =>
      rw [if_pos hc, List.isEmpty_iff, List.append_eq_nil_iff] at h
      exact absurd (by rw [h.1, h.2, List.append_nil]) hne
    | false =>
      rw [if_neg (by simp [hc])] at h
      rw [staysOpen, hc, Bool.not_false, Bool.true_and]
      exact ih h (List.prefix_append p r) fun he => hne (congrArg (c :: ·) he)

/-- Whether the machine is right about `P`: it holds if the machine is closed at the end of the text and at no place
before, and does not hold if the machine is closed at no place. -/
def Judges (step : σ → Char → σ) (closed : σ → Bool) (s : σ) (t : Text) (P : Prop) : Prop :=
  (closesAtEnd step closed s t = true → P) ∧ (staysOpen step closed s t = true → ¬P)

theorem judges_nil : Judges step closed s [] P ↔ ¬P := by
  simp [Judges, closesAtEnd, staysOpen]

theorem judges_cons_of_open (hc : closed (step s c) = false) :
    Judges step closed s (c :: r) P ↔ Judges step closed (step s c) r P := by
  simp [Judges, closesAtEnd, staysOpen, hc]

theorem judges_cons_of_closed (hc : closed (step s c) = true) (h : r = [] → P) : Judges step closed s (c :: r) P := by
  simpa [Judges, closesAtEnd, staysOpen, hc] using h

/-- A backslash and the character behind it change nothing. -/
theorem judges_escape {e : σ} (he : step s c = e) (hopen : closed e = false) (hback : ∀ x, step e x = s)
    (hs : closed s = false) (r : Text) :
    Judges step closed s (c :: r) P ↔ Judges step closed s (r.drop 1) P := by
  rw [judges_cons_of_open (by rw [he, hopen]), he]
  cases r with
  | nil => exact judges_nil.trans judges_nil.symm
  | cons x r =>
    rw [judges_cons_of_open (by rw [hback, hs]), hback]
    rfl

end Machine

/-- What a machine that starts behind the opening sign of a token says about texts that begin with the sign. -/
structure Recognizes {σ : Type} (k : TokenKind) (opening : Text) (step : σ → Char → σ) (closed : σ → Bool) (s : σ) :
    Prop where
  /-- A part of the opening sign is not closed. -/
  short : ∀ p, p <+: opening → p ≠ opening → ¬Closed k p
  judges : ∀ q, Judges step closed s q (Closed k (opening ++ q))
  isClosed : ∀ q, Token.isClosed ⟨k, opening ++ q, {}⟩ = closesAtEnd step closed s q

/-- The ways to cut a token of the class `k` from the text ahead. -/
inductive CutFrom (k : TokenKind) (ahead : Text) : Text → Prop where
  /-- The shortest beginning that is closed. -/
  | closed {x : Text} (hx : Token.isClosed ⟨k, x, {}⟩ = true) (hc : Closed k x) (hp : x <+: ahead)
      (hmin : ∀ p, p <+: ahead → Closed k p → x <+: p) : CutFrom k ahead x
  /-- Everything, if no beginning is closed. -/
  | unclosed (hx : Token.isClosed ⟨k, ahead, {}⟩ = false) (hall : ∀ p, p <+: ahead → ¬Closed k p) : CutFrom k ahead ahead

theorem CutFrom.eq_of_not_isClosed {k : TokenKind} {ahead x : Text} (h : CutFrom k ahead x)
    (hcl : Token.isClosed ⟨k, x, {}⟩ = false) : x = ahead := by
  cases h with
  | closed hx =>
    rw [hx] at hcl
    cases hcl
  | unclosed => rfl

namespace Recognizes

variable {σ : Type} {k : TokenKind} {opening : Text} {step : σ → Char → σ} {closed : σ → Bool} {s : σ}

theorem exists_eq_append (h : Recognizes k opening step closed s) {p r : Text} (hp : p <+: opening ++ r) (hc : Closed k p) :
    ∃ q, q <+: r ∧ p = opening ++ q := by
  rcases List.prefix_or_prefix_of_prefix hp (List.prefix_append opening r) with hshort | ⟨q, rfl⟩
  · by_cases he : p = opening
    · exact ⟨[], List.nil_prefix, by rw [he, List.append_nil]⟩
    · exact absurd hc (h.short p hshort he)
  · exact ⟨q, (List.prefix_append_right_inj opening).1 hp, rfl⟩

/-- The machine cuts a token in one of the two ways. -/
theorem cutFrom (h : Recognizes k opening step closed s) (r : Text) :
    CutFrom k (opening ++ r) ((opening ++ r).take (opening.length + closingLength step closed s r)) := by
  rw [List.take_length_add_append]
  cases hcl : closesAtEnd step closed s (r.take (closingLength step closed s r)) with
  | true =>
    refine .closed ((h.isClosed _).trans hcl) ((h.judges _).1 hcl) ?_ ?_
    · exact (List.prefix_append_right_inj opening).2 (List.take_prefix _ r)
    · intro p hp hc
      obtain ⟨q, hq, rfl⟩ := h.exists_eq_append hp hc
      rw [List.prefix_append_right_inj]
      rcases List.prefix_or_prefix_of_prefix hq (List.take_prefix (closingLength step closed s r) r) with hle | hge
      · by_cases he : q = r.take (closingLength step closed s r)
        · rw [he]
        · exact absurd hc ((h.judges q).2 (staysOpen_of_closesAtEnd hcl hle he))
      · exact hge
  | false =>
    obtain ⟨hopen, hlen⟩ := staysOpen_of_not_closes hcl
    rw [hlen, List.take_length] at hcl ⊢
    refine .unclosed ((h.isClosed r).trans hcl) fun p hp hc => ?_
    obtain ⟨q, hq, rfl⟩ := h.exists_eq_append hp hc
    exact (h.judges q).2 (staysOpen_of_isPrefix hopen hq) hc

end Recognizes

/-! ### Literals -/

theorem Closed.length_pos {k : TokenKind} {t : Text} (h : Closed k t) : 1 ≤ t.length := by
  cases h with
  | charClass hne | action hne => exact List.length_pos_of_ne_nil hne
  | literal | starred | slashed => simp

theorem judges_literal (mark : Char) (t : Text) :
    Judges (LiteralState.step mark) (· == .closed) .inside t (mark ∈ unescaped t) := by
  fun_induction unescaped t with
  | case1 => exact judges_nil.2 List.not_mem_nil
  | case2 r ih => exact (judges_escape rfl rfl (fun _ => rfl) rfl r).2 ih
  | case3 c r hc ih =>
    by_cases hm : c = mark
    · have hstep : LiteralState.step mark .inside c = .closed := by simp [LiteralState.step, hm ▸ hc, hm]
      exact judges_cons_of_closed (by rw [hstep]; rfl) fun _ => hm ▸ List.mem_cons_self
    · have hstep : LiteralState.step mark .inside c = .inside := by simp [LiteralState.step, hc, hm]
      rw [judges_cons_of_open (by rw [hstep]; rfl), hstep, List.mem_cons, or_iff_right (Ne.symm hm)]
      exact ih

theorem recognizes_literal (mark : Char) :
    Recognizes .literal [mark] (LiteralState.step mark) (· == .closed) LiteralState.inside where
  short _ hp hne hc := hne (hp.eq_of_length_le hc.length_pos)
  judges := by
    intro q
    have hiff : Closed .literal ([mark] ++ q) ↔ mark ∈ unescaped q := by
      constructor
      · rintro ⟨h⟩
        exact h
      · exact .literal
    rw [hiff]
    exact judges_literal mark q
  isClosed _ := rfl

/-! ### Character classes -/

/-- What the checks count are the brackets outside escapes. -/
theorem classDepth_eq_count (t : Text) : classDepth t = (unescaped t).count '[' - (unescaped t).count ']' := by
  fun_induction unescaped t with
  | case1 => simp [classDepth]
  | case2 r ih =>
    rw [classDepth, ih]
    rfl
  | case3 c r hc ih =>
    rw [classDepth, if_neg (by simpa using hc), ih]
    by_cases h1 : c = '['
    · simp [h1]; omega
    · by_cases h2 : c = ']'
      · simp [h2]; omega
      · simp [h1, h2]

theorem closed_charClass_iff {t : Text} (hne : t ≠ []) : Closed .charClass t ↔ classDepth t = 0 := by
  rw [classDepth_eq_count]
  constructor
  · rintro ⟨⟩
    omega
  · intro h
    exact .charClass hne (by omega)

theorem classDepth_bracket (q : Text) : classDepth ('[' :: q) = 1 + classDepth q := by
  rw [classDepth]
  rfl

theorem recognizes_charClass : Recognizes .charClass ['['] ClassState.step (·.depth == 0) ⟨1, false⟩ where
  short _ hp hne hc := hne (hp.eq_of_length_le hc.length_pos)
  judges := by
    intro q
    obtain ⟨hcloses, hstays⟩ := classDepth_spec Nat.one_pos q
    rw [List.singleton_append, closed_charClass_iff (List.cons_ne_nil _ _), classDepth_bracket]
    exact ⟨hcloses, fun ho => (Int.ne_of_lt (hstays ho)).symm⟩
  isClosed _ := rfl

/-! ### Actions -/

/-- The surplus of opening over closing braces. -/
def braceSurplus (t : Text) : Int :=
  t.count '\x7b' - t.count '\x7d'

/-- Inside a literal of an action nothing counts before the end of the literal. -/
theorem judges_afterLiteral {depth : Nat} {mark : Char} {P : Prop} (hd : 0 < depth) (hm : mark ≠ '\\') (t : Text) :
    Judges ActionState.step ActionState.closed ⟨depth, false, some mark⟩ t P ↔
      Judges ActionState.step ActionState.closed ⟨depth, false, none⟩ (afterLiteral mark t) P := by
  have hopen : ∀ escape m, ActionState.closed ⟨depth, escape, m⟩ = false := fun _ _ => beq_false_of_ne (ne_of_gt hd)
  fun_induction afterLiteral mark t with
  | case1 => exact judges_nil.trans judges_nil.symm
  | case2 r ih => exact (judges_escape rfl (hopen true _) (fun _ => rfl) (hopen false _) r).trans ih
  | case3 r hc =>
    have hstep : ActionState.step ⟨depth, false, some mark⟩ mark = ⟨depth, false, none⟩ := by simp [ActionState.step, hm]
    rw [judges_cons_of_open (by rw [hstep, hopen]), hstep]
  | case4 c r hc hcm ih =>
    have hstep : ActionState.step ⟨depth, false, some mark⟩ c = ⟨depth, false, some mark⟩ := by
      simp [ActionState.step, hc, hcm]
    rw [judges_cons_of_open (by rw [hstep, hopen]), hstep]
    exact ih

/-- A character outside escapes and literals changes the depth of an action as it changes the surplus. -/
theorem ActionState.step_of_plain {depth : Nat} (hd : 0 < depth) {c : Char} (hc : c ≠ '\\') (hq : ¬(c = '\'' ∨ c = '"')) :
    ∃ depth', ActionState.step ⟨depth, false, none⟩ c = ⟨depth', false, none⟩ ∧
      ∀ r, (depth' : Int) + braceSurplus r = depth + braceSurplus (c :: r) := by
  have hstep : ActionState.step ⟨depth, false, none⟩ c =
      if c = '\x7b' then ⟨depth + 1, false, none⟩ else if c = '\x7d' then ⟨depth - 1, false, none⟩
      else ⟨depth, false, none⟩ := by
    simp only [not_or] at hq
    simp [ActionState.step, hc, hq]
  rw [hstep]
  by_cases h1 : c = '\x7b'
  · refine ⟨depth + 1, if_pos h1, fun r => ?_⟩
    simp [braceSurplus, h1]
    omega
  · by_cases h2 : c = '\x7d'
    · refine ⟨depth - 1, by rw [if_neg h1, if_pos h2], fun r => ?_⟩
      simp [braceSurplus, h2]
      omega
    · refine ⟨depth, by rw [if_neg h1, if_neg h2], fun r => ?_⟩
      simp [braceSurplus, h1, h2]

theorem judges_action {depth : Nat} (hd : 0 < depth) (t : Text) :
    Judges ActionState.step ActionState.closed ⟨depth, false, none⟩ t (depth + braceSurplus (unquoted t) = 0) := by
  have hopen : ∀ n escape m, 0 < n → ActionState.closed ⟨n, escape, m⟩ = false :=
    fun _ _ _ hn => beq_false_of_ne (ne_of_gt hn)
  fun_induction unquoted t generalizing depth with
  | case1 =>
    apply judges_nil.2
    simp [braceSurplus]
    omega
  | case2 r ih => exact (judges_escape rfl (hopen _ true none hd) (fun _ => rfl) (hopen _ false none hd) r).2 (ih hd)
  | case3 c r hc hq ih =>
    have hstep : ActionState.step ⟨depth, false, none⟩ c = ⟨depth, false, some c⟩ := by
      rcases hq with rfl | rfl <;> rfl
    rw [judges_cons_of_open (by rw [hstep, hopen _ _ _ hd]), hstep, judges_afterLiteral hd hc]
    exact ih hd
  | case4 c r hc hq ih =>
    obtain ⟨depth', hstep, hdepth⟩ := ActionState.step_of_plain hd hc hq
    rw [← hdepth]
    cases depth' with
    | zero =>
      refine judges_cons_of_closed (by rw [hstep]; rfl) ?_
      rintro rfl
      simp [unquoted, braceSurplus]
    | succ n =>
      rw [judges_cons_of_open (by rw [hstep, hopen _ _ _ n.succ_pos]), hstep]
      exact ih n.succ_pos

theorem closed_action_iff (q : Text) : Closed .action ('\x7b' :: q) ↔ 1 + braceSurplus (unquoted q) = 0 := by
  have hbrace : unquoted ('\x7b' :: q) = '\x7b' :: unquoted q := by
    rw [unquoted]
    rfl
  have hcount : (unquoted ('\x7b' :: q)).count '\x7b' = (unquoted q).count '\x7b' + 1 ∧
      (unquoted ('\x7b' :: q)).count '\x7d' = (unquoted q).count '\x7d' := by
    rw [hbrace]
    simp
  rw [braceSurplus]
  constructor
  · rintro ⟨⟩
    omega
  · intro h
    exact .action (List.cons_ne_nil _ _) (by omega)

theorem recognizes_action : Recognizes .action ['\x7b'] ActionState.step ActionState.closed ⟨1, false, none⟩ where
  short _ hp hne hc := hne (hp.eq_of_length_le hc.length_pos)
  judges := by
    intro q
    rw [List.singleton_append, closed_action_iff]
    exact judges_action Nat.one_pos q
  isClosed _ := rfl

/-! ### Block comments -/

/-- What has been read of the closing sign of a block comment. -/
def BlockState.part (first : Char) : BlockState → Text
  | half => [first]
  | _ => []

theorem pair_infix_cons_iff {x y c : Char} {r : Text} (h : c = x → r.head? ≠ some y) :
    [x, y] <:+: c :: r ↔ [x, y] <:+: r := by
  rw [List.infix_cons_iff, or_iff_right]
  intro hp
  obtain ⟨rfl, z, rfl⟩ := List.cons_prefix_cons.1 hp
  exact h rfl rfl

theorem judges_block {first second : Char} (hne : first ≠ second) {st : BlockState} (hst : st ≠ .closed) (t : Text) :
    Judges (BlockState.step first second) (· == .closed) st t ([first, second] <:+: st.part first ++ t) := by
  induction t generalizing st with
  | nil =>
    apply judges_nil.2
    intro hi
    have := hi.length_le
    cases st <;> simp [BlockState.part] at this
  | cons c r ih =>
    cases st with
    | closed => exact absurd rfl hst
    | inside =>
      by_cases h1 : c = first
      · have hstep : BlockState.step first second .inside c = .half := by simp [BlockState.step, h1]
        rw [judges_cons_of_open (by rw [hstep]; rfl), hstep, h1]
        exact ih (by decide)
      · have hstep : BlockState.step first second .inside c = .inside := by simp [BlockState.step, h1]
        rw [judges_cons_of_open (by rw [hstep]; rfl), hstep]
        rw [show BlockState.part first .inside ++ c :: r = c :: r from rfl, pair_infix_cons_iff fun h => absurd h h1]
        exact ih (by decide)
    | half =>
      by_cases h2 : c = second
      · have hstep : BlockState.step first second .half c = .closed := by simp [BlockState.step, h2]
        exact judges_cons_of_closed (by rw [hstep]; rfl) fun _ => ⟨[], r, by rw [h2]; rfl⟩
      · have hpart : [first, second] <:+: BlockState.part first .half ++ c :: r ↔ [first, second] <:+: c :: r :=
          pair_infix_cons_iff fun _ => by simpa using h2
        rw [hpart]
        by_cases h1 : c = first
        · have hstep : BlockState.step first second .half c = .half := by simp [BlockState.step, h1, hne]
          rw [judges_cons_of_open (by rw [hstep]; rfl), hstep, h1]
          exact ih (by decide)
        · have hstep : BlockState.step first second .half c = .inside := by simp [BlockState.step, h1, h2]
          rw [judges_cons_of_open (by rw [hstep]; rfl), hstep, pair_infix_cons_iff fun h => absurd h h1]
          exact ih (by decide)

theorem Closed.two_le_length {t : Text} (h : Closed .comment t) : 2 ≤ t.length := by
  cases h <;> simp

theorem recognizes_starred :
    Recognizes .comment ['(', '*'] (BlockState.step '*' ')') (· == .closed) BlockState.inside where
  short _ hp hne hc := hne (hp.eq_of_length_le hc.two_le_length)
  judges := by
    intro q
    have hiff : Closed .comment (['(', '*'] ++ q) ↔ ['*', ')'] <:+: q := by
      constructor
      · intro hc
        cases hc with
        | starred h => exact h
      · exact .starred
    rw [hiff]
    exact judges_block (by decide) (by decide) q
  isClosed _ := rfl

theorem recognizes_slashed :
    Recognizes .comment ['/', '*'] (BlockState.step '*' '/') (· == .closed) BlockState.inside where
  short _ hp hne hc := hne (hp.eq_of_length_le hc.two_le_length)
  judges := by
    intro q
    have hiff : Closed .comment (['/', '*'] ++ q) ↔ ['*', '/'] <:+: q := by
      constructor
      · intro hc
        cases hc with
        | slashed h => exact h
      · exact .slashed
    rw [hiff]
    exact judges_block (by decide) (by decide) q
  isClosed _ := rfl

/-! ### Tokens of a text -/

section Tokens

variable {d : Dialect} {k : TokenKind} {c : Char} {rest s : Text} {t : Token} {ts : List Token}

/-- What the scanner cuts as a delimited token is cut in one of the two ways. -/
theorem cutFrom_of_form {n : Nat} (hf : form d c rest = (k, n))
    (hk : Token.isDelimited ⟨k, (c :: rest).take n, {}⟩ = true) : CutFrom k (c :: rest) ((c :: rest).take n) := by
  cases hcf : commentForm? d (c :: rest) with
  | some f =>
    rw [form_comment hcf] at hf
    cases hf
    have hopen := opening_of_commentForm? hcf
    cases f with
    | starred =>
      obtain ⟨-, r, hr⟩ := hopen
      cases hr
      have hcut := recognizes_starred.cutFrom r
      rwa [Nat.add_comm] at hcut
    | slashed =>
      obtain ⟨r, hr⟩ := hopen
      cases hr
      have hcut := recognizes_slashed.cutFrom r
      rwa [Nat.add_comm] at hcut
    | line =>
      -- a line comment is not delimited
      obtain ⟨r, hr⟩ := hopen
      cases hr
      cases hk
  | none =>
    rw [form_plain hcf, plainForm] at hf
    split at hf
    · cases hf
      have hcut := (recognizes_literal c).cutFrom rest
      rwa [Nat.add_comm] at hcut
    split at hf
    · rename_i hb
      cases hf
      obtain rfl := beq_iff_eq.1 hb
      have hcut := recognizes_charClass.cutFrom rest
      rwa [Nat.add_comm] at hcut
    split at hf
    · rename_i ha
      cases hf
      obtain ⟨-, rfl⟩ := ha
      have hcut := recognizes_action.cutFrom rest
      rwa [Nat.add_comm] at hcut
    -- no other form is delimited
    split at hf
    · cases hf
      cases hk
    · repeat' split at hf
      all_goals
        cases hf
        cases hk

theorem isDelimited_of_not_isClosed (h : t.isClosed = false) : t.isDelimited = true := by
  unfold Token.isClosed at h
  split at h <;> simp_all [Token.isDelimited, List.isPrefixOf]

/-- The first token of a text, if it is delimited, is cut in one of the two ways. -/
theorem cutFrom_of_lexemes_eq_cons (h : lexemes d s = t :: ts) (ht : t.isDelimited = true) : CutFrom t.kind s t.text := by
  match s with
  | [] => simp at h
  | c :: rest =>
    rw [lexemes_cons] at h
    cases h
    exact cutFrom_of_form rfl ht

/-- A token without its end is the last of its text. -/
theorem eq_nil_of_not_isClosed (h : lexemes d s = t :: ts) (hcl : t.isClosed = false) : t.text = s ∧ ts = [] := by
  obtain ⟨rest, rfl, rfl, -⟩ := lexemes_eq_cons h
  have htext := (cutFrom_of_lexemes_eq_cons h (isDelimited_of_not_isClosed hcl)).eq_of_not_isClosed hcl
  obtain rfl : rest = [] := List.append_right_eq_self.1 htext.symm
  exact ⟨htext, lexemes_nil d⟩

/-- The brackets of a class that is not closed count above zero. -/
theorem classDepth_of_lexemes (h : lexemes d s = t :: ts) (hk : t.kind = .charClass) :
    (classDepth t.text = 0 ↔ Closed .charClass t.text) ∧ (¬Closed .charClass t.text → 0 < classDepth t.text) := by
  have hstep : bracketStep t = classDepth t.text := by simp [bracketStep, hk]
  rcases bracketStep_charClass h hk with ⟨hcl, hzero⟩ | ⟨-, hpos, -⟩
  · obtain ⟨_, -, -, hlexeme⟩ := lexemes_eq_cons h
    rw [hstep] at hzero
    rw [closed_charClass_iff (hlexeme hcl).1.ne_nil]
    exact ⟨Iff.rfl, fun hne => absurd hzero hne⟩
  · rw [hstep] at hpos
    have hne : t.text ≠ [] := by
      intro hnil
      simp [hnil, classDepth] at hpos
    rw [closed_charClass_iff hne]
    exact ⟨Iff.rfl, fun _ => hpos⟩

end Tokens

/-- A delimited token ends at the first place where it is closed: if some beginning of the text ahead is closed, the
token is the shortest one, and otherwise it is all that is ahead and the last token. The count of brackets in a
character class is zero exactly if the class is closed, and positive otherwise. -/
theorem delimited_cut {d : Dialect} {s : Text} {before after : List Token} {t : Token}
    (h : scan d s = before ++ t :: after) (ht : t.isDelimited = true) :
    ∃ ahead, s = spelling before ++ ahead ∧ t.text <+: ahead ∧
      ((∃ p, p <+: ahead ∧ Closed t.kind p) →
        Closed t.kind t.text ∧ ∀ p, p <+: ahead → Closed t.kind p → t.text <+: p) ∧
      ((∀ p, p <+: ahead → ¬Closed t.kind p) → t.text = ahead ∧ after = []) ∧
      (t.kind = .charClass → (classDepth t.text = 0 ↔ Closed .charClass t.text) ∧
        (¬Closed .charClass t.text → 0 < classDepth t.text)) := by
  have hlex : lexemes d s = before.map Token.bare ++ t.bare :: after.map Token.bare := by
    rw [lexemes, h, List.map_append, List.map_cons]
  obtain ⟨ahead, hs, hahead⟩ := lexemes_eq_append hlex
  rw [spelling_map_bare] at hs
  obtain ⟨rest, heq, hafter, -⟩ := lexemes_eq_cons hahead.symm
  have hprefix : t.text <+: ahead := ⟨rest, heq.symm⟩
  have hcut : CutFrom t.kind ahead t.text := by
    simpa using cutFrom_of_lexemes_eq_cons hahead.symm ht
  refine ⟨ahead, hs, hprefix, ?_, ?_, classDepth_of_lexemes (t := t.bare) hahead.symm⟩
  · rintro ⟨p, hp, hc⟩
    cases hcut with
    | closed _ hclosed _ hmin => exact ⟨hclosed, hmin⟩
    | unclosed _ hall => exact absurd hc (hall p hp)
  · intro hall
    have hcl : t.isClosed = false := by
      cases hcut with
      | closed _ hclosed => exact absurd hclosed (hall _ hprefix)
      | unclosed hcl => exact hcl
    obtain ⟨htext, hnil⟩ := eq_nil_of_not_isClosed hahead.symm hcl
    exact ⟨htext, List.map_eq_nil_iff.1 hnil⟩

/-- An action with a literal and an escape in it, in front of a class that is never closed. -/
def nestedForms : Text :=
  "\x7b'\x7d'\\\x7d\x7d[b\\][c]".toList

/-- The action among the tokens of `nestedForms`. -/
def nestedAction : Token :=
  ⟨.action, "\x7b'\x7d'\\\x7d\x7d".toList, ⟨1, 1⟩⟩

/-- The class among the tokens of `nestedForms`. -/
def openClass : Token :=
  ⟨.charClass, "[b\\][c]".toList, ⟨1, 8⟩⟩

theorem scan_nestedForms : scan .antlr nestedForms = [nestedAction, openClass] := by
  decide +kernel

theorem closed_nestedAction : Closed .action nestedAction.text :=
  .action (by decide) (by decide +kernel)

theorem not_closed_openClass : ¬Closed .charClass openClass.text := by
  rw [closed_charClass_iff (by decide)]
  decide +kernel

theorem delimited_cut_nestedForms :
    (scan .antlr nestedForms = [] ++ nestedAction :: [openClass] ∧ nestedAction.isDelimited = true ∧
      ∀ p, p <+: nestedForms → Closed .action p → nestedAction.text <+: p) ∧
    (scan .antlr nestedForms = [nestedAction] ++ openClass :: [] ∧ openClass.isDelimited = true ∧
      0 < classDepth openClass.text) := by
  have hfirst : scan .antlr nestedForms = [] ++ nestedAction :: [openClass] := scan_nestedForms
  have hlast : scan .antlr nestedForms = [nestedAction] ++ openClass :: [] := scan_nestedForms
  refine ⟨⟨hfirst, rfl, ?_⟩, hlast, rfl, ?_⟩
  · obtain ⟨ahead, hs, hp, hclosed, -⟩ := delimited_cut hfirst rfl
    obtain rfl : nestedForms = ahead := hs
    exact (hclosed ⟨_, hp, closed_nestedAction⟩).2
  · obtain ⟨ahead, -, -, -, -, hdepth⟩ := delimited_cut hlast rfl
    exact (hdepth rfl).2 not_closed_openClass

end GrammarText
