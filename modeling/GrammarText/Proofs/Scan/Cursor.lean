import GrammarText.Token.Cursor
import Mathlib.Data.List.Induction

/-!
# Scanning step by step

A cursor answers calls in any order: it looks ahead, names the next token, cuts a token of any length, or
cuts all tokens that are left. As long as no token ends before the cursor, the tokens so far spell
exactly the text behind it, and every place is the one that counting lines and characters gives
(`Cursor.Exact`). Each call keeps this (`Exact.perform`), so it holds wherever a run of calls can lead
(`exact_of_reached`).

Cutting all that is left comes to the end of the text from everywhere, and cuts the tokens that scanning
the rest gives (`runFor_eq`).
-/

namespace GrammarText

namespace Position

/-- The place right after a text that begins a document: line feeds count lines, and the characters behind
the last of them count columns. -/
def after (t : Text) : Position :=
  ⟨t.count '\n' + 1, (t.reverse.takeWhile (· != '\n')).length + 1⟩

theorem after_concat (t : Text) (c : Char) : after (t ++ [c]) = (after t).next c := by
  by_cases hc : c = '\n'
  · simp [after, next, hc]
  · simp [after, next, hc]

/-- Advancing character by character counts lines and columns. -/
theorem advance_after (s t : Text) : (after s).advance t = after (s ++ t) := by
  induction t using List.reverseRecOn with
  | nil => rw [List.append_nil]; rfl
  | append_singleton t c ih =>
    rw [advance_append, ih, ← List.append_assoc, after_concat]
    rfl

end Position

/-! ### Calls -/

/-- A call on a cursor. -/
inductive CursorCall where
  | peek (n : Int)
  | startsWith (t : Text)
  | next
  | add (kind : TokenKind) (stop : Int)
  | run
deriving DecidableEq, Repr

/-- What a call answers. -/
inductive CursorAnswer where
  | character (c : Option Char)
  | holds (b : Bool)
  | span (kind : TokenKind) (stop : Int)
  | added
  /-- The number of all tokens so far. -/
  | count (n : Nat)
deriving DecidableEq, Repr

namespace Cursor

/-- What a call answers, and the cursor after it. A call that fails leaves the cursor where it is. -/
def perform (s : Cursor) : CursorCall → Except CursorError CursorAnswer × Cursor
  | .peek n => ((s.peek n).map .character, s)
  | .startsWith t => (.ok (.holds (s.startsWith t)), s)
  | .next => (s.next.map fun f => .span f.1 f.2, s)
  | .add kind stop => (.ok .added, s.add kind stop)
  | .run =>
    match s.run with
    | .ok s' => (.ok (.count s'.cut.length), s')
    | .error e => (.error e, s)

/-- A token must not end before the cursor. -/
def Permits (s : Cursor) : CursorCall → Prop
  | .add _ stop => s.offset ≤ stop
  | _ => True

/-- The cursors that a run of permitted calls leads to. -/
inductive Reached (d : Dialect) (source : Text) : Cursor → Prop where
  | start : Reached d source { dialect := d, source := source }
  | call {s : Cursor} (c : CursorCall) (hc : s.Permits c) (h : Reached d source s) :
      Reached d source (s.perform c).2

/-- The tokens so far, in order. -/
def tokens (s : Cursor) : List Token :=
  s.cut.reverse

/-- The text before the cursor. -/
def behind (s : Cursor) : Text :=
  s.source.take s.offset.toNat

/-- A cursor inside its text whose tokens and places are those of the text behind it. -/
structure Exact (s : Cursor) : Prop where
  nonneg : 0 ≤ s.offset
  inside : s.offset ≤ s.size
  spelling : spelling s.tokens = s.behind
  place : s.place = .after s.behind
  starts : ∀ before t rest, s.tokens = before ++ t :: rest → t.start = .after (GrammarText.spelling before)

section Step

variable {s : Cursor} {kind : TokenKind} {stop : Int}

theorem exact_start (d : Dialect) (source : Text) : Exact { dialect := d, source := source } where
  nonneg := Int.le_refl 0
  inside := Int.natCast_nonneg _
  spelling := rfl
  place := rfl
  starts := by simp [tokens]

theorem sliceBound_of_nonneg {n : Nat} {i : Int} (h0 : 0 ≤ i) (hn : i ≤ n) : sliceBound n i = i.toNat := by
  rw [sliceBound, if_neg (by omega)]
  omega

/-- The text up to a later bound is the text up to the cursor and the slice between them. -/
theorem behind_append_slice (h0 : 0 ≤ s.offset) (hs : s.offset ≤ stop) (hn : stop ≤ s.size) :
    s.behind ++ slice s.source s.offset stop = s.source.take stop.toNat := by
  have htake : s.behind = (s.source.take stop.toNat).take s.offset.toNat := by
    rw [behind, List.take_take, Nat.min_eq_left (by omega)]
  rw [htake, slice, sliceBound_of_nonneg h0 (Int.le_trans hs hn), sliceBound_of_nonneg (Int.le_trans h0 hs) hn]
  exact List.take_append_drop _ _

/-- Cutting a token that does not end before the cursor. -/
theorem Exact.add (h : s.Exact) (hs : s.offset ≤ stop) : (s.add kind stop).Exact := by
  have hle : s.offset ≤ min stop s.size := Int.le_min.2 ⟨hs, h.inside⟩
  have hin : min stop s.size ≤ s.size := Int.min_le_right _ _
  have htokens : (s.add kind stop).tokens =
      s.tokens ++ [⟨kind, slice s.source s.offset (min stop s.size), s.place⟩] := List.reverse_cons
  have hbehind : (s.add kind stop).behind = s.behind ++ slice s.source s.offset (min stop s.size) :=
    (behind_append_slice h.nonneg hle hin).symm
  have hspell : GrammarText.spelling (s.add kind stop).tokens = (s.add kind stop).behind := by
    have := h.spelling
    rw [GrammarText.spelling] at this ⊢
    rw [htokens, hbehind, List.flatMap_append, this, List.flatMap_singleton]
  refine ⟨Int.le_trans h.nonneg hle, hin, hspell, ?_, fun before t rest heq => ?_⟩
  · rw [hbehind, ← Position.advance_after, ← h.place]
    rfl
  · rw [htokens] at heq
    rcases List.eq_nil_or_concat rest with rfl | ⟨rest, u, rfl⟩
    · -- the new token stands at the place that the cursor had reached
      obtain ⟨rfl, hu⟩ := List.append_inj' heq rfl
      obtain rfl := (List.cons.inj hu).1
      rw [h.spelling]
      exact h.place
    · rw [List.concat_eq_append, ← List.cons_append, ← List.append_assoc] at heq
      exact h.starts before t rest (List.append_inj' heq rfl).1

end Step

/-! ### Cutting all tokens -/

section Run

variable {s : Cursor}

/-- The text from an exact cursor on. -/
theorem Exact.near_eq (h : s.Exact) : s.near = s.source.drop s.offset.toNat := by
  rw [near, sliceBound_of_nonneg h.nonneg h.inside]

theorem Exact.behind_append_near (h : s.Exact) : s.behind ++ s.near = s.source := by
  rw [h.near_eq]
  exact List.take_append_drop _ _

theorem Exact.size_eq (h : s.Exact) : s.size = s.offset + s.near.length := by
  have hin : s.offset ≤ s.source.length := h.inside
  have hnn := h.nonneg
  rw [h.near_eq, List.length_drop, size]
  omega

/-- The next token is the form that the text ahead begins with. -/
theorem Exact.next_eq (h : s.Exact) {c : Char} {rest : Text} (hn : s.near = c :: rest) :
    s.next = .ok ((form s.dialect c rest).1, s.offset + (form s.dialect c rest).2) := by
  have hlen := h.size_eq
  rw [hn, List.length_cons] at hlen
  have hnn := h.nonneg
  rw [next, if_neg (by omega), hn, form]
  cases hf : commentForm? s.dialect (c :: rest) with
  | none =>
    rw [if_neg (by omega)]
  | some f =>
    -- both characters of the opening mark are ahead
    have hrest : 1 ≤ rest.length := by
      cases rest with
      | nil => cases hd : s.dialect <;> simp [commentForm?, List.isPrefixOf, hd] at hf
      | cons x r => simp
    have hdrop : s.source.drop (s.offset + 2).toNat = rest.drop 1 := by
      have hadd : (s.offset + 2).toNat = s.offset.toNat + 2 := by omega
      rw [hadd, ← List.drop_drop, ← h.near_eq, hn]
      rfl
    have hbound : sliceBound s.source.length (s.offset + 2) = (s.offset + 2).toNat :=
      sliceBound_of_nonneg (by omega) (by rw [size] at hlen; omega)
    have hstop : s.commentStop f = s.offset + ((f.restLength (rest.drop 1) + 2 : Nat) : Int) := by
      rw [commentStop, hbound, hdrop]
      omega
    dsimp only
    rw [hstop]

/-- Where cutting all tokens ends. -/
def finish (s : Cursor) : Cursor :=
  { s with
    offset := s.size
    place := .after s.source
    cut := (scanFrom s.dialect s.place s.near).reverse ++ s.cut }

/-- At the end of the text nothing is left to cut. -/
theorem Exact.finish_eq_self (h : s.Exact) (hend : s.size ≤ s.offset) : s.finish = s := by
  have hnear : s.near = [] := by
    have := h.size_eq
    rw [List.eq_nil_iff_length_eq_zero]
    omega
  have hbehind : s.behind = s.source := by
    rw [← h.behind_append_near, hnear, List.append_nil]
  have hplace := h.place
  have hoff : s.size = s.offset := Int.le_antisymm hend h.inside
  rw [hbehind] at hplace
  rw [finish, hnear, scanFrom_nil, ← hplace, hoff]
  rfl

/-- A token of `n` characters is cut from the text ahead. -/
theorem Exact.slice_eq (h : s.Exact) (n : Nat) :
    slice s.source s.offset (min (s.offset + n) s.size) = s.near.take n := by
  have hnn := h.nonneg
  have hlen := h.size_eq
  have hstop : sliceBound s.source.length (min (s.offset + n) s.size) = (min (s.offset + n) s.size).toNat :=
    sliceBound_of_nonneg (by omega) (Int.min_le_right _ _)
  rw [slice, sliceBound_of_nonneg hnn h.inside, hstop, List.drop_take, ← h.near_eq, List.take_eq_take_iff]
  omega

/-- Behind a token of `n` characters the rest of the text is ahead. -/
theorem Exact.near_add (h : s.Exact) (kind : TokenKind) (n : Nat) :
    (s.add kind (s.offset + n)).near = s.near.drop n := by
  have hnn := h.nonneg
  have hlen := h.size_eq
  have hadd : (s.add kind (s.offset + n)).Exact := h.add (by omega)
  rw [hadd.near_eq, h.near_eq, List.drop_drop]
  have hstop : min (min (s.offset + n) s.size).toNat s.source.length = min (s.offset.toNat + n) s.source.length := by
    rw [size] at hlen ⊢
    omega
  exact List.drop_eq_drop_iff.2 hstop

/-- The cursor behind the next token, `c :: rest` being the text ahead. -/
def pass (s : Cursor) (c : Char) (rest : Text) : Cursor :=
  s.add (form s.dialect c rest).1 (s.offset + (form s.dialect c rest).2)

theorem Exact.pass (h : s.Exact) (c : Char) (rest : Text) : (s.pass c rest).Exact :=
  h.add (by omega)

/-- Cutting the next token does not change where cutting all of them ends. -/
theorem Exact.finish_pass (h : s.Exact) {c : Char} {rest : Text} (hn : s.near = c :: rest) :
    (s.pass c rest).finish = s.finish := by
  have hcut : scanFrom s.dialect s.place s.near =
      ⟨(form s.dialect c rest).1, s.near.take (form s.dialect c rest).2, s.place⟩ ::
        scanFrom s.dialect (s.place.advance (s.near.take (form s.dialect c rest).2))
          (s.near.drop (form s.dialect c rest).2) := by
    rw [hn]
    exact scanFrom_cons s.dialect s.place c rest
  have hnear : (s.pass c rest).near = s.near.drop (form s.dialect c rest).2 := h.near_add _ _
  rw [finish, finish, hcut, hnear]
  simp only [Cursor.pass, Cursor.add, h.slice_eq, List.reverse_cons, List.append_assoc, List.singleton_append]
  rfl

theorem Exact.runFor_succ (h : s.Exact) {c : Char} {rest : Text} (hn : s.near = c :: rest) (fuel : Nat) :
    s.runFor (fuel + 1) = (s.pass c rest).runFor fuel := by
  have hlen := h.size_eq
  rw [hn, List.length_cons] at hlen
  rw [runFor, if_neg (by omega), h.next_eq hn]
  rfl

/-- Cutting all tokens comes to the end of the text, in as many steps as there are characters ahead. -/
theorem runFor_eq (h : s.Exact) {fuel : Nat} (hf : s.size - s.offset ≤ fuel) :
    s.runFor fuel = .ok s.finish ∧ s.finish.Exact := by
  induction fuel generalizing s with
  | zero =>
    rw [h.finish_eq_self (by omega)]
    exact ⟨rfl, h⟩
  | succ fuel ih =>
    by_cases hend : s.size ≤ s.offset
    · rw [h.finish_eq_self hend, runFor, if_pos hend]
      exact ⟨rfl, h⟩
    · have hlen := h.size_eq
      obtain ⟨c, rest, hn⟩ := List.exists_cons_of_length_pos (show 0 < s.near.length by omega)
      -- the next token takes a character, so the fuel that is left is enough behind it
      have hpos := form_pos s.dialect c rest
      have hfuel : (s.pass c rest).size - (s.pass c rest).offset ≤ fuel := by
        change s.size - min (s.offset + (form s.dialect c rest).2) s.size ≤ fuel
        omega
      obtain ⟨hrun, hexact⟩ := ih (h.pass c rest) hfuel
      rw [h.finish_pass hn] at hrun hexact
      exact ⟨(h.runFor_succ hn fuel).trans hrun, hexact⟩

theorem run_eq (h : s.Exact) : s.run = .ok s.finish ∧ s.finish.Exact :=
  runFor_eq h (by have := h.inside; omega)

end Run

/-! ### Runs of calls -/

section Calls

variable {d : Dialect} {source : Text} {s : Cursor}

/-- Every permitted call keeps a cursor exact, and keeps to its text. -/
theorem Exact.perform (h : s.Exact) {c : CursorCall} (hc : s.Permits c) :
    (s.perform c).2.Exact ∧ (s.perform c).2.source = s.source ∧ (s.perform c).2.dialect = s.dialect := by
  cases c with
  | peek | startsWith | next => exact ⟨h, rfl, rfl⟩
  | add kind stop => exact ⟨h.add hc, rfl, rfl⟩
  | run =>
    obtain ⟨hrun, hexact⟩ := run_eq h
    have hafter : (s.perform .run).2 = s.finish := by
      rw [Cursor.perform, hrun]
    rw [hafter]
    exact ⟨hexact, rfl, rfl⟩

theorem Reached.exact (h : Reached d source s) : s.Exact ∧ s.source = source ∧ s.dialect = d := by
  induction h with
  | start => exact ⟨exact_start d source, rfl, rfl⟩
  | call c hc _ ih =>
    obtain ⟨hexact, hsource, hdialect⟩ := ih
    obtain ⟨hexact', hsource', hdialect'⟩ := hexact.perform hc
    exact ⟨hexact', hsource'.trans hsource, hdialect'.trans hdialect⟩

/-- Wherever a run of permitted calls leads, the tokens so far spell exactly the text before the cursor, the
cursor's line and column are those that counting in this text gives, and so are those of every token at its first
character. From there, cutting all tokens comes to the end of the text, after at most as many steps as there are
characters ahead, and cuts the tokens that scanning the rest gives, none of which is empty. -/
theorem exact_of_reached (h : Reached d source s) :
    (0 ≤ s.offset ∧ s.offset ≤ source.length) ∧
      spelling s.tokens = source.take s.offset.toNat ∧
      s.place = .after (source.take s.offset.toNat) ∧
      (∀ before t rest, s.tokens = before ++ t :: rest → t.start = .after (source.take (spelling before).length)) ∧
      ∃ s' more, (∀ fuel : Nat, source.length - s.offset ≤ fuel → s.runFor fuel = .ok s') ∧ s.run = .ok s' ∧
        s'.offset = source.length ∧ s'.tokens = s.tokens ++ more ∧
        more = scanFrom d s.place (source.drop s.offset.toNat) ∧ ∀ t ∈ more, t.text ≠ [] := by
  obtain ⟨hexact, rfl, rfl⟩ := h.exact
  refine ⟨⟨hexact.nonneg, hexact.inside⟩, hexact.spelling, hexact.place, fun before t rest heq => ?_,
    s.finish, scanFrom s.dialect s.place s.near, fun fuel hf => (runFor_eq hexact hf).1, (run_eq hexact).1, rfl, ?_,
    by rw [hexact.near_eq], fun t ht => text_ne_nil_of_mem_scanFrom ht⟩
  · -- the tokens before `t` spell a beginning of the text
    have hprefix : GrammarText.spelling before <+: s.source := by
      have hspell := hexact.spelling
      rw [heq, GrammarText.spelling, List.flatMap_append] at hspell
      have hbehind : GrammarText.spelling before <+: s.behind := ⟨_, hspell⟩
      exact hbehind.trans (List.take_prefix _ _)
    rw [hexact.starts before t rest heq, ← List.prefix_iff_eq_take.1 hprefix]
  · rw [tokens, tokens, finish, List.reverse_append, List.reverse_reverse]

end Calls

/-- Two characters cut as one token across the end of a line, with a literal ahead that is never closed. -/
def acrossLines : Cursor :=
  { dialect := .antlr, source := "a\n'b".toList, offset := 2, place := ⟨2, 1⟩,
    cut := [⟨.identifier, ['a', '\n'], ⟨1, 1⟩⟩] }

theorem reached_acrossLines : Reached .antlr "a\n'b".toList acrossLines :=
  .call (s := acrossLines) .next trivial
    (.call (s := { dialect := .antlr, source := "a\n'b".toList }) (.add .identifier 2)
      (show (0 : Int) ≤ 2 by decide) .start)

theorem exact_of_reached_acrossLines :
    Reached .antlr "a\n'b".toList acrossLines ∧ spelling acrossLines.tokens = ['a', '\n'] ∧
      acrossLines.place = .after ['a', '\n'] ∧
      ∃ s' more, acrossLines.run = .ok s' ∧ s'.offset = 4 ∧ s'.tokens = acrossLines.tokens ++ more ∧
        ∀ t ∈ more, t.text ≠ [] := by
  obtain ⟨-, hspell, hplace, -, s', more, -, hrun, hend, htokens, -, hne⟩ := exact_of_reached reached_acrossLines
  exact ⟨reached_acrossLines, hspell, hplace, s', more, hrun, hend, htokens, hne⟩

end Cursor

end GrammarText
