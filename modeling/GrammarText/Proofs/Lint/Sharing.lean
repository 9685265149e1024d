import GrammarText.Lint.Session
import Mathlib.Data.List.Forall2

/-!
# Checks that leave the context intact

What a context has kept is right as long as the context says what it said at the beginning and each kept list holds the
alternatives of its rule (`SharedContext.Intact`). On such a context a computation that only asks ends as it would if
nothing had been kept, and leaves such a context (`Session.Ends`). So the built-in checks find on every intact context
what they find by themselves (`BuiltinCheck.realizes_shared`), and a run of checks that keep to this reports what
`lintRules` reports (`analyze_eq_lintRules`).
-/

namespace GrammarText

/-! ### Outcomes -/

namespace Session

variable {σ α β : Type}

theorem outcome_bind (x : Session σ α) (f : α → Session σ β) (s : σ) :
    Session.outcome (x >>= f) s =
      match x.outcome s with
      | (.ok a, s') => (f a).outcome s'
      | (.error e, s') => (.error e, s') := by
  unfold outcome Id.run StateT.run ExceptT.run
  simp only [bind, ExceptT.bind, ExceptT.mk, StateT.bind, ExceptT.bindCont]
  rcases x s with ⟨_ | _, _⟩ <;> rfl

theorem outcome_tryCatch (x : Session σ α) (f : Interruption → Session σ α) (s : σ) :
    Session.outcome (tryCatch x f) s =
      match x.outcome s with
      | (.ok a, s') => (.ok a, s')
      | (.error e, s') => (f e).outcome s' := by
  unfold outcome Id.run StateT.run ExceptT.run
  simp only [tryCatch, tryCatchThe, MonadExceptOf.tryCatch, ExceptT.tryCatch, ExceptT.mk, StateT.bind, bind]
  rcases x s with ⟨_ | _, _⟩ <;> rfl

theorem outcome_resume (i : Option Interruption) (s : σ) :
    (resume i).outcome s = (i.elim (.ok ()) .error, s) := by
  cases i <;> rfl

/-- From every state with the invariant a computation ends in this way, and leaves a state with the invariant. -/
def Ends (inv : σ → Prop) (x : Session σ α) (r : Except Interruption α) : Prop :=
  ∀ s, inv s → (x.outcome s).1 = r ∧ inv (x.outcome s).2

variable {inv : σ → Prop}

theorem ends_pure (a : α) : Ends inv (pure a) (.ok a) :=
  fun _ h => ⟨rfl, h⟩

theorem Ends.bind {x : Session σ α} {f : α → Session σ β} {a : α} {r : Except Interruption β} (hx : Ends inv x (.ok a))
    (hf : Ends inv (f a) r) : Ends inv (x >>= f) r := by
  intro s h
  obtain ⟨hend, hinv⟩ := hx s h
  rw [outcome_bind]
  generalize x.outcome s = y at hend hinv
  obtain ⟨r', s'⟩ := y
  obtain rfl : r' = .ok a := hend
  exact hf s' hinv

theorem Ends.bind_error {x : Session σ α} {e : Interruption} (hx : Ends inv x (.error e)) (f : α → Session σ β) :
    Ends inv (x >>= f) (.error e) := by
  intro s h
  obtain ⟨hend, hinv⟩ := hx s h
  rw [outcome_bind]
  generalize x.outcome s = y at hend hinv
  obtain ⟨r', s'⟩ := y
  obtain rfl : r' = .error e := hend
  exact ⟨rfl, hinv⟩

end Session

/-! ### What a context has kept -/

/-- The context says the same as at the beginning, and what it has kept is right. -/
structure SharedContext.Intact (ctx : LintContext) (s : SharedContext) : Prop where
  unchanged : s.toLintContext = ctx
  kept : ∀ i as, s.kept.lookup i = some as → (ruleAt? ctx.rules i).map Rule.alternatives = some as

section Intact

variable {ctx : LintContext} {s : SharedContext}

theorem intact_empty (ctx : LintContext) : SharedContext.Intact ctx { toLintContext := ctx } :=
  ⟨rfl, by simp⟩

/-- Keeping one more rule's alternatives. -/
theorem SharedContext.Intact.keep (h : s.Intact ctx) {i : Int} {r : Rule} (hr : ruleAt? ctx.rules i = some r) :
    SharedContext.Intact ctx { s with kept := (i, r.alternatives) :: s.kept } where
  unchanged := h.unchanged
  kept := by
    intro j as hj
    rw [List.lookup_cons] at hj
    cases hij : j == i with
    | true =>
      obtain rfl := eq_of_beq hij
      rw [hij] at hj
      rw [hr]
      exact hj
    | false =>
      rw [hij] at hj
      exact h.kept j as hj

namespace Sharing

theorem ends_context : Session.Ends (·.Intact ctx) context (.ok ctx) :=
  fun _ h => ⟨congrArg Except.ok h.unchanged, h⟩

/-- A rule has its alternatives, whether they were kept or not. -/
theorem ends_alternatives {i : Int} {r : Rule} (hr : ruleAt? ctx.rules i = some r) :
    Session.Ends (·.Intact ctx) (alternatives i) (.ok r.alternatives) := by
  intro s h
  rw [alternatives, Session.outcome_bind]
  change (Session.outcome _ s).1 = _ ∧ SharedContext.Intact ctx (Session.outcome _ s).2
  cases hkept : s.kept.lookup i with
  | some as =>
    have has := h.kept i as hkept
    rw [hr] at has
    exact ⟨congrArg Except.ok (Option.some.inj has).symm, h⟩
  | none =>
    have hs : ruleAt? s.rules i = some r := by rw [← hr, ← h.unchanged]
    rw [hs]
    exact ⟨rfl, h.keep hr⟩

/-- Where no rule is, the question ends with an error and changes nothing. -/
theorem ends_alternatives_none {i : Int} (hr : ruleAt? ctx.rules i = none) :
    Session.Ends (·.Intact ctx) (alternatives i) (.error (.error "list index out of range")) := by
  intro s h
  rw [alternatives, Session.outcome_bind]
  change (Session.outcome _ s).1 = _ ∧ SharedContext.Intact ctx (Session.outcome _ s).2
  cases hkept : s.kept.lookup i with
  | some as =>
    have has := h.kept i as hkept
    rw [hr] at has
    cases has
  | none =>
    have hs : ruleAt? s.rules i = none := by rw [← hr, ← h.unchanged]
    rw [hs]
    exact ⟨rfl, h⟩

end Sharing

end Intact

/-! ### The built-in checks -/

/-- On every intact context a check ends as another ends by itself, all findings or none handed over, and leaves the
context intact. -/
structure SharedCheck.Realizes (c : SharedCheck) (k : Check) : Prop where
  id : c.id = k.id
  run : ∀ ctx s, s.Intact ctx →
    ∃ s', s'.Intact ctx ∧ c.run s = .ofOutcome ((k.run ctx).mapError Interruption.error, s')

section Builtin

variable {needs : Rule → Bool} {find : Rule → Nat → List Alternative → List Finding} {ctx : LintContext}

theorem ends_inspectRule {r : Rule} {i : Nat} (hr : ctx.rules[i]? = some r)
    (hskip : needs r = false → find r i r.alternatives = []) :
    Session.Ends (·.Intact ctx) (inspectRule needs find r i) (.ok (find r i r.alternatives)) := by
  unfold inspectRule
  split
  · exact (Sharing.ends_alternatives (i := i) hr).bind (Session.ends_pure _)
  · next hn =>
    rw [hskip (Bool.eq_false_iff.mpr hn)]
    exact Session.ends_pure _

/-- The rules that are passed over have nothing to find. -/
theorem ends_inspectEach (hskip : ∀ r i, needs r = false → find r i r.alternatives = []) {l : List (Rule × Nat)}
    (hl : ∀ p ∈ l, ctx.rules[p.2]? = some p.1) :
    Session.Ends (·.Intact ctx) (inspectEach needs find l) (.ok (l.flatMap fun (r, i) => find r i r.alternatives)) := by
  induction l with
  | nil => exact Session.ends_pure _
  | cons p rest ih =>
    have hfound := ends_inspectRule (hl p List.mem_cons_self) (hskip p.1 p.2)
    have hrest := ih fun p hp => hl p (List.mem_cons_of_mem _ hp)
    rw [List.flatMap_cons]
    exact hfound.bind (hrest.bind (Session.ends_pure _))

theorem ends_inspectEach_zipIdx (hskip : ∀ r i, needs r = false → find r i r.alternatives = []) :
    Session.Ends (·.Intact ctx) (inspectEach needs find ctx.rules.zipIdx)
      (.ok (ctx.rules.zipIdx.flatMap fun (r, i) => find r i r.alternatives)) :=
  ends_inspectEach hskip fun _ hp => List.mem_zipIdx_iff_getElem?.mp hp

/-- Where no name is missing, none is reported. -/
theorem missingReferences_nil (as : List Alternative) : missingReferences [] as = [] := by
  have hnone : ∀ a : Alternative, (referencedNames a.tokens).filter ([] : List Text).contains = [] := fun a =>
    List.filter_eq_nil_iff.mpr fun _ _ => by simp
  rw [missingReferences]
  simp only [hnone, List.map_nil, List.flatMap_eq_nil_iff.mpr fun _ _ => rfl]
  rfl

namespace BuiltinCheck

/-- A built-in check finds what it is to find, and never breaks off. -/
theorem ends_inspect (b : BuiltinCheck) (ctx : LintContext) :
    Session.Ends (·.Intact ctx) b.inspect (.ok (b.findings ctx)) := by
  refine Sharing.ends_context.bind ?_
  cases b with
  | duplicates => exact Session.ends_pure _
  | delimiters => exact ends_inspectEach_zipIdx fun _ _ h => nomatch h
  | undefined =>
    refine ends_inspectEach_zipIdx fun r i h => ?_
    have hnone : ctx.graph.danglingOf r.name = [] := by simpa using h
    rw [hnone, missingReferences_nil]
    rfl
  | leftRecursion => exact ends_inspectEach_zipIdx fun _ _ h => nomatch h
  | reachability => exact Session.ends_pure _

theorem realizes_shared (b : BuiltinCheck) : b.shared.Realizes b.toCheck where
  id := rfl
  run ctx s h := by
    obtain ⟨hend, hintact⟩ := b.ends_inspect ctx s h
    exact ⟨_, hintact, congrArg (fun r => CheckRun.ofOutcome (r, _)) hend⟩

end BuiltinCheck

end Builtin

/-! ### Running the checks -/

section Run

variable {ctx : LintContext} {c : SharedCheck} {k : Check} {p : Progress}

theorem outcome_takeOver (c : SharedCheck) (p : Progress) :
    Session.outcome (takeOver c) p =
      ((c.run p.context).interruption.elim (.ok ()) .error,
        { p with context := (c.run p.context).context, findings := p.findings ++ (c.run p.context).findings }) := by
  change Session.outcome (Session.resume (c.run p.context).interruption)
    { p with context := (c.run p.context).context, findings := p.findings ++ (c.run p.context).findings } = _
  exact Session.outcome_resume _ _

/-- On an intact context a check adds what it adds by itself. -/
theorem outcome_runCheck (h : c.Realizes k) (hp : p.context.Intact ctx) :
    ∃ s, s.Intact ctx ∧ Session.outcome (runCheck c) p =
      (.ok (), ⟨s, p.findings ++ k.findings ctx, p.failures ++ (k.failure? ctx).toList⟩) := by
  obtain ⟨s, hs, hrun⟩ := h.run ctx p.context hp
  refine ⟨s, hs, ?_⟩
  rw [runCheck, Session.outcome_tryCatch, outcome_takeOver, hrun, Check.findings, Check.failure?, h.id]
  cases k.run ctx with
  | ok findings =>
    change (Except.ok (), Progress.mk s (p.findings ++ findings) p.failures) =
      (Except.ok (), Progress.mk s (p.findings ++ findings) (p.failures ++ []))
    rw [List.append_nil]
  | error e => rfl

/-- A run ends, and each check has added what it adds by itself. -/
theorem outcome_forM_runCheck {checks : List SharedCheck} {ks : List Check}
    (h : List.Forall₂ SharedCheck.Realizes checks ks) (hp : p.context.Intact ctx) :
    ∃ s, s.Intact ctx ∧ Session.outcome (checks.forM runCheck) p =
      (.ok (), ⟨s, p.findings ++ ks.flatMap (·.findings ctx), p.failures ++ ks.filterMap (·.failure? ctx)⟩) := by
  induction h generalizing p with
  | nil => exact ⟨p.context, hp, by simp; rfl⟩
  | @cons c k checks ks hc _ ih =>
    obtain ⟨s, hs, hfirst⟩ := outcome_runCheck hc hp
    obtain ⟨s', hs', hrest⟩ := ih (p := ⟨s, p.findings ++ k.findings ctx, p.failures ++ (k.failure? ctx).toList⟩) hs
    refine ⟨s', hs', ?_⟩
    change Session.outcome (runCheck c >>= fun _ => checks.forM runCheck) p = _
    rw [Session.outcome_bind, hfirst]
    change Session.outcome (checks.forM runCheck) _ = _
    rw [hrest]
    cases hk : k.failure? ctx <;> simp [hk]

/-- Checks on one context report what they report by themselves. -/
theorem analyze_eq_lintRules {checks : List SharedCheck} {ks : List Check}
    (h : List.Forall₂ SharedCheck.Realizes checks ks) (rules : List Rule) (start : Option Text) :
    analyze checks rules start = .ok (lintRules ks rules start) := by
  obtain ⟨s, hs, hrun⟩ := outcome_forM_runCheck h
    (p := { context := { toLintContext := .ofRules rules start } }) (intact_empty _)
  rw [analyze, hrun, lintRules, runChecks, ← hs.unchanged]
  rfl

end Run

end GrammarText
