import GrammarText.Lint.Reference

/-!
# The dependency graph

The graph leads from every rule to the rules that it refers to. A name that is defined more than once
has the references of all its definitions. References to names that no rule has are kept apart.
`reachableFrom` follows the edges.
-/

namespace GrammarText

/-- A graph of names. Both tables are in the order in which their names first appear. -/
structure DependencyGraph where
  edges : List (Text × List Text) := []
  /-- The names that a rule refers to and no rule has. -/
  dangling : List (Text × List Text) := []
deriving DecidableEq, Repr

/-- The names that a name's definitions refer to and that pass the test, each once. -/
def referencesOf (rules : List Rule) (keep : Text → Bool) (name : Text) : List Text :=
  ((rules.filter (·.name == name)).flatMap fun r => (referencedNames r.body).filter keep).eraseDups

/-- Whether some rule has the name. -/
def isDefined (rules : List Rule) (name : Text) : Bool :=
  rules.any (·.name == name)

namespace DependencyGraph

/-- The graph of a list of rules. -/
def ofRules (rules : List Rule) : DependencyGraph :=
  let missing := fun n => !isDefined rules n
  { edges := (rules.map Rule.name).eraseDups.map fun n => (n, referencesOf rules (isDefined rules) n)
    dangling :=
      ((rules.filter fun r => (referencedNames r.body).any missing).map Rule.name).eraseDups.map
        fun n => (n, referencesOf rules missing n) }

/-- The rules that a rule refers to. -/
def dependencies (g : DependencyGraph) (name : Text) : List Text :=
  (g.edges.lookup name).getD []

/-- The undefined names that a rule refers to. -/
def danglingOf (g : DependencyGraph) (name : Text) : List Text :=
  (g.dangling.lookup name).getD []

/-- The number of rules with edges that have not been visited. -/
def unvisited (g : DependencyGraph) (visited : List Text) : Nat :=
  (g.edges.filter fun e => !visited.contains e.1).length

theorem unvisited_cons_le (g : DependencyGraph) (visited : List Text) (n : Text) :
    g.unvisited (n :: visited) ≤ g.unvisited visited := by
  simp only [unvisited, ← List.countP_eq_length_filter]
  refine List.countP_mono_left fun e _ h => ?_
  simp only [List.contains_cons, Bool.not_or, Bool.and_eq_true] at h
  exact h.2

theorem unvisited_cons_lt {g : DependencyGraph} {visited : List Text} {n : Text} {ns : List Text}
    (hn : visited.contains n = false) (h : g.edges.lookup n = some ns) :
    g.unvisited (n :: visited) < g.unvisited visited := by
  obtain ⟨edges, dangling⟩ := g
  have hmono : ∀ es : List (Text × List Text),
      (es.filter fun e => !(n :: visited).contains e.1).length ≤
        (es.filter fun e => !visited.contains e.1).length := fun es =>
    unvisited_cons_le ⟨es, []⟩ visited n
  simp only [unvisited] at h ⊢
  induction edges with
  | nil => cases h
  | cons e es ih =>
    obtain ⟨k, v⟩ := e
    by_cases hk : n = k
    · subst hk
      have hle := hmono es
      rw [List.filter_cons_of_neg (by simp), List.filter_cons_of_pos (by simpa using hn), List.length_cons]
      omega
    · have hlook : es.lookup n = some ns := by
        rwa [List.lookup_cons, show (n == k) = false by simpa using hk] at h
      have hlt := ih hlook
      by_cases hv : k ∈ visited
      · rw [List.filter_cons_of_neg (by simp [hv]), List.filter_cons_of_neg (by simp [hv])]
        exact hlt
      · rw [List.filter_cons_of_pos (by simp [hv, Ne.symm hk]), List.filter_cons_of_pos (by simp [hv])]
        simpa using hlt

/-- All names that can be reached from the visited and the waiting ones. Only names with edges add to
the waiting ones, and each does so once. -/
def visit (g : DependencyGraph) (visited : List Text) : List Text → List Text
  | [] => visited
  | n :: waiting =>
    if _hn : visited.contains n then visit g visited waiting
    else
      match _h : g.edges.lookup n with
      | some ns => visit g (n :: visited) (ns ++ waiting)
      | none => visit g (n :: visited) waiting
termination_by waiting => (g.unvisited visited, waiting.length)
decreasing_by
  · exact Prod.Lex.right _ (by simp)
  · exact Prod.Lex.left _ _ (unvisited_cons_lt (by simpa using _hn) _h)
  · rcases Nat.lt_or_eq_of_le (unvisited_cons_le g visited n) with hlt | heq
    · exact Prod.Lex.left _ _ hlt
    · rw [heq]; exact Prod.Lex.right _ (by simp)

/-- The names that can be reached from a name, itself included, each once. -/
def reachableFrom (g : DependencyGraph) (start : Text) : List Text :=
  g.visit [] [start]

end DependencyGraph

end GrammarText
