/-!
# Tables of code points

A set of code points as an increasing list of runs, the form in which character properties are kept.
-/

namespace GrammarText

/-- A text is a sequence of characters; positions and lengths count characters. -/
abbrev Text := List Char

/-- Whether `n` lies in one of the runs, each given by its first and its last code point. The runs
increase, so the search ends at the first run that does not lie wholly below `n`. -/
def inRuns : List (Nat × Nat) → Nat → Bool
  | [], _ => false
  | (first, last) :: runs, n => if last < n then inRuns runs n else first ≤ n

/-- Whether `n` lies in one of the runs, each given by its first and its last code point and the step
between its members. -/
def inSteppedRuns : List (Nat × Nat × Nat) → Nat → Bool
  | [], _ => false
  | (first, last, step) :: runs, n =>
    if last < n then inSteppedRuns runs n else first ≤ n && (n - first) % step == 0

end GrammarText
