import GrammarText.Layout.Words
import GrammarText.Rule.Basic

/-!
# Rendering a rule

A rule that fits into the width stands on one line. Otherwise each alternative begins a line of its
own, its bar under the last sign of the defining sign, so that the alternatives line up under the
first one. A single alternative is broken between words instead, and goes on in the column of its
first word.
-/

namespace GrammarText

/-- The choices of a layout. -/
structure LayoutOptions where
  /-- The width that a line should not exceed. -/
  width : Int := 100
  /-- End the document with a line feed. -/
  finalNewline : Bool := true
  /-- Remove the blanks at the ends of lines. -/
  trimLines : Bool := true
  /-- Keep a rule of several alternatives on one line if it fits. -/
  joinShort : Bool := true
  /-- The number of empty lines between rules. -/
  blankLines : Int := 1
deriving DecidableEq, Repr

/-- The beginning of a rule: its name and the defining sign. -/
def ruleHead (name : Text) : Text :=
  name ++ [' ', ':', ':', '=']

/-- What follows the first line's words: `used` columns are taken, and a line that is begun has `lead`
columns before its first word. The first list of the result goes on the current line. -/
def fillFrom (width : Int) (lead used : Nat) : List Text → List (List Text)
  | [] => [[]]
  | u :: us =>
    if (used + 1 + u.length : Nat) > width then
      [] :: (fillFrom width lead (lead + u.length) us).modifyHead (u :: ·)
    else (fillFrom width lead (used + 1 + u.length) us).modifyHead (u :: ·)

/-- The units spread over lines that begin in column `lead`: a unit goes on the current line if it
fits, and every line holds at least one. -/
def fill (width : Int) (lead : Nat) : List Text → List (List Text)
  | [] => []
  | u :: us => (fillFrom width lead (lead + u.length) us).modifyHead (u :: ·)

/-- The units of a soft wrap: the words, with the semicolon attached to the last. -/
def wrapUnits : List Text → List Text
  | [] => [[';']]
  | [w] => [w ++ [' ', ';']]
  | w :: ws => w :: wrapUnits ws

/-- Puts one text before the first line and another before each other line. -/
def leadLines (first other : Text) : List Text → List Text
  | [] => []
  | l :: ls => (first ++ l) :: ls.map (other ++ ·)

/-- A single alternative, broken between its units. -/
def wrapped (width : Int) (head : Text) (words : List Text) : Text :=
  let lead := head.length + 1
  let lines := (fill width lead (wrapUnits words)).map joinWords
  joinLines (leadLines (head ++ [' ']) (spaces lead) lines)

/-- The rule on one line. -/
def oneLine (head : Text) (words : List Text) : Text :=
  joinWords (head :: words ++ [[';']])

/-- The lines of one alternative, `sign` being what introduces it. -/
def alternativeLines (sign hanging : Text) : List (List Text) → List Text
  | [] => [sign]
  | lines => leadLines (sign ++ [' ']) hanging (lines.map joinWords)

/-- The lines of all alternatives, without the semicolon. -/
def blockLines (head : Text) (laidOut : List (List (List Text))) : List Text :=
  let bar := spaces (head.length - 1) ++ ['|']
  let hanging := spaces (head.length + 1)
  laidOut.zipIdx.flatMap fun (lines, index) =>
    alternativeLines (if index = 0 then head else bar) hanging lines

/-- One alternative after the other. The semicolon ends the last line, or has a line of its own if
the last line would swallow it. -/
def block (head : Text) (laidOut : List (List (List Text))) (swallows : Bool) : Text :=
  let lines := blockLines head laidOut
  joinLines <|
    if swallows then lines ++ [spaces (head.length + 1) ++ [';']]
    else lines.dropLast ++ [lines.getLast?.getD [] ++ [' ', ';']]

/-- The words of all alternatives, with the bars in between. -/
def barredWords (laidOut : List (List (List Text))) : List Text :=
  [['|']].intercalate (laidOut.map List.flatten)

/-- The body of a rule laid out. -/
def renderBody (o : LayoutOptions) (name : Text) (pieces : List (List Token)) : Text :=
  let head := ruleHead name
  let laidOut := pieces.map layoutLines
  let line := oneLine head (barredWords laidOut)
  let fits : Bool := (line.length : Int) ≤ o.width
  let swallows := (pieces.getLast?.map endsWithLineComment).getD false
  if pieces.any endsWithLineComment || laidOut.any (·.length > 1) then block head laidOut swallows
  else
    match laidOut with
    | [lines] => if fits then line else wrapped o.width head lines.flatten
    | _ => if fits && o.joinShort then line else block head laidOut swallows

/-- A rule laid out, after the comments before it. -/
def renderRule (o : LayoutOptions) (r : Rule) : Text :=
  r.comments.flatten ++ renderBody o r.name (splitBars 0 r.body)

/-- A rule laid out in the given width. -/
def render (r : Rule) (width : Int) : Text :=
  renderRule { width := width } r

end GrammarText
