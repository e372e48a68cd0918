import ScriptCell.Line.Eval
import ScriptCell.Text.Paint

/-!
# Showing an outcome

A value is shown as its literal with its kind behind it, a truth value by its word, and the views of
a value one under the other below it.
-/

namespace ScriptCell

/-- Numbers among the views: always positional, with the words `NaN` and `inf`. -/
def viewLayout : Layout := ⟨none, false, false, .up, "inf"⟩

/-- The word for a truth value in outcomes. -/
def truthWord (b : Bool) : String := if b then "true" else "false"

namespace Value

/-- A value with its kind behind it. -/
def render (v : Value) : String :=
  Colour.brightBlue.paint v.literal ++ " " ++ Colour.brightBlack.paint (": " ++ v.kind.name)

end Value

/-- A view, or the failure of it in angle brackets. -/
def renderView (view : Except Error String) : String :=
  match view with
  | .ok s => Colour.brightBlue.paint s
  | .error e => Colour.red.paint ("<" ++ e.message ++ ">")

/-- A view behind its name, on a line of its own. -/
def renderViewLine (name : String) (view : Except Error String) : String :=
  "\n  " ++ Colour.yellow.paint name ++ " " ++ renderView view

/-- What is shown for an outcome. -/
def Outcome.render : Outcome → String
  | .value v => v.render
  | .truth b => Colour.brightBlue.paint (truthWord b)
  | .views v =>
    v.render ++
      renderViewLine "number" (v.numberView.map viewLayout.text) ++
      renderViewLine "bool  " (v.truthView.map truthWord) ++
      renderViewLine "string" (v.textView.map quote)

end ScriptCell
