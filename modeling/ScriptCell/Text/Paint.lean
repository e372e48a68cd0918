/-!
# Coloured terminal text

Text between the escape sequences that switch a foreground colour or bold face on and off again.
-/

namespace ScriptCell

/-- The foreground colours of the terminal that are used. -/
inductive Colour where
  | red
  | green
  | yellow
  | cyan
  | brightBlack
  | brightBlue
  deriving DecidableEq

/-- The code that selects a foreground colour. -/
def Colour.code : Colour → String
  | .red => "31"
  | .green => "32"
  | .yellow => "33"
  | .cyan => "36"
  | .brightBlack => "90"
  | .brightBlue => "94"

/-- Text in a foreground colour; behind it the terminal's own colour is restored. -/
def Colour.paint (c : Colour) (s : String) : String :=
  "\x1b[" ++ c.code ++ "m" ++ s ++ "\x1b[39m"

/-- Text in bold face. -/
def bold (s : String) : String := "\x1b[1m" ++ s ++ "\x1b[0m"

end ScriptCell
