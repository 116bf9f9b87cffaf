import ComputedFields.Yaml.Spot

namespace ComputedFields.Yaml

/-- The blanks and line ends between two words of a scalar. Blanks count only up to the first line end, which is kept
apart from the others. -/
structure Fold where
  blanks : List Char := []
  broken : Bool := false
  first : List Char := []
  others : List Char := []

namespace Fold

def isEmpty (fold : Fold) : Bool := fold.blanks.isEmpty && !fold.broken

def add (fold : Fold) (c : Char) : Fold :=
  if isBlank c then
    if fold.broken then fold else { fold with blanks := fold.blanks ++ [c] }
  else if fold.broken then { fold with others := fold.others ++ [c] }
  else { blanks := [], broken := true, first := [c], others := [] }

/-- What the reader sees of it: the blanks on a line, one blank for a single line feed, otherwise the line ends without
the first line feed. -/
def text (fold : Fold) : List Char :=
  if !fold.broken then fold.blanks
  else if fold.first == ['\n'] then
    if fold.others.isEmpty then [' '] else fold.others
  else fold.first ++ fold.others

/-- A line end that was escaped leaves no trace. -/
def escapedBreak : Fold := { broken := true }

end Fold

/-- The text before, the latest character first, followed by a fold and one more character. -/
def extend (done : List Char) (fold : Fold) (c : Char) : List Char := c :: (fold.text.reverse ++ done)

end ComputedFields.Yaml
