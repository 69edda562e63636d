import DocIndex.Text.Lower
import DocIndex.Text.Words

/-!
Cutting a text into terms with their positions. The standard way takes the runs of letters and
digits, drops the long ones, and lower-cases the others; a dropped run leaves a gap in the
positions.
-/

namespace DocIndex.Analysis

/-- A term of a text and its position. -/
structure Token where
  text : String
  position : Nat
deriving Repr, DecidableEq

/-- Runs of this many bytes and more are dropped. -/
def runBound : Nat := 40

/-- The runs of letters and digits with their positions. -/
def runs (text : String) : List (List Char × Nat) :=
  (Text.runsFrom Unicode.isAlphanumeric [] text.toList).zipIdx

def isShort (run : List Char) : Bool :=
  (String.ofList run).utf8ByteSize < runBound

def loweredRuns (text : String) : List (List Char × Nat) :=
  (runs text).filterMap fun (run, position) =>
    if isShort run then some (Text.lowerEach run, position) else none

def standard (text : String) : List Token :=
  (loweredRuns text).map fun (run, position) => ⟨String.ofList run, position⟩

def whole (text : String) : List Token :=
  [⟨text, 0⟩]

end DocIndex.Analysis
