import TransitionSystems.Text.Basic

/-!
# Lines and words

Splitting a file into lines, a line into its part before a comment, and that part into words. Two
sets of blanks are at work: `trim` removes spaces, tabs, carriage returns and newlines, while words
are separated by every byte of `Text.isSpace`.
-/

namespace TransitionSystems.Text

/-- The blanks removed at both ends of a line. -/
def isBlank (byte : UInt8) : Bool :=
  byte == 32 || byte == 9 || byte == 13 || byte == 10

/-- The text without its trailing blanks. -/
def trimEnd (text : Text) : Text :=
  (text.reverse.dropWhile isBlank).reverse

/-- The text without its leading and trailing blanks. -/
def trim (text : Text) : Text :=
  trimEnd (text.dropWhile isBlank)

/-- The byte `#`, which starts a comment. -/
def commentMark : UInt8 := 35

/-- The trimmed part of a line before its comment. -/
def content (line : Text) : Text :=
  trim (line.takeWhile (· != commentMark))

/-- The maximal runs of bytes that are no spaces. -/
def words (text : Text) : List Text :=
  (text.splitOnP isSpace).filter (!·.isEmpty)

/-- The byte that ends a line. -/
def newline : UInt8 := 10

/-- A line without the carriage return at its end, if it has one. -/
def dropReturn (line : Text) : Text :=
  if line.getLast? == some 13 then line.dropLast else line

/-- The lines of a file: each ends at a newline or at the end of the file, and an empty rest after
the last newline is no line. -/
def lines (file : Text) : List Text :=
  let pieces := file.splitOnP (· == newline)
  let ended := if pieces.getLast? == some [] then pieces.dropLast else pieces
  ended.map dropReturn

end TransitionSystems.Text
