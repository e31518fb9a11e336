/-!
# Texts

All names, model lines and reports are byte texts: lengths, columns, orders and character classes
count bytes, and only ASCII bytes belong to a class.
-/

namespace TransitionSystems

/-- A text is the list of its bytes. -/
abbrev Text := List UInt8

namespace Text

/-- The UTF-8 bytes of a string. -/
def ofString (string : String) : Text :=
  string.toByteArray.data.toList

instance : Coe String Text := ⟨ofString⟩

/-- The decimal digits of a natural number. -/
def ofNat (number : Nat) : Text :=
  (Nat.toDigits 10 number).map Char.toUInt8

/-- The decimal digits of an integer, after a minus sign when it is negative. -/
def ofInt : Int → Text
  | .ofNat number => ofNat number
  | .negSucc number => "-" ++ ofNat (number + 1)

/-- The texts in order with a separator between neighbours. -/
def join (separator : Text) (texts : List Text) : Text :=
  separator.intercalate texts

/-- The texts between braces, separated by a comma and a space. -/
def braced (texts : List Text) : Text :=
  "\x7b" ++ join ", " texts ++ "\x7d"

/-- Space, tab, newline, vertical tab, form feed and carriage return. -/
def isSpace (byte : UInt8) : Bool :=
  byte == 32 || 9 ≤ byte && byte ≤ 13

/-- The ASCII letters. -/
def isAlpha (byte : UInt8) : Bool :=
  65 ≤ byte && byte ≤ 90 || 97 ≤ byte && byte ≤ 122

/-- The ASCII digits. -/
def isDigit (byte : UInt8) : Bool :=
  48 ≤ byte && byte ≤ 57

end Text

end TransitionSystems
