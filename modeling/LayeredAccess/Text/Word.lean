/-
  LayeredAccess.Text.Word

  Which characters make up words and numbers: decimal digits of all scripts,
  and word characters, which are letters, marks, digits, letter numbers,
  connecting punctuation and joiners.
-/
import LayeredAccess.Text.Property

namespace LayeredAccess.Text

/-- The decimal digits. -/
def digitRanges : Ranges := Category.decimalNumber.set

/-- The characters of words. -/
def wordRanges : Ranges :=
  Ranges.union (Property.setNamed "alphabetic")
    (Ranges.union (Property.setNamed "joincontrol")
      (Category.setOf
        [.nonspacingMark, .spacingMark, .enclosingMark, .decimalNumber, .connectorPunctuation]))

/-- Letters and letter numbers, and all that is used like them. -/
def alphabeticRanges : Ranges := Property.setNamed "alphabetic"

/-- Numbers of any kind. -/
def numberRanges : Ranges := Category.setOf [.decimalNumber, .letterNumber, .otherNumber]

/-- Can a character be part of a word? -/
def isWord (c : Char) : Bool :=
  if c.toNat < 128 then c.isAlphanum || c = '_' else wordRanges.contains c.toNat

/-- Is a character a letter, or used like one? -/
def isAlphabetic (c : Char) : Bool :=
  if c.toNat < 128 then c.isAlpha else alphabeticRanges.contains c.toNat

/-- Is a character a letter or a number? -/
def isAlphanumeric (c : Char) : Bool :=
  isAlphabetic c || (if c.toNat < 128 then c.isDigit else numberRanges.contains c.toNat)

end LayeredAccess.Text
