/-
  LayeredAccess.Text.Hidden

  Characters that show nothing of their own: control and format characters,
  code points that are private or not assigned, all separators but the space,
  fillers, and marks that extend the character before them.
-/
import LayeredAccess.Text.Property

namespace LayeredAccess.Text

/-- The categories of characters that show nothing. -/
def hiddenCategories : List Category :=
  [.control, .format, .privateUse, .unassigned, .lineSeparator, .paragraphSeparator,
   .spaceSeparator]

/-- The space, and characters that show although the table of categories does not know them. -/
def shownRanges : Ranges :=
  Ranges.ofLines
    ["20 88F C5C CDC 20C1 2B96 A7CE-A7CF A7D2 A7D4 A7F1 FBC3-FBD2 FD90-FD91 FDC8-FDCE",
     "10940-10959 10EC5-10EC7 10ED0-10ED8 11B61 11B65 11B67 11DB0-11DDB 11DE0-11DE9",
     "16EA0-16EB8 16EBB-16ED3 16FF2-16FF6 187F8-187FF 18D09-18D1E 18D80-18DF2 1CCFA-1CCFC",
     "1CEBA-1CED0 1CEE0-1CEF0 1E6C0-1E6DE 1E6E0-1E6E2 1E6E4-1E6E5 1E6E7-1E6ED 1E6F0-1E6F4",
     "1E6FE-1E6FF 1F6D8 1F777-1F77A 1F8D0-1F8D8 1FA54-1FA57 1FA8A 1FA8E 1FAC8 1FACD 1FAEA",
     "1FAEF 1FBFA 2B73A-2B73F 2CEA2-2CEAD 323B0-33479"]

/-- Letters that fill a place without a mark of their own. -/
def fillerRanges : Ranges := [(0x115F, 0x1160), (0x3164, 0x3164), (0xFFA0, 0xFFA0)]

/-- All characters that show nothing of their own. -/
def hiddenRanges : Ranges :=
  Ranges.union
    (Ranges.diff (Category.setOf hiddenCategories) shownRanges)
    (Ranges.union (Property.setNamed "graphemeextend") fillerRanges)

/-- Does a character show nothing of its own? -/
def isHidden (c : Char) : Bool :=
  if c.toNat < 127 then c.toNat < 32 else hiddenRanges.contains c.toNat

end LayeredAccess.Text
