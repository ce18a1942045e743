import TemplateTidy.Text.Word

/-! # Characters of script names

A name in a script begins with a letter, a dollar sign, an underscore, a number sign or an at sign, and
goes on with letters, digits, dollar signs, underscores and combining marks.  Letters and marks are
those of the first plane. -/

namespace TemplateTidy.Code.Script

open Text

/-- Letters of the first plane that are too new for scripts. -/
def laterRanges : Array (Nat × Nat) := #[
  (0x37F, 0x37F), (0x528, 0x52F), (0x560, 0x560), (0x588, 0x588), (0x5EF, 0x5EF), (0x860, 0x86A),
  (0x870, 0x887), (0x889, 0x88E), (0x8A1, 0x8A1), (0x8AD, 0x8C9), (0x978, 0x978), (0x980, 0x980),
  (0x9FC, 0x9FC), (0xAF9, 0xAF9), (0xC34, 0xC34), (0xC5A, 0xC5A), (0xC5D, 0xC5D), (0xC80, 0xC80),
  (0xCDD, 0xCDD), (0xD04, 0xD04), (0xD54, 0xD56), (0xD5F, 0xD5F), (0xE86, 0xE86), (0xE89, 0xE89),
  (0xE8C, 0xE8C), (0xE8E, 0xE93), (0xE98, 0xE98), (0xEA0, 0xEA0), (0xEA8, 0xEA9), (0xEAC, 0xEAC),
  (0x13F5, 0x13F5), (0x13F8, 0x13FD), (0x16F1, 0x16F8), (0x170D, 0x170D), (0x171F, 0x171F),
  (0x1878, 0x1878), (0x191D, 0x191E), (0x19B0, 0x19C0), (0x19C8, 0x19C9), (0x1B4C, 0x1B4C),
  (0x1C80, 0x1C88), (0x1C90, 0x1CBA), (0x1CBD, 0x1CBF), (0x1CF2, 0x1CF3), (0x1CFA, 0x1CFA),
  (0x2C2F, 0x2C2F), (0x2C5F, 0x2C5F), (0x312E, 0x312F), (0x31BB, 0x31BF), (0x4DB6, 0x4DBF),
  (0x9FCD, 0x9FFF), (0xA698, 0xA69D), (0xA78F, 0xA78F), (0xA794, 0xA79F), (0xA7AB, 0xA7CA),
  (0xA7D0, 0xA7D1), (0xA7D3, 0xA7D3), (0xA7D5, 0xA7D9), (0xA7F2, 0xA7F7), (0xA8FD, 0xA8FE),
  (0xA9E0, 0xA9E4), (0xA9E6, 0xA9EF), (0xA9FA, 0xA9FE), (0xAA7E, 0xAA7F), (0xAB30, 0xAB5A),
  (0xAB5C, 0xAB69), (0xAB70, 0xABBF)]

/-- Marks, digits and connectors above 127, as closed ranges of code points. -/
def markRanges : Array (Nat × Nat) := #[
  (0x300, 0x36F), (0x483, 0x487), (0x591, 0x5BD), (0x5BF, 0x5BF), (0x5C1, 0x5C2), (0x5C4, 0x5C5),
  (0x5C7, 0x5C7), (0x610, 0x61A), (0x6E7, 0x6E8), (0x730, 0x74A), (0x81B, 0x823), (0x825, 0x827),
  (0x829, 0x82D), (0x8E4, 0x8FE), (0x900, 0x903), (0x93A, 0x93C), (0x93E, 0x94F), (0x951, 0x957),
  (0x962, 0x963), (0x966, 0x96F), (0x981, 0x983), (0x9BC, 0x9BC), (0x9BE, 0x9C4), (0x9C7, 0x9C8),
  (0x9D7, 0x9D7), (0xA01, 0xA03), (0xA3C, 0xA3C), (0xA3E, 0xA42), (0xA47, 0xA48), (0xA4B, 0xA4D),
  (0xA51, 0xA51), (0xA66, 0xA71), (0xA75, 0xA75), (0xA81, 0xA83), (0xABC, 0xABC), (0xABE, 0xAC5),
  (0xAC7, 0xAC9), (0xACB, 0xACD), (0xAE2, 0xAE3), (0xAE6, 0xAEF), (0xB01, 0xB03), (0xB3C, 0xB3C),
  (0xB3E, 0xB44), (0xB47, 0xB48), (0xB4B, 0xB4D), (0xB56, 0xB57), (0xB66, 0xB6F), (0xB82, 0xB82),
  (0xBBE, 0xBC2), (0xBC6, 0xBC8), (0xBCA, 0xBCD), (0xBD7, 0xBD7), (0xBE6, 0xBEF), (0xC01, 0xC03),
  (0xC46, 0xC48), (0xC4A, 0xC4D), (0xC55, 0xC56), (0xC62, 0xC63), (0xC66, 0xC6F), (0xC82, 0xC83),
  (0xCBC, 0xCBC), (0xCBE, 0xCC4), (0xCC6, 0xCC8), (0xCCA, 0xCCD), (0xCD5, 0xCD6), (0xCE2, 0xCE3),
  (0xCE6, 0xCEF), (0xD02, 0xD03), (0xD46, 0xD48), (0xD57, 0xD57), (0xD62, 0xD63), (0xD66, 0xD6F),
  (0xD82, 0xD83), (0xDCA, 0xDCA), (0xDCF, 0xDD4), (0xDD6, 0xDD6), (0xDD8, 0xDDF), (0xDF2, 0xDF3),
  (0xE34, 0xE3A), (0xE50, 0xE59), (0xEB4, 0xEB9), (0xEC8, 0xECD), (0xED0, 0xED9), (0xF18, 0xF19),
  (0xF20, 0xF29), (0xF35, 0xF35), (0xF37, 0xF37), (0xF39, 0xF39), (0xF71, 0xF84), (0xF86, 0xF87),
  (0xF8D, 0xF97), (0xF99, 0xFBC), (0xFC6, 0xFC6), (0x1040, 0x1049), (0x1067, 0x106D),
  (0x1071, 0x1074), (0x1082, 0x108D), (0x108F, 0x109D), (0x135D, 0x135F), (0x1772, 0x1773),
  (0x17DD, 0x17DD), (0x17E0, 0x17E9), (0x180B, 0x180D), (0x1810, 0x1819), (0x1920, 0x192B),
  (0x1930, 0x193B), (0x19B0, 0x19C0), (0x19C8, 0x19C9), (0x19D0, 0x19D9), (0x1A60, 0x1A7C),
  (0x1A7F, 0x1A89), (0x1A90, 0x1A99), (0x1B50, 0x1B59), (0x1B6B, 0x1B73), (0x1BB0, 0x1BB9),
  (0x1BE6, 0x1BF3), (0x1C40, 0x1C49), (0x1CD0, 0x1CD2), (0x200C, 0x200D), (0x203F, 0x2040),
  (0x2054, 0x2054), (0x20D0, 0x20DC), (0x20E1, 0x20E1), (0x20E5, 0x20F0), (0x2DE0, 0x2DFF),
  (0x3099, 0x309A), (0xA674, 0xA67D), (0xA69F, 0xA69F), (0xA6F0, 0xA6F1), (0xA806, 0xA806),
  (0xA80B, 0xA80B), (0xA823, 0xA827), (0xA880, 0xA881), (0xA8B4, 0xA8C4), (0xA8D0, 0xA8D9),
  (0xA900, 0xA909), (0xA926, 0xA92D), (0xA980, 0xA983), (0xA9B3, 0xA9C0), (0xAA4C, 0xAA4D),
  (0xAA50, 0xAA59), (0xAA7B, 0xAA7B), (0xABEC, 0xABED), (0xABF0, 0xABF9), (0xFE00, 0xFE0F),
  (0xFE20, 0xFE26), (0xFE33, 0xFE34), (0xFE4D, 0xFE4F), (0xFF10, 0xFF19), (0xFF3F, 0xFF3F)]

/-- Letters above 127, and two marks that once were letters. -/
def isLetter (n : Nat) : Bool :=
  n < 0x10000 && inRanges letterRanges n && !inRanges laterRanges n || n == 0x1885 || n == 0x1886

def beginsName (c : Char) : Bool :=
  if c.toNat < 128 then c.isAlpha || c == '$' || c == '_' || c == '#' || c == '@'
  else isLetter c.toNat

/-- A character that may stand inside a name. -/
def continuesName (c : Char) : Bool :=
  if c.toNat < 128 then c.isAlphanum || c == '$' || c == '_'
  else isLetter c.toNat || inRanges markRanges c.toNat

end TemplateTidy.Code.Script
