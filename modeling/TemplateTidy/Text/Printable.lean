import TemplateTidy.Text.Word

/-! # Printable characters

A character is printable unless it is a control or format character, a separator other than the
plain space, private, or unassigned.  Quoted text shows the others by their code points. -/

namespace TemplateTidy.Text

/-- Closed ranges above 127 that hold all printable characters but those of words, and only printable
ones. -/
def signRanges : Array (Nat × Nat) := #[
  (0xA1, 0xAC), (0xAE, 0x375), (0x37E, 0x37E), (0x384, 0x387), (0x3F6, 0x482), (0x55A, 0x58A),
  (0x58D, 0x58F), (0x5BE, 0x5C6), (0x5F3, 0x5F4), (0x606, 0x61B), (0x61D, 0x6D4), (0x6DE, 0x70D),
  (0x7F6, 0x7F9), (0x7FE, 0x7FF), (0x830, 0x83E), (0x85E, 0x85E), (0x888, 0x888), (0x964, 0x970),
  (0x9F2, 0x9FD), (0xA76, 0xA76), (0xAF0, 0xAF1), (0xB70, 0xB77), (0xBF0, 0xBFA), (0xC77, 0xC84),
  (0xD4F, 0xD4F), (0xD58, 0xD5E), (0xD70, 0xD79), (0xDF4, 0xDF4), (0xE3F, 0xE5B), (0xF01, 0xF3D),
  (0xF85, 0xF85), (0xFBE, 0xFCC), (0xFCE, 0xFDA), (0x104A, 0x109F), (0x10FB, 0x10FB),
  (0x1360, 0x137C), (0x1390, 0x1399), (0x1400, 0x166E), (0x169B, 0x169C), (0x16EB, 0x16ED),
  (0x1735, 0x1736), (0x17D4, 0x17DB), (0x17F0, 0x17F9), (0x1800, 0x180A), (0x1940, 0x1940),
  (0x1944, 0x1945), (0x19DA, 0x19DA), (0x19DE, 0x19FF), (0x1A1E, 0x1A1F), (0x1AA0, 0x1AAD),
  (0x1B5A, 0x1B7E), (0x1BFC, 0x1BFF), (0x1C3B, 0x1C3F), (0x1C7E, 0x1C7F), (0x1CC0, 0x1CC7),
  (0x1CD3, 0x1CD3), (0x1FBD, 0x1FC1), (0x1FCD, 0x1FCF), (0x1FDD, 0x1FEF), (0x1FFD, 0x1FFE),
  (0x2010, 0x2027), (0x2030, 0x205E), (0x2070, 0x2070), (0x2074, 0x208E), (0x20A0, 0x20C0),
  (0x2100, 0x218B), (0x2190, 0x2426), (0x2440, 0x244A), (0x2460, 0x2B73), (0x2B76, 0x2B95),
  (0x2B97, 0x2CEA), (0x2CF9, 0x2CFF), (0x2D70, 0x2D70), (0x2E00, 0x2E5D), (0x2E80, 0x2E99),
  (0x2E9B, 0x2EF3), (0x2F00, 0x2FD5), (0x2FF0, 0x2FFB), (0x3001, 0x303F), (0x309B, 0x30FB),
  (0x3190, 0x31E3), (0x3200, 0x321E), (0x3220, 0x4DFF), (0xA490, 0xA4C6), (0xA4FE, 0xA60F),
  (0xA673, 0xA6F7), (0xA700, 0xA78A), (0xA828, 0xA82B), (0xA830, 0xA839), (0xA874, 0xA877),
  (0xA8CE, 0xA8CF), (0xA8F8, 0xA92F), (0xA95F, 0xA95F), (0xA9C1, 0xA9CD), (0xA9DE, 0xA9DF),
  (0xAA5C, 0xAA79), (0xAADE, 0xAAF1), (0xAB5B, 0xAB6B), (0xABEB, 0xABEB), (0xFB29, 0xFB29),
  (0xFBB2, 0xFBC2), (0xFD3E, 0xFD4F), (0xFDCF, 0xFDCF), (0xFDFC, 0xFE19), (0xFE30, 0xFE52),
  (0xFE54, 0xFE66), (0xFE68, 0xFE6B), (0xFF01, 0xFF65), (0xFFE0, 0xFFE6), (0xFFE8, 0xFFEE),
  (0xFFFC, 0xFFFD), (0x10100, 0x10102), (0x10107, 0x10133), (0x10137, 0x1018E), (0x10190, 0x1019C),
  (0x101A0, 0x101A0), (0x101D0, 0x101FC), (0x102E1, 0x102FB), (0x10320, 0x10323),
  (0x1039F, 0x1039F), (0x103D0, 0x103D0), (0x1056F, 0x1056F), (0x10857, 0x1087F),
  (0x108A7, 0x108AF), (0x108FB, 0x1091B), (0x1091F, 0x1091F), (0x1093F, 0x1093F),
  (0x109BC, 0x109CF), (0x109D2, 0x109FF), (0x10A40, 0x10A48), (0x10A50, 0x10A58),
  (0x10A7D, 0x10A9F), (0x10AC8, 0x10AC8), (0x10AEB, 0x10AF6), (0x10B39, 0x10B3F),
  (0x10B58, 0x10B5F), (0x10B78, 0x10B7F), (0x10B99, 0x10B9C), (0x10BA9, 0x10BAF),
  (0x10CFA, 0x10CFF), (0x10E60, 0x10E7E), (0x10EAD, 0x10EAD), (0x10F1D, 0x10F26),
  (0x10F51, 0x10F59), (0x10F86, 0x10F89), (0x10FC5, 0x10FCB), (0x11047, 0x1104D),
  (0x11052, 0x11065), (0x110BB, 0x110BC), (0x110BE, 0x110C1), (0x11140, 0x11143),
  (0x11174, 0x11175), (0x111C5, 0x111DF), (0x111E1, 0x111F4), (0x11238, 0x1123D),
  (0x112A9, 0x112A9), (0x1144B, 0x1145B), (0x1145D, 0x1145D), (0x114C6, 0x114C6),
  (0x115C1, 0x115D7), (0x11641, 0x11643), (0x11660, 0x1166C), (0x116B9, 0x116B9),
  (0x1173A, 0x1173F), (0x1183B, 0x1183B), (0x118EA, 0x118F2), (0x11944, 0x11946),
  (0x119E2, 0x119E2), (0x11A3F, 0x11A46), (0x11A9A, 0x11AA2), (0x11C41, 0x11C45),
  (0x11C5A, 0x11C6C), (0x11C70, 0x11C71), (0x11EF7, 0x11EF8), (0x11FC0, 0x11FF1),
  (0x11FFF, 0x11FFF), (0x12470, 0x12474), (0x12FF1, 0x12FF2), (0x16A6E, 0x16A6F),
  (0x16AF5, 0x16AF5), (0x16B37, 0x16B45), (0x16B5B, 0x16B61), (0x16E80, 0x16E9A),
  (0x16FE2, 0x16FE2), (0x1BC9C, 0x1BC9F), (0x1CF50, 0x1CFC3), (0x1D000, 0x1D0F5),
  (0x1D100, 0x1D126), (0x1D129, 0x1D16C), (0x1D183, 0x1D1EA), (0x1D200, 0x1D245),
  (0x1D2E0, 0x1D2F3), (0x1D300, 0x1D356), (0x1D360, 0x1D378), (0x1D6C1, 0x1D7C3),
  (0x1D800, 0x1DA8B), (0x1E14F, 0x1E14F), (0x1E2FF, 0x1E2FF), (0x1E8C7, 0x1E8CF),
  (0x1E95E, 0x1E95F), (0x1EC71, 0x1ECB4), (0x1ED01, 0x1ED3D), (0x1EEF0, 0x1EEF1),
  (0x1F000, 0x1F02B), (0x1F030, 0x1F093), (0x1F0A0, 0x1F0AE), (0x1F0B1, 0x1F0BF),
  (0x1F0C1, 0x1F0CF), (0x1F0D1, 0x1F0F5), (0x1F100, 0x1F1AD), (0x1F1E6, 0x1F202),
  (0x1F210, 0x1F23B), (0x1F240, 0x1F248), (0x1F250, 0x1F251), (0x1F260, 0x1F265),
  (0x1F300, 0x1F6D7), (0x1F6DD, 0x1F6EC), (0x1F6F0, 0x1F6FC), (0x1F700, 0x1F773),
  (0x1F780, 0x1F7D8), (0x1F7E0, 0x1F7EB), (0x1F7F0, 0x1F7F0), (0x1F800, 0x1F80B),
  (0x1F810, 0x1F847), (0x1F850, 0x1F859), (0x1F860, 0x1F887), (0x1F890, 0x1F8AD),
  (0x1F8B0, 0x1F8B1), (0x1F900, 0x1FA53), (0x1FA60, 0x1FA6D), (0x1FA70, 0x1FA74),
  (0x1FA78, 0x1FA7C), (0x1FA80, 0x1FA86), (0x1FA90, 0x1FAAC), (0x1FAB0, 0x1FABA),
  (0x1FAC0, 0x1FAC5), (0x1FAD0, 0x1FAD9), (0x1FAE0, 0x1FAE7), (0x1FAF0, 0x1FAF6),
  (0x1FB00, 0x1FB92), (0x1FB94, 0x1FBCA)]

/-- Closed ranges above 127 that hold the joiners and those characters of words that are too new to be
printable. -/
def unprintableRanges : Array (Nat × Nat) := #[
  (0xCF3, 0xCF3), (0xECE, 0xECE), (0x200C, 0x200D), (0x10EFD, 0x10EFF), (0x1123F, 0x11241),
  (0x11F00, 0x11F59), (0x1342F, 0x13455), (0x1B132, 0x1B132), (0x1B155, 0x1B155),
  (0x1DF25, 0x1DF2A), (0x1E030, 0x1E08F), (0x1E4D0, 0x1E4F9), (0x2B739, 0x2B739),
  (0x2EBF0, 0x2EE5D), (0x31350, 0x323AF)]

/-- A character that quoted text shows as it is. -/
def isPrintable (c : Char) : Bool :=
  if c.toNat < 128 then 32 ≤ c.toNat && c.toNat < 127
  else inRanges signRanges c.toNat || isWord c && !inRanges unprintableRanges c.toNat

end TemplateTidy.Text
