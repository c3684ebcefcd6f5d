import XBase.Text.Class

/-!
# Lowercase

Names are compared by their lowercase form. Every character has a lowercase form of its own
except the capital sigma, which has two: at the end of a word it becomes the final sigma.
-/

namespace XBase.Text

/-- A run of capitals: from `first` to `last` every `step`-th character moves by `shift`. -/
structure CaseRun where
  first : Nat
  last : Nat
  step : Nat
  shift : Int

def CaseRun.one (n : Nat) (shift : Int) : CaseRun :=
  ⟨n, n, 1, shift⟩

/-- Capitals that take turns with what they become. -/
def CaseRun.pairs (first last : Nat) : CaseRun :=
  ⟨first, last, 2, 1⟩

def CaseRun.holds (run : CaseRun) (n : Nat) : Bool :=
  run.first ≤ n && n ≤ run.last && (n - run.first) % run.step == 0

/-- Capitals beyond ASCII, up to U+0FFF. -/
def capitalsLow : List CaseRun :=
  [⟨0xC0, 0xD6, 1, 32⟩, ⟨0xD8, 0xDE, 1, 32⟩, .pairs 0x100 0x12E, .pairs 0x132 0x136,
   .pairs 0x139 0x147, .pairs 0x14A 0x176, .one 0x178 (-121), .pairs 0x179 0x17D, .one 0x181 210,
   .pairs 0x182 0x184, .one 0x186 206, .one 0x187 1, ⟨0x189, 0x18A, 1, 205⟩, .one 0x18B 1,
   .one 0x18E 79, .one 0x18F 202, .one 0x190 203, .one 0x191 1, .one 0x193 205, .one 0x194 207,
   .one 0x196 211, .one 0x197 209, .one 0x198 1, .one 0x19C 211, .one 0x19D 213, .one 0x19F 214,
   .pairs 0x1A0 0x1A4, .one 0x1A6 218, .one 0x1A7 1, .one 0x1A9 218, .one 0x1AC 1, .one 0x1AE 218,
   .one 0x1AF 1, ⟨0x1B1, 0x1B2, 1, 217⟩, .pairs 0x1B3 0x1B5, .one 0x1B7 219, .one 0x1B8 1,
   .one 0x1BC 1, .one 0x1C4 2, .one 0x1C5 1, .one 0x1C7 2, .one 0x1C8 1, .one 0x1CA 2,
   .pairs 0x1CB 0x1DB, .pairs 0x1DE 0x1EE, .one 0x1F1 2, .pairs 0x1F2 0x1F4, .one 0x1F6 (-97),
   .one 0x1F7 (-56), .pairs 0x1F8 0x21E, .one 0x220 (-130), .pairs 0x222 0x232, .one 0x23A 10795,
   .one 0x23B 1, .one 0x23D (-163), .one 0x23E 10792, .one 0x241 1, .one 0x243 (-195),
   .one 0x244 69, .one 0x245 71, .pairs 0x246 0x24E, .pairs 0x370 0x372, .one 0x376 1,
   .one 0x37F 116, .one 0x386 38, ⟨0x388, 0x38A, 1, 37⟩, .one 0x38C 64, ⟨0x38E, 0x38F, 1, 63⟩,
   ⟨0x391, 0x3A1, 1, 32⟩, ⟨0x3A3, 0x3AB, 1, 32⟩, .one 0x3CF 8, .pairs 0x3D8 0x3EE, .one 0x3F4 (-60),
   .one 0x3F7 1, .one 0x3F9 (-7), .one 0x3FA 1, ⟨0x3FD, 0x3FF, 1, -130⟩, ⟨0x400, 0x40F, 1, 80⟩,
   ⟨0x410, 0x42F, 1, 32⟩, .pairs 0x460 0x480, .pairs 0x48A 0x4BE, .one 0x4C0 15, .pairs 0x4C1 0x4CD,
   .pairs 0x4D0 0x52E, ⟨0x531, 0x556, 1, 48⟩]

def capitalsHigh : List CaseRun :=
  [⟨0x10A0, 0x10C5, 1, 7264⟩, .one 0x10C7 7264, .one 0x10CD 7264, ⟨0x13A0, 0x13EF, 1, 38864⟩,
   ⟨0x13F0, 0x13F5, 1, 8⟩, .one 0x1C89 1, ⟨0x1C90, 0x1CBA, 1, -3008⟩, ⟨0x1CBD, 0x1CBF, 1, -3008⟩,
   .pairs 0x1E00 0x1E94, .one 0x1E9E (-7615), .pairs 0x1EA0 0x1EFE, ⟨0x1F08, 0x1F0F, 1, -8⟩,
   ⟨0x1F18, 0x1F1D, 1, -8⟩, ⟨0x1F28, 0x1F2F, 1, -8⟩, ⟨0x1F38, 0x1F3F, 1, -8⟩,
   ⟨0x1F48, 0x1F4D, 1, -8⟩, ⟨0x1F59, 0x1F5F, 2, -8⟩, ⟨0x1F68, 0x1F6F, 1, -8⟩,
   ⟨0x1F88, 0x1F8F, 1, -8⟩, ⟨0x1F98, 0x1F9F, 1, -8⟩, ⟨0x1FA8, 0x1FAF, 1, -8⟩,
   ⟨0x1FB8, 0x1FB9, 1, -8⟩, ⟨0x1FBA, 0x1FBB, 1, -74⟩, .one 0x1FBC (-9), ⟨0x1FC8, 0x1FCB, 1, -86⟩,
   .one 0x1FCC (-9), ⟨0x1FD8, 0x1FD9, 1, -8⟩, ⟨0x1FDA, 0x1FDB, 1, -100⟩, ⟨0x1FE8, 0x1FE9, 1, -8⟩,
   ⟨0x1FEA, 0x1FEB, 1, -112⟩, .one 0x1FEC (-7), ⟨0x1FF8, 0x1FF9, 1, -128⟩,
   ⟨0x1FFA, 0x1FFB, 1, -126⟩, .one 0x1FFC (-9), .one 0x2126 (-7517), .one 0x212A (-8383),
   .one 0x212B (-8262), .one 0x2132 28, ⟨0x2160, 0x216F, 1, 16⟩, .one 0x2183 1,
   ⟨0x24B6, 0x24CF, 1, 26⟩, ⟨0x2C00, 0x2C2F, 1, 48⟩, .one 0x2C60 1, .one 0x2C62 (-10743),
   .one 0x2C63 (-3814), .one 0x2C64 (-10727), .pairs 0x2C67 0x2C6B, .one 0x2C6D (-10780),
   .one 0x2C6E (-10749), .one 0x2C6F (-10783), .one 0x2C70 (-10782), .one 0x2C72 1, .one 0x2C75 1,
   ⟨0x2C7E, 0x2C7F, 1, -10815⟩, .pairs 0x2C80 0x2CE2, .pairs 0x2CEB 0x2CED, .one 0x2CF2 1,
   .pairs 0xA640 0xA66C, .pairs 0xA680 0xA69A, .pairs 0xA722 0xA72E, .pairs 0xA732 0xA76E,
   .pairs 0xA779 0xA77B, .one 0xA77D (-35332), .pairs 0xA77E 0xA786, .one 0xA78B 1,
   .one 0xA78D (-42280), .pairs 0xA790 0xA792, .pairs 0xA796 0xA7A8, .one 0xA7AA (-42308),
   .one 0xA7AB (-42319), .one 0xA7AC (-42315), .one 0xA7AD (-42305), .one 0xA7AE (-42308),
   .one 0xA7B0 (-42258), .one 0xA7B1 (-42282), .one 0xA7B2 (-42261), .one 0xA7B3 928,
   .pairs 0xA7B4 0xA7C2, .one 0xA7C4 (-48), .one 0xA7C5 (-42307), .one 0xA7C6 (-35384),
   .pairs 0xA7C7 0xA7C9, .one 0xA7CB (-42343), .one 0xA7CC 1, .one 0xA7D0 1, .pairs 0xA7D6 0xA7DA,
   .one 0xA7DC (-42561), .one 0xA7F5 1, ⟨0xFF21, 0xFF3A, 1, 32⟩, ⟨0x10400, 0x10427, 1, 40⟩,
   ⟨0x104B0, 0x104D3, 1, 40⟩, ⟨0x10570, 0x10594, 2, 39⟩, ⟨0x10571, 0x10579, 2, 39⟩,
   ⟨0x1057D, 0x10589, 2, 39⟩, ⟨0x1058D, 0x10591, 2, 39⟩, .one 0x10595 39, ⟨0x10C80, 0x10CB2, 1, 64⟩,
   ⟨0x10D50, 0x10D65, 1, 32⟩, ⟨0x118A0, 0x118BF, 1, 32⟩, ⟨0x16E40, 0x16E5F, 1, 32⟩,
   ⟨0x1E900, 0x1E921, 1, 34⟩]

/-- Characters beyond ASCII that case ignores, up to U+0FFF: marks, modifiers, format characters. -/
def ignoredLow : Ranges :=
  [168, 1, 4, 1, 1, 1, 4, 1, 2, 2, 503, 192, 4, 2, 4, 1, 9, 2, 1, 1, 251, 7, 207, 1, 5, 1, 49, 45,
   1, 1, 1, 2, 1, 2, 1, 1, 44, 1, 11, 6, 10, 11, 1, 1, 35, 1, 10, 21, 16, 1, 101, 8, 1, 10, 1, 4,
   33, 1, 1, 1, 30, 27, 91, 11, 58, 11, 4, 1, 2, 1, 24, 24, 43, 3, 44, 1, 7, 2, 5, 9, 41, 58, 55, 1,
   1, 1, 4, 8, 4, 1, 3, 7, 10, 2, 13, 1, 15, 1, 58, 1, 4, 4, 8, 1, 20, 2, 26, 1, 2, 2, 57, 1, 4, 2,
   4, 2, 2, 3, 3, 1, 30, 2, 3, 1, 11, 2, 57, 1, 4, 5, 1, 2, 4, 1, 20, 2, 22, 6, 1, 1, 58, 1, 2, 1,
   1, 4, 8, 1, 7, 2, 11, 2, 30, 1, 61, 1, 12, 1, 50, 1, 3, 1, 55, 1, 1, 3, 5, 3, 1, 4, 7, 2, 11, 2,
   29, 1, 58, 1, 2, 1, 6, 1, 5, 2, 20, 2, 28, 2, 57, 2, 4, 4, 8, 1, 20, 2, 29, 1, 72, 1, 7, 3, 1, 1,
   90, 1, 2, 7, 11, 9, 98, 1, 2, 9, 9, 1, 1, 7, 73, 2, 27, 1, 1, 1, 1, 1, 55, 14, 1, 5, 1, 2, 5, 11,
   1, 36, 9, 1]

def ignoredHigh : Ranges :=
  [102, 4, 1, 6, 1, 2, 2, 2, 25, 2, 4, 3, 16, 4, 13, 1, 2, 2, 6, 1, 15, 1, 94, 1, 608, 3, 946, 3,
   29, 2, 30, 2, 30, 2, 64, 2, 1, 7, 8, 1, 2, 11, 3, 1, 5, 1, 45, 5, 51, 1, 65, 2, 34, 1, 118, 3, 4,
   2, 9, 1, 6, 3, 219, 2, 2, 1, 58, 1, 1, 7, 1, 1, 1, 1, 2, 8, 6, 10, 2, 1, 39, 1, 8, 31, 49, 4, 48,
   1, 1, 5, 1, 1, 5, 1, 40, 9, 12, 2, 32, 4, 2, 2, 1, 3, 56, 1, 1, 2, 3, 1, 1, 3, 58, 8, 2, 2, 64,
   6, 82, 3, 1, 13, 1, 7, 4, 1, 6, 1, 3, 2, 50, 63, 13, 1, 34, 101, 445, 1, 1, 3, 11, 3, 13, 3, 13,
   3, 13, 2, 12, 5, 8, 2, 10, 1, 2, 1, 2, 5, 49, 5, 1, 10, 1, 1, 13, 1, 16, 13, 51, 33, 2955, 2,
   113, 3, 125, 1, 15, 1, 96, 32, 47, 1, 469, 1, 36, 4, 3, 5, 5, 1, 93, 6, 93, 3, 28438, 1, 1250, 6,
   270, 1, 98, 4, 1, 10, 1, 1, 28, 4, 80, 2, 14, 34, 78, 1, 23, 3, 103, 3, 3, 2, 8, 1, 3, 1, 4, 1,
   25, 2, 5, 1, 151, 2, 26, 18, 13, 1, 38, 8, 25, 11, 46, 3, 48, 1, 2, 4, 2, 2, 17, 1, 21, 2, 66, 6,
   2, 2, 2, 2, 12, 1, 8, 1, 35, 1, 11, 1, 51, 1, 1, 3, 2, 2, 5, 2, 1, 1, 27, 1, 14, 2, 5, 2, 1, 1,
   100, 5, 9, 3, 121, 1, 2, 1, 4, 1, 20272, 1, 147, 17, 573, 16, 3, 1, 12, 16, 34, 1, 2, 1, 169, 1,
   7, 1, 6, 1, 11, 1, 35, 1, 1, 1, 47, 1, 45, 2, 67, 1, 21, 3, 513, 1, 226, 1, 149, 5, 1029, 6, 1,
   42, 1, 9, 582, 3, 1, 2, 5, 4, 40, 3, 4, 1, 165, 2, 573, 4, 38, 1, 26, 5, 1, 1, 315, 2, 79, 4, 70,
   11, 49, 4, 123, 1, 54, 15, 41, 1, 2, 2, 10, 3, 49, 4, 2, 2, 2, 1, 4, 1, 10, 1, 50, 3, 36, 5, 1,
   8, 62, 1, 12, 2, 52, 9, 10, 4, 2, 1, 95, 3, 2, 1, 1, 2, 6, 1, 2, 1, 157, 1, 3, 8, 21, 2, 57, 2,
   3, 1, 37, 7, 3, 5, 195, 8, 2, 3, 1, 1, 23, 1, 84, 6, 1, 1, 4, 2, 1, 2, 238, 4, 6, 2, 1, 2, 27, 2,
   85, 8, 2, 1, 1, 2, 106, 1, 1, 1, 2, 6, 1, 1, 101, 3, 2, 4, 1, 5, 259, 9, 1, 2, 256, 2, 1, 1, 4,
   1, 144, 4, 2, 2, 4, 1, 32, 10, 40, 6, 2, 4, 8, 1, 9, 6, 2, 3, 46, 13, 1, 2, 406, 7, 1, 6, 1, 1,
   82, 22, 2, 7, 1, 2, 1, 2, 122, 6, 3, 1, 1, 2, 1, 7, 1, 1, 72, 2, 3, 1, 1, 1, 347, 2, 11, 2, 52,
   5, 5, 1, 1, 1, 5357, 17, 6, 15, 13978, 5, 59, 7, 9, 4, 1035, 1, 63, 17, 64, 2, 1, 2, 16395, 4, 1,
   7, 1, 2, 3230, 2, 1, 4, 4700, 46, 2, 23, 544, 3, 9, 16, 2, 7, 30, 4, 148, 3, 1979, 55, 4, 50, 8,
   1, 14, 1, 22, 5, 1, 15, 1360, 7, 1, 17, 2, 7, 1, 2, 1, 5, 5, 62, 33, 1, 160, 14, 368, 1, 61, 4,
   507, 5, 992, 7, 109, 8, 2735, 5, 789505, 1, 30, 96, 128, 240]

/-- Characters beyond ASCII that have a case and that case does not ignore. -/
def casedRanges : Ranges :=
  [170, 1, 10, 1, 4, 1, 5, 23, 1, 31, 1, 195, 1, 4, 4, 208, 1, 27, 192, 4, 2, 2, 3, 3, 1, 1, 6, 1,
   1, 3, 1, 1, 1, 20, 1, 83, 1, 139, 8, 166, 1, 38, 9, 41, 2839, 38, 1, 1, 5, 1, 2, 43, 2, 3, 672,
   86, 2, 6, 2178, 11, 5, 43, 2, 3, 64, 44, 63, 13, 1, 34, 101, 278, 2, 6, 2, 38, 2, 6, 2, 8, 1, 1,
   1, 1, 1, 1, 1, 31, 2, 53, 1, 7, 1, 1, 3, 3, 1, 7, 3, 4, 2, 6, 4, 13, 5, 3, 1, 7, 261, 1, 4, 1, 2,
   10, 1, 1, 3, 5, 6, 1, 1, 1, 1, 1, 1, 4, 1, 6, 4, 1, 2, 4, 5, 5, 4, 1, 17, 32, 3, 2, 817, 52,
   1814, 124, 2, 103, 6, 4, 3, 2, 12, 38, 1, 1, 5, 1, 30994, 46, 18, 28, 134, 78, 1, 23, 3, 4, 1,
   62, 2, 2, 1, 1, 1, 8, 24, 2, 3, 1, 821, 43, 5, 9, 7, 80, 20288, 7, 12, 5, 1033, 26, 6, 26, 1189,
   80, 96, 36, 4, 36, 116, 11, 1, 15, 1, 7, 1, 2, 1, 11, 1, 15, 1, 7, 1, 2, 1731, 51, 13, 51, 93,
   22, 10, 22, 2842, 64, 21856, 64, 25984, 85, 1, 71, 1, 2, 2, 1, 2, 2, 2, 4, 1, 12, 1, 1, 1, 7, 1,
   65, 1, 4, 2, 8, 1, 7, 1, 28, 1, 4, 1, 5, 1, 1, 3, 7, 1, 340, 2, 25, 1, 25, 1, 31, 1, 25, 1, 31,
   1, 25, 1, 31, 1, 25, 1, 31, 1, 25, 1, 8, 1844, 10, 1, 20, 6, 6, 2517, 68, 2028, 26, 6, 26, 6, 26]

/-- The lowercase form of one character, the capital sigma taken alone. The dotted capital I is the
only character whose lowercase form has two characters. -/
def lowerChar (c : Char) : List Char :=
  if c.toNat < 128 then [c.toLower]
  else if c.toNat = 0x130 then ['i', Char.ofNat 0x307]
  else
    match (capitalsLow ++ capitalsHigh).find? (·.holds c.toNat) with
    | some run => [Char.ofNat (c.toNat + run.shift).toNat]
    | none => [c]

/-- Whether case skips `c` when it looks for the end of a word. -/
def isCaseIgnored (c : Char) : Bool :=
  if c.toNat < 128 then
    c.toNat == 0x27 || c == '.' || c == ':' || c == '^' || c.toNat == 0x60
  else (ignoredLow ++ ignoredHigh).holds c.toNat

def isCased (c : Char) : Bool :=
  if c.toNat < 128 then c.isAlpha else casedRanges.holds c.toNat

/-- Whether the first character that case does not ignore is a cased letter. -/
def meetsCased (cs : List Char) : Bool :=
  match cs.dropWhile isCaseIgnored with
  | [] => false
  | c :: _ => isCased c

/-- The lowercase form of a text, given its characters read before, nearest first. A capital sigma
that ends a word (a cased letter before it and none after it) becomes the final sigma. -/
def lowerFrom : List Char → List Char → List Char
  | _, [] => []
  | before, c :: after =>
    let here :=
      if c.toNat = 0x3A3 then
        [Char.ofNat (if meetsCased before && !meetsCased after then 0x3C2 else 0x3C3)]
      else lowerChar c
    here ++ lowerFrom (c :: before) after

/-- The lowercase form of a text; names that share it are the same name. -/
def lower (s : String) : String :=
  String.ofList (lowerFrom [] s.toList)

/-- Equality up to the case of ASCII letters. -/
def sameUpToAsciiCase (s t : String) : Bool :=
  s.toList.map Char.toLower == t.toList.map Char.toLower

end XBase.Text
