/-!
Lower case. Every character with a lower-case form has one of one character, except for the capital
I with a dot, which becomes two. A capital sigma becomes the final form at the end of a word: behind
a letter with case and not in front of one, apostrophes, marks and the like being passed over. The
tables are those of the Unicode properties Lowercase_Mapping, Cased and Case_Ignorable.
-/
namespace AlertFlow.Text

/-- The characters with a lower-case form, in runs: the first, how many, how far apart, and the
lower-case form of the first. The others have theirs at equal distance. -/
def lowerRuns : List (Nat × Nat × Nat × Nat) :=
  [(0x41, 26, 1, 0x61), (0xc0, 23, 1, 0xe0), (0xd8, 7, 1, 0xf8), (0x100, 24, 2, 0x101),
    (0x132, 3, 2, 0x133), (0x139, 8, 2, 0x13a), (0x14a, 23, 2, 0x14b), (0x178, 1, 1, 0xff),
    (0x179, 3, 2, 0x17a), (0x181, 1, 1, 0x253), (0x182, 2, 2, 0x183), (0x186, 1, 1, 0x254),
    (0x187, 1, 1, 0x188), (0x189, 2, 1, 0x256), (0x18b, 1, 1, 0x18c), (0x18e, 1, 1, 0x1dd),
    (0x18f, 1, 1, 0x259), (0x190, 1, 1, 0x25b), (0x191, 1, 1, 0x192), (0x193, 1, 1, 0x260),
    (0x194, 1, 1, 0x263), (0x196, 1, 1, 0x269), (0x197, 1, 1, 0x268), (0x198, 1, 1, 0x199),
    (0x19c, 1, 1, 0x26f), (0x19d, 1, 1, 0x272), (0x19f, 1, 1, 0x275), (0x1a0, 3, 2, 0x1a1),
    (0x1a6, 1, 1, 0x280), (0x1a7, 1, 1, 0x1a8), (0x1a9, 1, 1, 0x283), (0x1ac, 1, 1, 0x1ad),
    (0x1ae, 1, 1, 0x288), (0x1af, 1, 1, 0x1b0), (0x1b1, 2, 1, 0x28a), (0x1b3, 2, 2, 0x1b4),
    (0x1b7, 1, 1, 0x292), (0x1b8, 1, 1, 0x1b9), (0x1bc, 1, 1, 0x1bd), (0x1c4, 1, 1, 0x1c6),
    (0x1c5, 1, 1, 0x1c6), (0x1c7, 1, 1, 0x1c9), (0x1c8, 1, 1, 0x1c9), (0x1ca, 1, 1, 0x1cc),
    (0x1cb, 9, 2, 0x1cc), (0x1de, 9, 2, 0x1df), (0x1f1, 1, 1, 0x1f3), (0x1f2, 2, 2, 0x1f3),
    (0x1f6, 1, 1, 0x195), (0x1f7, 1, 1, 0x1bf), (0x1f8, 20, 2, 0x1f9), (0x220, 1, 1, 0x19e),
    (0x222, 9, 2, 0x223), (0x23a, 1, 1, 0x2c65), (0x23b, 1, 1, 0x23c), (0x23d, 1, 1, 0x19a),
    (0x23e, 1, 1, 0x2c66), (0x241, 1, 1, 0x242), (0x243, 1, 1, 0x180), (0x244, 1, 1, 0x289),
    (0x245, 1, 1, 0x28c), (0x246, 5, 2, 0x247), (0x370, 2, 2, 0x371), (0x376, 1, 1, 0x377),
    (0x37f, 1, 1, 0x3f3), (0x386, 1, 1, 0x3ac), (0x388, 3, 1, 0x3ad), (0x38c, 1, 1, 0x3cc),
    (0x38e, 2, 1, 0x3cd), (0x391, 17, 1, 0x3b1), (0x3a3, 9, 1, 0x3c3), (0x3cf, 1, 1, 0x3d7),
    (0x3d8, 12, 2, 0x3d9), (0x3f4, 1, 1, 0x3b8), (0x3f7, 1, 1, 0x3f8), (0x3f9, 1, 1, 0x3f2),
    (0x3fa, 1, 1, 0x3fb), (0x3fd, 3, 1, 0x37b), (0x400, 16, 1, 0x450), (0x410, 32, 1, 0x430),
    (0x460, 17, 2, 0x461), (0x48a, 27, 2, 0x48b), (0x4c0, 1, 1, 0x4cf), (0x4c1, 7, 2, 0x4c2),
    (0x4d0, 48, 2, 0x4d1), (0x531, 38, 1, 0x561), (0x10a0, 38, 1, 0x2d00), (0x10c7, 1, 1, 0x2d27),
    (0x10cd, 1, 1, 0x2d2d), (0x13a0, 80, 1, 0xab70), (0x13f0, 6, 1, 0x13f8),
    (0x1c90, 43, 1, 0x10d0), (0x1cbd, 3, 1, 0x10fd), (0x1e00, 75, 2, 0x1e01),
    (0x1e9e, 1, 1, 0xdf), (0x1ea0, 48, 2, 0x1ea1), (0x1f08, 8, 1, 0x1f00), (0x1f18, 6, 1, 0x1f10),
    (0x1f28, 8, 1, 0x1f20), (0x1f38, 8, 1, 0x1f30), (0x1f48, 6, 1, 0x1f40),
    (0x1f59, 4, 2, 0x1f51), (0x1f68, 8, 1, 0x1f60), (0x1f88, 8, 1, 0x1f80),
    (0x1f98, 8, 1, 0x1f90), (0x1fa8, 8, 1, 0x1fa0), (0x1fb8, 2, 1, 0x1fb0),
    (0x1fba, 2, 1, 0x1f70), (0x1fbc, 1, 1, 0x1fb3), (0x1fc8, 4, 1, 0x1f72),
    (0x1fcc, 1, 1, 0x1fc3), (0x1fd8, 2, 1, 0x1fd0), (0x1fda, 2, 1, 0x1f76),
    (0x1fe8, 2, 1, 0x1fe0), (0x1fea, 2, 1, 0x1f7a), (0x1fec, 1, 1, 0x1fe5),
    (0x1ff8, 2, 1, 0x1f78), (0x1ffa, 2, 1, 0x1f7c), (0x1ffc, 1, 1, 0x1ff3), (0x2126, 1, 1, 0x3c9),
    (0x212a, 1, 1, 0x6b), (0x212b, 1, 1, 0xe5), (0x2132, 1, 1, 0x214e), (0x2160, 16, 1, 0x2170),
    (0x2183, 1, 1, 0x2184), (0x24b6, 26, 1, 0x24d0), (0x2c00, 48, 1, 0x2c30),
    (0x2c60, 1, 1, 0x2c61), (0x2c62, 1, 1, 0x26b), (0x2c63, 1, 1, 0x1d7d), (0x2c64, 1, 1, 0x27d),
    (0x2c67, 3, 2, 0x2c68), (0x2c6d, 1, 1, 0x251), (0x2c6e, 1, 1, 0x271), (0x2c6f, 1, 1, 0x250),
    (0x2c70, 1, 1, 0x252), (0x2c72, 1, 1, 0x2c73), (0x2c75, 1, 1, 0x2c76), (0x2c7e, 2, 1, 0x23f),
    (0x2c80, 50, 2, 0x2c81), (0x2ceb, 2, 2, 0x2cec), (0x2cf2, 1, 1, 0x2cf3),
    (0xa640, 23, 2, 0xa641), (0xa680, 14, 2, 0xa681), (0xa722, 7, 2, 0xa723),
    (0xa732, 31, 2, 0xa733), (0xa779, 2, 2, 0xa77a), (0xa77d, 1, 1, 0x1d79),
    (0xa77e, 5, 2, 0xa77f), (0xa78b, 1, 1, 0xa78c), (0xa78d, 1, 1, 0x265), (0xa790, 2, 2, 0xa791),
    (0xa796, 10, 2, 0xa797), (0xa7aa, 1, 1, 0x266), (0xa7ab, 1, 1, 0x25c), (0xa7ac, 1, 1, 0x261),
    (0xa7ad, 1, 1, 0x26c), (0xa7ae, 1, 1, 0x26a), (0xa7b0, 1, 1, 0x29e), (0xa7b1, 1, 1, 0x287),
    (0xa7b2, 1, 1, 0x29d), (0xa7b3, 1, 1, 0xab53), (0xa7b4, 8, 2, 0xa7b5), (0xa7c4, 1, 1, 0xa794),
    (0xa7c5, 1, 1, 0x282), (0xa7c6, 1, 1, 0x1d8e), (0xa7c7, 2, 2, 0xa7c8), (0xa7cb, 1, 1, 0x264),
    (0xa7cc, 1, 1, 0xa7cd), (0xa7d0, 1, 1, 0xa7d1), (0xa7d6, 3, 2, 0xa7d7), (0xa7dc, 1, 1, 0x19b),
    (0xa7f5, 1, 1, 0xa7f6), (0xff21, 26, 1, 0xff41), (0x10400, 40, 1, 0x10428),
    (0x104b0, 36, 1, 0x104d8), (0x10570, 19, 2, 0x10597), (0x10571, 5, 2, 0x10598),
    (0x1057d, 7, 2, 0x105a4), (0x1058d, 3, 2, 0x105b4), (0x10595, 1, 1, 0x105bc),
    (0x10c80, 51, 1, 0x10cc0), (0x10d50, 22, 1, 0x10d70), (0x118a0, 32, 1, 0x118c0),
    (0x16e40, 32, 1, 0x16e60), (0x1e900, 34, 1, 0x1e922)]

/-- The characters with the property Cased, in runs: the first, and how many. -/
def casedRuns : List (Nat × Nat) :=
  [(0x41, 26), (0x61, 26), (0xaa, 1), (0xb5, 1), (0xba, 1), (0xc0, 23), (0xd8, 31), (0xf8, 195),
    (0x1bc, 4), (0x1c4, 208), (0x295, 36), (0x2c0, 2), (0x2e0, 5), (0x345, 1), (0x370, 4),
    (0x376, 2), (0x37a, 4), (0x37f, 1), (0x386, 1), (0x388, 3), (0x38c, 1), (0x38e, 20),
    (0x3a3, 83), (0x3f7, 139), (0x48a, 166), (0x531, 38), (0x560, 41), (0x10a0, 38), (0x10c7, 1),
    (0x10cd, 1), (0x10d0, 43), (0x10fc, 4), (0x13a0, 86), (0x13f8, 6), (0x1c80, 9), (0x1c90, 43),
    (0x1cbd, 3), (0x1d00, 192), (0x1e00, 278), (0x1f18, 6), (0x1f20, 38), (0x1f48, 6),
    (0x1f50, 8), (0x1f59, 1), (0x1f5b, 1), (0x1f5d, 1), (0x1f5f, 31), (0x1f80, 53), (0x1fb6, 7),
    (0x1fbe, 1), (0x1fc2, 3), (0x1fc6, 7), (0x1fd0, 4), (0x1fd6, 6), (0x1fe0, 13), (0x1ff2, 3),
    (0x1ff6, 7), (0x2071, 1), (0x207f, 1), (0x2090, 13), (0x2102, 1), (0x2107, 1), (0x210a, 10),
    (0x2115, 1), (0x2119, 5), (0x2124, 1), (0x2126, 1), (0x2128, 1), (0x212a, 4), (0x212f, 6),
    (0x2139, 1), (0x213c, 4), (0x2145, 5), (0x214e, 1), (0x2160, 32), (0x2183, 2), (0x24b6, 52),
    (0x2c00, 229), (0x2ceb, 4), (0x2cf2, 2), (0x2d00, 38), (0x2d27, 1), (0x2d2d, 1), (0xa640, 46),
    (0xa680, 30), (0xa722, 102), (0xa78b, 4), (0xa790, 62), (0xa7d0, 2), (0xa7d3, 1), (0xa7d5, 8),
    (0xa7f2, 5), (0xa7f8, 3), (0xab30, 43), (0xab5c, 14), (0xab70, 80), (0xfb00, 7), (0xfb13, 5),
    (0xff21, 26), (0xff41, 26), (0x10400, 80), (0x104b0, 36), (0x104d8, 36), (0x10570, 11),
    (0x1057c, 15), (0x1058c, 7), (0x10594, 2), (0x10597, 11), (0x105a3, 15), (0x105b3, 7),
    (0x105bb, 2), (0x10780, 1), (0x10783, 3), (0x10787, 42), (0x107b2, 9), (0x10c80, 51),
    (0x10cc0, 51), (0x10d50, 22), (0x10d70, 22), (0x118a0, 64), (0x16e40, 64), (0x1d400, 85),
    (0x1d456, 71), (0x1d49e, 2), (0x1d4a2, 1), (0x1d4a5, 2), (0x1d4a9, 4), (0x1d4ae, 12),
    (0x1d4bb, 1), (0x1d4bd, 7), (0x1d4c5, 65), (0x1d507, 4), (0x1d50d, 8), (0x1d516, 7),
    (0x1d51e, 28), (0x1d53b, 4), (0x1d540, 5), (0x1d546, 1), (0x1d54a, 7), (0x1d552, 340),
    (0x1d6a8, 25), (0x1d6c2, 25), (0x1d6dc, 31), (0x1d6fc, 25), (0x1d716, 31), (0x1d736, 25),
    (0x1d750, 31), (0x1d770, 25), (0x1d78a, 31), (0x1d7aa, 25), (0x1d7c4, 8), (0x1df00, 10),
    (0x1df0b, 20), (0x1df25, 6), (0x1e030, 62), (0x1e900, 68), (0x1f130, 26), (0x1f150, 26),
    (0x1f170, 26)]

/-- The characters with the property Case_Ignorable, in runs: the first, and how many. -/
def ignorableRuns : List (Nat × Nat) :=
  [(0x27, 1), (0x2e, 1), (0x3a, 1), (0x5e, 1), (0x60, 1), (0xa8, 1), (0xad, 1), (0xaf, 1),
    (0xb4, 1), (0xb7, 2), (0x2b0, 192), (0x374, 2), (0x37a, 1), (0x384, 2), (0x387, 1),
    (0x483, 7), (0x559, 1), (0x55f, 1), (0x591, 45), (0x5bf, 1), (0x5c1, 2), (0x5c4, 2),
    (0x5c7, 1), (0x5f4, 1), (0x600, 6), (0x610, 11), (0x61c, 1), (0x640, 1), (0x64b, 21),
    (0x670, 1), (0x6d6, 8), (0x6df, 10), (0x6ea, 4), (0x70f, 1), (0x711, 1), (0x730, 27),
    (0x7a6, 11), (0x7eb, 11), (0x7fa, 1), (0x7fd, 1), (0x816, 24), (0x859, 3), (0x888, 1),
    (0x890, 2), (0x898, 8), (0x8c9, 58), (0x93a, 1), (0x93c, 1), (0x941, 8), (0x94d, 1),
    (0x951, 7), (0x962, 2), (0x971, 1), (0x981, 1), (0x9bc, 1), (0x9c1, 4), (0x9cd, 1),
    (0x9e2, 2), (0x9fe, 1), (0xa01, 2), (0xa3c, 1), (0xa41, 2), (0xa47, 2), (0xa4b, 3),
    (0xa51, 1), (0xa70, 2), (0xa75, 1), (0xa81, 2), (0xabc, 1), (0xac1, 5), (0xac7, 2),
    (0xacd, 1), (0xae2, 2), (0xafa, 6), (0xb01, 1), (0xb3c, 1), (0xb3f, 1), (0xb41, 4),
    (0xb4d, 1), (0xb55, 2), (0xb62, 2), (0xb82, 1), (0xbc0, 1), (0xbcd, 1), (0xc00, 1),
    (0xc04, 1), (0xc3c, 1), (0xc3e, 3), (0xc46, 3), (0xc4a, 4), (0xc55, 2), (0xc62, 2),
    (0xc81, 1), (0xcbc, 1), (0xcbf, 1), (0xcc6, 1), (0xccc, 2), (0xce2, 2), (0xd00, 2),
    (0xd3b, 2), (0xd41, 4), (0xd4d, 1), (0xd62, 2), (0xd81, 1), (0xdca, 1), (0xdd2, 3),
    (0xdd6, 1), (0xe31, 1), (0xe34, 7), (0xe46, 9), (0xeb1, 1), (0xeb4, 9), (0xec6, 1),
    (0xec8, 7), (0xf18, 2), (0xf35, 1), (0xf37, 1), (0xf39, 1), (0xf71, 14), (0xf80, 5),
    (0xf86, 2), (0xf8d, 11), (0xf99, 36), (0xfc6, 1), (0x102d, 4), (0x1032, 6), (0x1039, 2),
    (0x103d, 2), (0x1058, 2), (0x105e, 3), (0x1071, 4), (0x1082, 1), (0x1085, 2), (0x108d, 1),
    (0x109d, 1), (0x10fc, 1), (0x135d, 3), (0x1712, 3), (0x1732, 2), (0x1752, 2), (0x1772, 2),
    (0x17b4, 2), (0x17b7, 7), (0x17c6, 1), (0x17c9, 11), (0x17d7, 1), (0x17dd, 1), (0x180b, 5),
    (0x1843, 1), (0x1885, 2), (0x18a9, 1), (0x1920, 3), (0x1927, 2), (0x1932, 1), (0x1939, 3),
    (0x1a17, 2), (0x1a1b, 1), (0x1a56, 1), (0x1a58, 7), (0x1a60, 1), (0x1a62, 1), (0x1a65, 8),
    (0x1a73, 10), (0x1a7f, 1), (0x1aa7, 1), (0x1ab0, 31), (0x1b00, 4), (0x1b34, 1), (0x1b36, 5),
    (0x1b3c, 1), (0x1b42, 1), (0x1b6b, 9), (0x1b80, 2), (0x1ba2, 4), (0x1ba8, 2), (0x1bab, 3),
    (0x1be6, 1), (0x1be8, 2), (0x1bed, 1), (0x1bef, 3), (0x1c2c, 8), (0x1c36, 2), (0x1c78, 6),
    (0x1cd0, 3), (0x1cd4, 13), (0x1ce2, 7), (0x1ced, 1), (0x1cf4, 1), (0x1cf8, 2), (0x1d2c, 63),
    (0x1d78, 1), (0x1d9b, 101), (0x1fbd, 1), (0x1fbf, 3), (0x1fcd, 3), (0x1fdd, 3), (0x1fed, 3),
    (0x1ffd, 2), (0x200b, 5), (0x2018, 2), (0x2024, 1), (0x2027, 1), (0x202a, 5), (0x2060, 5),
    (0x2066, 10), (0x2071, 1), (0x207f, 1), (0x2090, 13), (0x20d0, 33), (0x2c7c, 2), (0x2cef, 3),
    (0x2d6f, 1), (0x2d7f, 1), (0x2de0, 32), (0x2e2f, 1), (0x3005, 1), (0x302a, 4), (0x3031, 5),
    (0x303b, 1), (0x3099, 6), (0x30fc, 3), (0xa015, 1), (0xa4f8, 6), (0xa60c, 1), (0xa66f, 4),
    (0xa674, 10), (0xa67f, 1), (0xa69c, 4), (0xa6f0, 2), (0xa700, 34), (0xa770, 1), (0xa788, 3),
    (0xa7f2, 3), (0xa7f8, 2), (0xa802, 1), (0xa806, 1), (0xa80b, 1), (0xa825, 2), (0xa82c, 1),
    (0xa8c4, 2), (0xa8e0, 18), (0xa8ff, 1), (0xa926, 8), (0xa947, 11), (0xa980, 3), (0xa9b3, 1),
    (0xa9b6, 4), (0xa9bc, 2), (0xa9cf, 1), (0xa9e5, 2), (0xaa29, 6), (0xaa31, 2), (0xaa35, 2),
    (0xaa43, 1), (0xaa4c, 1), (0xaa70, 1), (0xaa7c, 1), (0xaab0, 1), (0xaab2, 3), (0xaab7, 2),
    (0xaabe, 2), (0xaac1, 1), (0xaadd, 1), (0xaaec, 2), (0xaaf3, 2), (0xaaf6, 1), (0xab5b, 5),
    (0xab69, 3), (0xabe5, 1), (0xabe8, 1), (0xabed, 1), (0xfb1e, 1), (0xfbb2, 17), (0xfe00, 16),
    (0xfe13, 1), (0xfe20, 16), (0xfe52, 1), (0xfe55, 1), (0xfeff, 1), (0xff07, 1), (0xff0e, 1),
    (0xff1a, 1), (0xff3e, 1), (0xff40, 1), (0xff70, 1), (0xff9e, 2), (0xffe3, 1), (0xfff9, 3),
    (0x101fd, 1), (0x102e0, 1), (0x10376, 5), (0x10780, 6), (0x10787, 42), (0x107b2, 9),
    (0x10a01, 3), (0x10a05, 2), (0x10a0c, 4), (0x10a38, 3), (0x10a3f, 1), (0x10ae5, 2),
    (0x10d24, 4), (0x10eab, 2), (0x10efd, 3), (0x10f46, 11), (0x10f82, 4), (0x11001, 1),
    (0x11038, 15), (0x11070, 1), (0x11073, 2), (0x1107f, 3), (0x110b3, 4), (0x110b9, 2),
    (0x110bd, 1), (0x110c2, 1), (0x110cd, 1), (0x11100, 3), (0x11127, 5), (0x1112d, 8),
    (0x11173, 1), (0x11180, 2), (0x111b6, 9), (0x111c9, 4), (0x111cf, 1), (0x1122f, 3),
    (0x11234, 1), (0x11236, 2), (0x1123e, 1), (0x11241, 1), (0x112df, 1), (0x112e3, 8),
    (0x11300, 2), (0x1133b, 2), (0x11340, 1), (0x11366, 7), (0x11370, 5), (0x11438, 8),
    (0x11442, 3), (0x11446, 1), (0x1145e, 1), (0x114b3, 6), (0x114ba, 1), (0x114bf, 2),
    (0x114c2, 2), (0x115b2, 4), (0x115bc, 2), (0x115bf, 2), (0x115dc, 2), (0x11633, 8),
    (0x1163d, 1), (0x1163f, 2), (0x116ab, 1), (0x116ad, 1), (0x116b0, 6), (0x116b7, 1),
    (0x1171d, 3), (0x11722, 4), (0x11727, 5), (0x1182f, 9), (0x11839, 2), (0x1193b, 2),
    (0x1193e, 1), (0x11943, 1), (0x119d4, 4), (0x119da, 2), (0x119e0, 1), (0x11a01, 10),
    (0x11a33, 6), (0x11a3b, 4), (0x11a47, 1), (0x11a51, 6), (0x11a59, 3), (0x11a8a, 13),
    (0x11a98, 2), (0x11c30, 7), (0x11c38, 6), (0x11c3f, 1), (0x11c92, 22), (0x11caa, 7),
    (0x11cb2, 2), (0x11cb5, 2), (0x11d31, 6), (0x11d3a, 1), (0x11d3c, 2), (0x11d3f, 7),
    (0x11d47, 1), (0x11d90, 2), (0x11d95, 1), (0x11d97, 1), (0x11ef3, 2), (0x11f00, 2),
    (0x11f36, 5), (0x11f40, 1), (0x11f42, 1), (0x13430, 17), (0x13447, 15), (0x16af0, 5),
    (0x16b30, 7), (0x16b40, 4), (0x16f4f, 1), (0x16f8f, 17), (0x16fe0, 2), (0x16fe3, 2),
    (0x1aff0, 4), (0x1aff5, 7), (0x1affd, 2), (0x1bc9d, 2), (0x1bca0, 4), (0x1cf00, 46),
    (0x1cf30, 23), (0x1d167, 3), (0x1d173, 16), (0x1d185, 7), (0x1d1aa, 4), (0x1d242, 3),
    (0x1da00, 55), (0x1da3b, 50), (0x1da75, 1), (0x1da84, 1), (0x1da9b, 5), (0x1daa1, 15),
    (0x1e000, 7), (0x1e008, 17), (0x1e01b, 7), (0x1e023, 2), (0x1e026, 5), (0x1e030, 62),
    (0x1e08f, 1), (0x1e130, 14), (0x1e2ae, 1), (0x1e2ec, 4), (0x1e4eb, 5), (0x1e8d0, 7),
    (0x1e944, 8), (0x1f3fb, 5), (0xe0001, 1), (0xe0020, 96), (0xe0100, 240)]

/-- Whether a character is in one of some runs. -/
def inRuns (runs : List (Nat × Nat)) (c : Char) : Bool :=
  runs.any fun r => r.1 ≤ c.toNat && c.toNat < r.1 + r.2

/-- The lower-case form of a character at a place in a run. -/
def lowerIn (c : Char) : Nat × Nat × Nat × Nat → Option Char
  | (first, count, step, image) =>
    let offset := c.toNat - first
    if first ≤ c.toNat ∧ offset < count * step ∧ offset % step = 0 then
      some (Char.ofNat (image + offset))
    else none

/-- The lower-case form of a character by itself. -/
def lowerChar (c : Char) : List Char :=
  if c = '\u0130' then ['i', '\u0307']
  else [(lowerRuns.findSome? (lowerIn c)).getD c]

/-- Whether the first character that is not passed over is a letter with case. -/
def meetsCased (cs : List Char) : Bool :=
  match (cs.dropWhile (inRuns ignorableRuns)).head? with
  | some c => inRuns casedRuns c
  | none => false

/-- The lower-case form of a text behind the given characters, nearest first. -/
def lowerAfter (before : List Char) : List Char → List Char
  | [] => []
  | c :: rest =>
    let form :=
      if c = '\u03a3' then
        if meetsCased before && !meetsCased rest then ['\u03c2'] else ['\u03c3']
      else lowerChar c
    form ++ lowerAfter (c :: before) rest

def lower (text : String) : String := String.ofList (lowerAfter [] text.toList)

end AlertFlow.Text
