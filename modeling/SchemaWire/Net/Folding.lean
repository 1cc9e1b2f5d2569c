import SchemaWire.Text.Category

/-!
The folded form of the characters of a name (the mapping of names of Unicode 17): letters of ASCII
lose their case, some characters vanish, and characters that write others are replaced by those
where a rule on names can tell. The rest stand for themselves, as their folded form has the same
direction and joins alike; of those it is only known whether they are in folded form.
-/

namespace SchemaWire.Label

def vanishingRanges : List (Nat × Nat) :=
  [(0xAD, 0xAD), (0x34F, 0x34F), (0x115F, 0x1160), (0x17B4, 0x17B5), (0x180B, 0x180F),
   (0x200B, 0x200B), (0x2060, 0x2064), (0x206A, 0x206F), (0x3164, 0x3164), (0xFE00, 0xFE0F),
   (0xFEFF, 0xFEFF), (0xFFA0, 0xFFA0), (0x1BCA0, 0x1BCA3), (0x1D173, 0x1D17A),
   (0xE0100, 0xE01EF)]

/-- Runs of characters that write runs of ASCII characters: first, last, and the ASCII character of
the first. -/
def asciiRuns : List (Nat × Nat × Char) :=
  [(0xAA, 0xAA, 'a'), (0xB2, 0xB3, '2'), (0xB9, 0xB9, '1'), (0xBA, 0xBA, 'o'), (0x17F, 0x17F, 's'),
   (0x2B0, 0x2B0, 'h'), (0x2B2, 0x2B2, 'j'), (0x2B3, 0x2B3, 'r'), (0x2B7, 0x2B7, 'w'),
   (0x2B8, 0x2B8, 'y'), (0x2E1, 0x2E1, 'l'), (0x2E2, 0x2E2, 's'), (0x2E3, 0x2E3, 'x'),
   (0x37E, 0x37E, ';'), (0x1D2C, 0x1D2C, 'a'), (0x1D2E, 0x1D2E, 'b'), (0x1D30, 0x1D31, 'd'),
   (0x1D33, 0x1D3A, 'g'), (0x1D3C, 0x1D3C, 'o'), (0x1D3E, 0x1D3E, 'p'), (0x1D3F, 0x1D3F, 'r'),
   (0x1D40, 0x1D41, 't'), (0x1D42, 0x1D42, 'w'), (0x1D43, 0x1D43, 'a'), (0x1D47, 0x1D47, 'b'),
   (0x1D48, 0x1D49, 'd'), (0x1D4D, 0x1D4D, 'g'), (0x1D4F, 0x1D4F, 'k'), (0x1D50, 0x1D50, 'm'),
   (0x1D52, 0x1D52, 'o'), (0x1D56, 0x1D56, 'p'), (0x1D57, 0x1D58, 't'), (0x1D5B, 0x1D5B, 'v'),
   (0x1D62, 0x1D62, 'i'), (0x1D63, 0x1D63, 'r'), (0x1D64, 0x1D65, 'u'), (0x1D9C, 0x1D9C, 'c'),
   (0x1DA0, 0x1DA0, 'f'), (0x1DBB, 0x1DBB, 'z'), (0x1FEF, 0x1FEF, '`'), (0x2070, 0x2070, '0'),
   (0x2071, 0x2071, 'i'), (0x2074, 0x2079, '4'), (0x207A, 0x207A, '+'), (0x207C, 0x207C, '='),
   (0x207D, 0x207E, '('), (0x207F, 0x207F, 'n'), (0x2080, 0x2089, '0'), (0x208A, 0x208A, '+'),
   (0x208C, 0x208C, '='), (0x208D, 0x208E, '('), (0x2090, 0x2090, 'a'), (0x2091, 0x2091, 'e'),
   (0x2092, 0x2092, 'o'), (0x2093, 0x2093, 'x'), (0x2095, 0x2095, 'h'), (0x2096, 0x2099, 'k'),
   (0x209A, 0x209A, 'p'), (0x209B, 0x209C, 's'), (0x2102, 0x2102, 'c'), (0x210A, 0x210B, 'g'),
   (0x210C, 0x210C, 'h'), (0x210D, 0x210D, 'h'), (0x210E, 0x210E, 'h'), (0x2110, 0x2110, 'i'),
   (0x2111, 0x2111, 'i'), (0x2112, 0x2112, 'l'), (0x2113, 0x2113, 'l'), (0x2115, 0x2115, 'n'),
   (0x2119, 0x211B, 'p'), (0x211C, 0x211C, 'r'), (0x211D, 0x211D, 'r'), (0x2124, 0x2124, 'z'),
   (0x2128, 0x2128, 'z'), (0x212A, 0x212A, 'k'), (0x212C, 0x212D, 'b'), (0x212F, 0x212F, 'e'),
   (0x2130, 0x2131, 'e'), (0x2133, 0x2133, 'm'), (0x2134, 0x2134, 'o'), (0x2139, 0x2139, 'i'),
   (0x2145, 0x2145, 'd'), (0x2146, 0x2147, 'd'), (0x2148, 0x2149, 'i'), (0x2160, 0x2160, 'i'),
   (0x2164, 0x2164, 'v'), (0x2169, 0x2169, 'x'), (0x216C, 0x216C, 'l'), (0x216D, 0x216E, 'c'),
   (0x216F, 0x216F, 'm'), (0x2170, 0x2170, 'i'), (0x2174, 0x2174, 'v'), (0x2179, 0x2179, 'x'),
   (0x217C, 0x217C, 'l'), (0x217D, 0x217E, 'c'), (0x217F, 0x217F, 'm'), (0x2460, 0x2468, '1'),
   (0x24B6, 0x24CF, 'a'), (0x24D0, 0x24E9, 'a'), (0x24EA, 0x24EA, '0'), (0x2C7C, 0x2C7C, 'j'),
   (0x2C7D, 0x2C7D, 'v'), (0xA7F1, 0xA7F1, 's'), (0xA7F2, 0xA7F2, 'c'), (0xA7F3, 0xA7F3, 'f'),
   (0xA7F4, 0xA7F4, 'q'), (0xFB29, 0xFB29, '+'), (0xFE10, 0xFE10, ','), (0xFE13, 0xFE14, ':'),
   (0xFE15, 0xFE15, '!'), (0xFE16, 0xFE16, '?'), (0xFE33, 0xFE33, '_'), (0xFE34, 0xFE34, '_'),
   (0xFE35, 0xFE36, '('), (0xFE37, 0xFE37, '{'), (0xFE38, 0xFE38, '}'), (0xFE47, 0xFE47, '['),
   (0xFE48, 0xFE48, ']'), (0xFE4D, 0xFE4D, '_'), (0xFE4E, 0xFE4E, '_'), (0xFE4F, 0xFE4F, '_'),
   (0xFE50, 0xFE50, ','), (0xFE54, 0xFE54, ';'), (0xFE55, 0xFE55, ':'), (0xFE56, 0xFE56, '?'),
   (0xFE57, 0xFE57, '!'), (0xFE59, 0xFE5A, '('), (0xFE5B, 0xFE5B, '{'), (0xFE5C, 0xFE5C, '}'),
   (0xFE5F, 0xFE5F, '#'), (0xFE60, 0xFE60, '&'), (0xFE61, 0xFE62, '*'), (0xFE63, 0xFE63, '-'),
   (0xFE64, 0xFE64, '<'), (0xFE65, 0xFE65, '>'), (0xFE66, 0xFE66, '='), (0xFE68, 0xFE68, '\\'),
   (0xFE69, 0xFE6A, '$'), (0xFE6B, 0xFE6B, '@'), (0xFF01, 0xFF0D, '!'), (0xFF0F, 0xFF20, '/'),
   (0xFF21, 0xFF3A, 'a'), (0xFF3B, 0xFF5E, '['), (0x107A5, 0x107A5, 'q'), (0x1CCD6, 0x1CCEF, 'a'),
   (0x1CCF0, 0x1CCF9, '0'), (0x1D400, 0x1D419, 'a'), (0x1D41A, 0x1D433, 'a'),
   (0x1D434, 0x1D44D, 'a'), (0x1D44E, 0x1D454, 'a'), (0x1D456, 0x1D467, 'i'),
   (0x1D468, 0x1D481, 'a'), (0x1D482, 0x1D49B, 'a'), (0x1D49C, 0x1D49C, 'a'),
   (0x1D49E, 0x1D49F, 'c'), (0x1D4A2, 0x1D4A2, 'g'), (0x1D4A5, 0x1D4A6, 'j'),
   (0x1D4A9, 0x1D4AC, 'n'), (0x1D4AE, 0x1D4B5, 's'), (0x1D4B6, 0x1D4B9, 'a'),
   (0x1D4BB, 0x1D4BB, 'f'), (0x1D4BD, 0x1D4C3, 'h'), (0x1D4C5, 0x1D4CF, 'p'),
   (0x1D4D0, 0x1D4E9, 'a'), (0x1D4EA, 0x1D503, 'a'), (0x1D504, 0x1D505, 'a'),
   (0x1D507, 0x1D50A, 'd'), (0x1D50D, 0x1D514, 'j'), (0x1D516, 0x1D51C, 's'),
   (0x1D51E, 0x1D537, 'a'), (0x1D538, 0x1D539, 'a'), (0x1D53B, 0x1D53E, 'd'),
   (0x1D540, 0x1D544, 'i'), (0x1D546, 0x1D546, 'o'), (0x1D54A, 0x1D550, 's'),
   (0x1D552, 0x1D56B, 'a'), (0x1D56C, 0x1D585, 'a'), (0x1D586, 0x1D59F, 'a'),
   (0x1D5A0, 0x1D5B9, 'a'), (0x1D5BA, 0x1D5D3, 'a'), (0x1D5D4, 0x1D5ED, 'a'),
   (0x1D5EE, 0x1D607, 'a'), (0x1D608, 0x1D621, 'a'), (0x1D622, 0x1D63B, 'a'),
   (0x1D63C, 0x1D655, 'a'), (0x1D656, 0x1D66F, 'a'), (0x1D670, 0x1D689, 'a'),
   (0x1D68A, 0x1D6A3, 'a'), (0x1D7CE, 0x1D7D7, '0'), (0x1D7D8, 0x1D7E1, '0'),
   (0x1D7E2, 0x1D7EB, '0'), (0x1D7EC, 0x1D7F5, '0'), (0x1D7F6, 0x1D7FF, '0'),
   (0x1F12B, 0x1F12B, 'c'), (0x1F12C, 0x1F12C, 'r'), (0x1F130, 0x1F149, 'a'),
   (0x1FBF0, 0x1FBF9, '0')]

/-- Runs of characters that write a number of two digits: first, last, and the number of the
first. -/
def numberRuns : List (Nat × Nat × Nat) :=
  [(0x2469, 0x2473, 10), (0x3251, 0x325F, 21), (0x32B1, 0x32BF, 36)]

/-- Characters that write others, where those are ASCII, run in different directions, or differ from
the character in being marks or in the class of the mark. -/
def spellings : List (Nat × String) :=
  [(0xBC, "1⁄4"), (0xBD, "1⁄2"), (0xBE, "3⁄4"), (0x132, "ij"), (0x133, "ij"), (0x13F, "l·"),
   (0x140, "l·"), (0x1C7, "lj"), (0x1C8, "lj"), (0x1C9, "lj"), (0x1CA, "nj"), (0x1CB, "nj"),
   (0x1CC, "nj"), (0x1F1, "dz"), (0x1F2, "dz"), (0x1F3, "dz"), (0x344, "\u0308\u0301"),
   (0x345, "ι"), (0xE33, "\u0e4dา"), (0xEB3, "\u0ecdາ"), (0xF73, "\u0f71\u0f72"),
   (0xF75, "\u0f71\u0f74"), (0xF81, "\u0f71\u0f80"), (0x203C, "!!"), (0x20A8, "rs"), (0x2103, "°c"),
   (0x2109, "°f"), (0x2116, "no"), (0x2120, "sm"), (0x2121, "tel"), (0x2122, "tm"), (0x213B, "fax"),
   (0x2150, "1⁄7"), (0x2151, "1⁄9"), (0x2152, "1⁄10"), (0x2153, "1⁄3"), (0x2154, "2⁄3"),
   (0x2155, "1⁄5"), (0x2156, "2⁄5"), (0x2157, "3⁄5"), (0x2158, "4⁄5"), (0x2159, "1⁄6"),
   (0x215A, "5⁄6"), (0x215B, "1⁄8"), (0x215C, "3⁄8"), (0x215D, "5⁄8"), (0x215E, "7⁄8"),
   (0x215F, "1⁄"), (0x2161, "ii"), (0x2162, "iii"), (0x2163, "iv"), (0x2165, "vi"), (0x2166, "vii"),
   (0x2167, "viii"), (0x2168, "ix"), (0x216A, "xi"), (0x216B, "xii"), (0x2171, "ii"),
   (0x2172, "iii"), (0x2173, "iv"), (0x2175, "vi"), (0x2176, "vii"), (0x2177, "viii"),
   (0x2178, "ix"), (0x217A, "xi"), (0x217B, "xii"), (0x2189, "0⁄3"), (0x2474, "(1)"),
   (0x2475, "(2)"), (0x2476, "(3)"), (0x2477, "(4)"), (0x2478, "(5)"), (0x2479, "(6)"),
   (0x247A, "(7)"), (0x247B, "(8)"), (0x247C, "(9)"), (0x247D, "(10)"), (0x247E, "(11)"),
   (0x247F, "(12)"), (0x2480, "(13)"), (0x2481, "(14)"), (0x2482, "(15)"), (0x2483, "(16)"),
   (0x2484, "(17)"), (0x2485, "(18)"), (0x2486, "(19)"), (0x2487, "(20)"), (0x249C, "(a)"),
   (0x249D, "(b)"), (0x249E, "(c)"), (0x249F, "(d)"), (0x24A0, "(e)"), (0x24A1, "(f)"),
   (0x24A2, "(g)"), (0x24A3, "(h)"), (0x24A4, "(i)"), (0x24A5, "(j)"), (0x24A6, "(k)"),
   (0x24A7, "(l)"), (0x24A8, "(m)"), (0x24A9, "(n)"), (0x24AA, "(o)"), (0x24AB, "(p)"),
   (0x24AC, "(q)"), (0x24AD, "(r)"), (0x24AE, "(s)"), (0x24AF, "(t)"), (0x24B0, "(u)"),
   (0x24B1, "(v)"), (0x24B2, "(w)"), (0x24B3, "(x)"), (0x24B4, "(y)"), (0x24B5, "(z)"),
   (0x2A75, "=="), (0x2A76, "==="), (0x3200, "(ᄀ)"), (0x3201, "(ᄂ)"), (0x3202, "(ᄃ)"),
   (0x3203, "(ᄅ)"), (0x3204, "(ᄆ)"), (0x3205, "(ᄇ)"), (0x3206, "(ᄉ)"), (0x3207, "(ᄋ)"),
   (0x3208, "(ᄌ)"), (0x3209, "(ᄎ)"), (0x320A, "(ᄏ)"), (0x320B, "(ᄐ)"), (0x320C, "(ᄑ)"),
   (0x320D, "(ᄒ)"), (0x320E, "(가)"), (0x320F, "(나)"), (0x3210, "(다)"), (0x3211, "(라)"),
   (0x3212, "(마)"), (0x3213, "(바)"), (0x3214, "(사)"), (0x3215, "(아)"), (0x3216, "(자)"),
   (0x3217, "(차)"), (0x3218, "(카)"), (0x3219, "(타)"), (0x321A, "(파)"), (0x321B, "(하)"),
   (0x321C, "(주)"), (0x321D, "(오전)"), (0x321E, "(오후)"), (0x3220, "(一)"), (0x3221, "(二)"),
   (0x3222, "(三)"), (0x3223, "(四)"), (0x3224, "(五)"), (0x3225, "(六)"), (0x3226, "(七)"),
   (0x3227, "(八)"), (0x3228, "(九)"), (0x3229, "(十)"), (0x322A, "(月)"), (0x322B, "(火)"),
   (0x322C, "(水)"), (0x322D, "(木)"), (0x322E, "(金)"), (0x322F, "(土)"), (0x3230, "(日)"),
   (0x3231, "(株)"), (0x3232, "(有)"), (0x3233, "(社)"), (0x3234, "(名)"), (0x3235, "(特)"),
   (0x3236, "(財)"), (0x3237, "(祝)"), (0x3238, "(労)"), (0x3239, "(代)"), (0x323A, "(呼)"),
   (0x323B, "(学)"), (0x323C, "(監)"), (0x323D, "(企)"), (0x323E, "(資)"), (0x323F, "(協)"),
   (0x3240, "(祭)"), (0x3241, "(休)"), (0x3242, "(自)"), (0x3243, "(至)"), (0x3250, "pte"),
   (0x32C0, "1月"), (0x32C1, "2月"), (0x32C2, "3月"), (0x32C3, "4月"), (0x32C4, "5月"), (0x32C5, "6月"),
   (0x32C6, "7月"), (0x32C7, "8月"), (0x32C8, "9月"), (0x32C9, "10月"), (0x32CA, "11月"),
   (0x32CB, "12月"), (0x32CC, "hg"), (0x32CD, "erg"), (0x32CE, "ev"), (0x32CF, "ltd"),
   (0x3358, "0点"), (0x3359, "1点"), (0x335A, "2点"), (0x335B, "3点"), (0x335C, "4点"), (0x335D, "5点"),
   (0x335E, "6点"), (0x335F, "7点"), (0x3360, "8点"), (0x3361, "9点"), (0x3362, "10点"), (0x3363, "11点"),
   (0x3364, "12点"), (0x3365, "13点"), (0x3366, "14点"), (0x3367, "15点"), (0x3368, "16点"),
   (0x3369, "17点"), (0x336A, "18点"), (0x336B, "19点"), (0x336C, "20点"), (0x336D, "21点"),
   (0x336E, "22点"), (0x336F, "23点"), (0x3370, "24点"), (0x3371, "hpa"), (0x3372, "da"),
   (0x3373, "au"), (0x3374, "bar"), (0x3375, "ov"), (0x3376, "pc"), (0x3377, "dm"), (0x3378, "dm2"),
   (0x3379, "dm3"), (0x337A, "iu"), (0x3380, "pa"), (0x3381, "na"), (0x3383, "ma"), (0x3384, "ka"),
   (0x3385, "kb"), (0x3386, "mb"), (0x3387, "gb"), (0x3388, "cal"), (0x3389, "kcal"),
   (0x338A, "pf"), (0x338B, "nf"), (0x338E, "mg"), (0x338F, "kg"), (0x3390, "hz"), (0x3391, "khz"),
   (0x3392, "mhz"), (0x3393, "ghz"), (0x3394, "thz"), (0x3396, "ml"), (0x3397, "dl"),
   (0x3398, "kl"), (0x3399, "fm"), (0x339A, "nm"), (0x339C, "mm"), (0x339D, "cm"), (0x339E, "km"),
   (0x339F, "mm2"), (0x33A0, "cm2"), (0x33A1, "m2"), (0x33A2, "km2"), (0x33A3, "mm3"),
   (0x33A4, "cm3"), (0x33A5, "m3"), (0x33A6, "km3"), (0x33A7, "m∕s"), (0x33A8, "m∕s2"),
   (0x33A9, "pa"), (0x33AA, "kpa"), (0x33AB, "mpa"), (0x33AC, "gpa"), (0x33AD, "rad"),
   (0x33AE, "rad∕s"), (0x33AF, "rad∕s2"), (0x33B0, "ps"), (0x33B1, "ns"), (0x33B3, "ms"),
   (0x33B4, "pv"), (0x33B5, "nv"), (0x33B7, "mv"), (0x33B8, "kv"), (0x33B9, "mv"), (0x33BA, "pw"),
   (0x33BB, "nw"), (0x33BD, "mw"), (0x33BE, "kw"), (0x33BF, "mw"), (0x33C3, "bq"), (0x33C4, "cc"),
   (0x33C5, "cd"), (0x33C6, "c∕kg"), (0x33C8, "db"), (0x33C9, "gy"), (0x33CA, "ha"), (0x33CB, "hp"),
   (0x33CC, "in"), (0x33CD, "kk"), (0x33CE, "km"), (0x33CF, "kt"), (0x33D0, "lm"), (0x33D1, "ln"),
   (0x33D2, "log"), (0x33D3, "lx"), (0x33D4, "mb"), (0x33D5, "mil"), (0x33D6, "mol"),
   (0x33D7, "ph"), (0x33D9, "ppm"), (0x33DA, "pr"), (0x33DB, "sr"), (0x33DC, "sv"), (0x33DD, "wb"),
   (0x33DE, "v∕m"), (0x33DF, "a∕m"), (0x33E0, "1日"), (0x33E1, "2日"), (0x33E2, "3日"), (0x33E3, "4日"),
   (0x33E4, "5日"), (0x33E5, "6日"), (0x33E6, "7日"), (0x33E7, "8日"), (0x33E8, "9日"), (0x33E9, "10日"),
   (0x33EA, "11日"), (0x33EB, "12日"), (0x33EC, "13日"), (0x33ED, "14日"), (0x33EE, "15日"),
   (0x33EF, "16日"), (0x33F0, "17日"), (0x33F1, "18日"), (0x33F2, "19日"), (0x33F3, "20日"),
   (0x33F4, "21日"), (0x33F5, "22日"), (0x33F6, "23日"), (0x33F7, "24日"), (0x33F8, "25日"),
   (0x33F9, "26日"), (0x33FA, "27日"), (0x33FB, "28日"), (0x33FC, "29日"), (0x33FD, "30日"),
   (0x33FE, "31日"), (0x33FF, "gal"), (0xFB00, "ff"), (0xFB01, "fi"), (0xFB02, "fl"),
   (0xFB03, "ffi"), (0xFB04, "ffl"), (0xFB05, "st"), (0xFB06, "st"), (0xFF9E, "\u3099"),
   (0xFF9F, "\u309a"), (0x1F101, "0,"), (0x1F102, "1,"), (0x1F103, "2,"), (0x1F104, "3,"),
   (0x1F105, "4,"), (0x1F106, "5,"), (0x1F107, "6,"), (0x1F108, "7,"), (0x1F109, "8,"),
   (0x1F10A, "9,"), (0x1F110, "(a)"), (0x1F111, "(b)"), (0x1F112, "(c)"), (0x1F113, "(d)"),
   (0x1F114, "(e)"), (0x1F115, "(f)"), (0x1F116, "(g)"), (0x1F117, "(h)"), (0x1F118, "(i)"),
   (0x1F119, "(j)"), (0x1F11A, "(k)"), (0x1F11B, "(l)"), (0x1F11C, "(m)"), (0x1F11D, "(n)"),
   (0x1F11E, "(o)"), (0x1F11F, "(p)"), (0x1F120, "(q)"), (0x1F121, "(r)"), (0x1F122, "(s)"),
   (0x1F123, "(t)"), (0x1F124, "(u)"), (0x1F125, "(v)"), (0x1F126, "(w)"), (0x1F127, "(x)"),
   (0x1F128, "(y)"), (0x1F129, "(z)"), (0x1F12A, "〔s〕"), (0x1F12D, "cd"), (0x1F12E, "wz"),
   (0x1F14A, "hv"), (0x1F14B, "mv"), (0x1F14C, "sd"), (0x1F14D, "ss"), (0x1F14E, "ppv"),
   (0x1F14F, "wc"), (0x1F16A, "mc"), (0x1F16B, "md"), (0x1F16C, "mr"), (0x1F190, "dj"),
   (0x1F240, "〔本〕"), (0x1F241, "〔三〕"), (0x1F242, "〔二〕"), (0x1F243, "〔安〕"), (0x1F244, "〔点〕"),
   (0x1F245, "〔打〕"), (0x1F246, "〔盗〕"), (0x1F247, "〔勝〕"), (0x1F248, "〔敗〕")]

/-- Characters that show and yet stand in no name: what they write holds a full stop, a blank or a
refused ASCII character, or they only describe other characters. -/
def refusedRanges : List (Nat × Nat) :=
  [(0xA8, 0xA8), (0xAF, 0xAF), (0xB4, 0xB4), (0xB8, 0xB8), (0x2D8, 0x2DD), (0x37A, 0x37A),
   (0x384, 0x385), (0x1FBD, 0x1FBD), (0x1FBF, 0x1FC1), (0x1FCD, 0x1FCF), (0x1FDD, 0x1FDF),
   (0x1FED, 0x1FEE), (0x1FFD, 0x1FFE), (0x2017, 0x2017), (0x2024, 0x2026), (0x203E, 0x203E),
   (0x2047, 0x2049), (0x2100, 0x2101), (0x2105, 0x2106), (0x2488, 0x249B), (0x2A74, 0x2A74),
   (0x2FF0, 0x2FFF), (0x309B, 0x309C), (0x31EF, 0x31EF), (0x33C2, 0x33C2), (0x33C7, 0x33C7),
   (0x33D8, 0x33D8), (0xFC5E, 0xFC63), (0xFDFA, 0xFDFB), (0xFE12, 0xFE12), (0xFE19, 0xFE19),
   (0xFE30, 0xFE30), (0xFE49, 0xFE4C), (0xFE52, 0xFE52), (0xFE70, 0xFE70), (0xFE72, 0xFE72),
   (0xFE74, 0xFE74), (0xFE76, 0xFE76), (0xFE78, 0xFE78), (0xFE7A, 0xFE7A), (0xFE7C, 0xFE7C),
   (0xFE7E, 0xFE7E), (0xFFE3, 0xFFE3), (0xFFFC, 0xFFFD), (0x1F100, 0x1F100)]

/-- The full stops that part labels besides the one of ASCII. -/
def isFullStop (c : Char) : Bool := c = '\u3002' || c = '\uff0e' || c = '\uff61'

def fold (c : Char) : List Char :=
  let n := c.toNat
  let holds := fun run : Nat × Nat × Char => run.1 ≤ n && n ≤ run.2.1
  if n < 128 then [c.toLower]
  else if Text.inRanges vanishingRanges n then []
  else if isFullStop c then ['.']
  else match asciiRuns.find? holds with
    | some (first, _, target) => [Char.ofNat (target.toNat + (n - first))]
    | none =>
      match numberRuns.find? fun run => run.1 ≤ n && n ≤ run.2.1 with
      | some (first, _, target) => Nat.toDigits 10 (target + (n - first))
      | none => ((spellings.lookup n).map String.toList).getD [c]

/-- Runs of the other characters whose folded form differs from them: first, last, and the distance
of one to the next. -/
def unfoldedRuns : List (Nat × Nat × Nat) :=
  [(0xA0, 0xA0, 1), (0xB5, 0xB5, 1), (0xC0, 0xD6, 1), (0xD8, 0xDE, 1), (0x100, 0x130, 2),
   (0x134, 0x136, 2), (0x139, 0x13D, 2), (0x141, 0x149, 2), (0x14A, 0x178, 2), (0x179, 0x17D, 2),
   (0x181, 0x182, 1), (0x184, 0x186, 2), (0x187, 0x189, 2), (0x18A, 0x18B, 1), (0x18E, 0x191, 1),
   (0x193, 0x194, 1), (0x196, 0x198, 1), (0x19C, 0x19D, 1), (0x19F, 0x1A0, 1), (0x1A2, 0x1A6, 2),
   (0x1A7, 0x1A9, 2), (0x1AC, 0x1AE, 2), (0x1AF, 0x1B1, 2), (0x1B2, 0x1B3, 1), (0x1B5, 0x1B7, 2),
   (0x1B8, 0x1B8, 1), (0x1BC, 0x1BC, 1), (0x1C4, 0x1CD, 1), (0x1CF, 0x1DB, 2), (0x1DE, 0x1EE, 2),
   (0x1F4, 0x1F6, 2), (0x1F7, 0x1F8, 1), (0x1FA, 0x232, 2), (0x23A, 0x23B, 1), (0x23D, 0x23E, 1),
   (0x241, 0x243, 2), (0x244, 0x246, 1), (0x248, 0x24E, 2), (0x2B1, 0x2B6, 1), (0x2E0, 0x2E4, 1),
   (0x340, 0x341, 1), (0x343, 0x343, 1), (0x370, 0x376, 2), (0x37F, 0x38F, 1), (0x391, 0x3AB, 1),
   (0x3CF, 0x3D6, 1), (0x3D8, 0x3F0, 2), (0x3F1, 0x3F2, 1), (0x3F4, 0x3F5, 1), (0x3F7, 0x3F9, 2),
   (0x3FA, 0x3FA, 1), (0x3FD, 0x42F, 1), (0x460, 0x480, 2), (0x48A, 0x4C0, 2), (0x4C1, 0x4CD, 2),
   (0x4D0, 0x52E, 2), (0x531, 0x556, 1), (0x587, 0x587, 1), (0x675, 0x678, 1), (0x958, 0x95F, 1),
   (0x9DC, 0x9DF, 1), (0xA33, 0xA33, 1), (0xA36, 0xA36, 1), (0xA59, 0xA5B, 1), (0xA5E, 0xA5E, 1),
   (0xB5C, 0xB5D, 1), (0xEDC, 0xEDD, 1), (0xF0C, 0xF0C, 1), (0xF43, 0xF43, 1), (0xF4D, 0xF4D, 1),
   (0xF52, 0xF52, 1), (0xF57, 0xF57, 1), (0xF5C, 0xF5C, 1), (0xF69, 0xF69, 1), (0xF76, 0xF79, 1),
   (0xF93, 0xF93, 1), (0xF9D, 0xF9D, 1), (0xFA2, 0xFA2, 1), (0xFA7, 0xFA7, 1), (0xFAC, 0xFAC, 1),
   (0xFB9, 0xFB9, 1), (0x10A0, 0x10CD, 1), (0x10FC, 0x10FC, 1), (0x13F8, 0x13FD, 1),
   (0x1C80, 0x1C89, 1), (0x1C90, 0x1CBF, 1), (0x1D2D, 0x1D2D, 1), (0x1D32, 0x1D32, 1),
   (0x1D3D, 0x1D4C, 1), (0x1D51, 0x1D6A, 1), (0x1D78, 0x1D78, 1), (0x1D9B, 0x1DBF, 1),
   (0x1E00, 0x1E94, 2), (0x1E9A, 0x1E9B, 1), (0x1E9E, 0x1EFE, 2), (0x1F08, 0x1F0F, 1),
   (0x1F18, 0x1F1D, 1), (0x1F28, 0x1F2F, 1), (0x1F38, 0x1F3F, 1), (0x1F48, 0x1F4D, 1),
   (0x1F59, 0x1F5F, 1), (0x1F68, 0x1F6F, 1), (0x1F71, 0x1F7D, 2), (0x1F80, 0x1FAF, 1),
   (0x1FB2, 0x1FB4, 1), (0x1FB7, 0x1FC4, 1), (0x1FC7, 0x1FCC, 1), (0x1FD3, 0x1FD3, 1),
   (0x1FD8, 0x1FDB, 1), (0x1FE3, 0x1FE3, 1), (0x1FE8, 0x1FF4, 1), (0x1FF7, 0x200A, 1),
   (0x2011, 0x2011, 1), (0x202F, 0x202F, 1), (0x2033, 0x2034, 1), (0x2036, 0x2037, 1),
   (0x2057, 0x2057, 1), (0x205F, 0x2094, 1), (0x2107, 0x2107, 1), (0x210F, 0x210F, 1),
   (0x2126, 0x2126, 1), (0x212B, 0x212B, 1), (0x2132, 0x2138, 1), (0x213C, 0x2140, 1),
   (0x2183, 0x2183, 1), (0x222C, 0x222D, 1), (0x222F, 0x2230, 1), (0x2329, 0x232A, 1),
   (0x2A0C, 0x2A0C, 1), (0x2ADC, 0x2ADC, 1), (0x2C00, 0x2C2F, 1), (0x2C60, 0x2C62, 2),
   (0x2C63, 0x2C64, 1), (0x2C67, 0x2C6D, 2), (0x2C6E, 0x2C70, 1), (0x2C72, 0x2C72, 1),
   (0x2C75, 0x2C75, 1), (0x2C7E, 0x2C80, 1), (0x2C82, 0x2CE2, 2), (0x2CEB, 0x2CED, 2),
   (0x2CF2, 0x2CF2, 1), (0x2D6F, 0x2D6F, 1), (0x2E9F, 0x2E9F, 1), (0x2EF3, 0x3000, 1),
   (0x3036, 0x3038, 2), (0x3039, 0x303A, 1), (0x309F, 0x309F, 1), (0x30FF, 0x30FF, 1),
   (0x3131, 0x318E, 1), (0x3192, 0x319F, 1), (0x3244, 0x3247, 1), (0x3260, 0x327E, 1),
   (0x3280, 0x33C1, 1), (0xA640, 0xA66C, 2), (0xA680, 0xA69C, 2), (0xA69D, 0xA69D, 1),
   (0xA722, 0xA72E, 2), (0xA732, 0xA770, 2), (0xA779, 0xA77D, 2), (0xA77E, 0xA786, 2),
   (0xA78B, 0xA78D, 2), (0xA790, 0xA792, 2), (0xA796, 0xA7AA, 2), (0xA7AB, 0xA7AE, 1),
   (0xA7B0, 0xA7B4, 1), (0xA7B6, 0xA7C4, 2), (0xA7C5, 0xA7C7, 1), (0xA7C9, 0xA7CB, 2),
   (0xA7CC, 0xA7DC, 2), (0xA7F5, 0xA7F5, 1), (0xA7F8, 0xA7F9, 1), (0xAB5C, 0xAB5F, 1),
   (0xAB69, 0xAB69, 1), (0xAB70, 0xABBF, 1), (0xF900, 0xFA0D, 1), (0xFA10, 0xFA12, 2),
   (0xFA15, 0xFA1E, 1), (0xFA20, 0xFA22, 2), (0xFA25, 0xFA26, 1), (0xFA2A, 0xFB1D, 1),
   (0xFB1F, 0xFBB1, 1), (0xFBD3, 0xFD3D, 1), (0xFD50, 0xFD8F, 1), (0xFD92, 0xFDC7, 1),
   (0xFDF0, 0xFDFC, 1), (0xFE11, 0xFE18, 1), (0xFE31, 0xFE44, 1), (0xFE51, 0xFE71, 1),
   (0xFE77, 0xFFEE, 1), (0x10400, 0x10427, 1), (0x104B0, 0x104D3, 1), (0x10570, 0x10595, 1),
   (0x10781, 0x107BA, 1), (0x10C80, 0x10CB2, 1), (0x10D50, 0x10D65, 1), (0x118A0, 0x118BF, 1),
   (0x16E40, 0x16E5F, 1), (0x16EA0, 0x16EB8, 1), (0x1D15E, 0x1D164, 1), (0x1D1BB, 0x1D1C0, 1),
   (0x1D6A4, 0x1D7CB, 1), (0x1E030, 0x1E06D, 1), (0x1E900, 0x1E921, 1), (0x1EE00, 0x1EEBB, 1),
   (0x1F200, 0x1F251, 1), (0x2F800, 0x2FA1D, 1)]

def isFolded (c : Char) : Bool :=
  let n := c.toNat
  fold c = [c] &&
    !unfoldedRuns.any fun run => run.1 ≤ n && n ≤ run.2.1 && (n - run.1) % run.2.2 = 0

end SchemaWire.Label
