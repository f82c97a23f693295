/-!
# Letters with a plain form

Unicode has many letters whose compatibility form is a letter from `a` to `z` or a few of them:
fullwidth and mathematical letters, letters in circles, ligatures, small Roman numerals. A seed
word may be typed with any of them. `lower` and `plain` treat exactly these letters and leave
every other character as it is.
-/

namespace NodeStore.Text

/-- Capital letters outside ASCII whose small letter has a plain form: first, last, and the
small letter of the first. -/
def capitalRuns : List (Nat × Nat × Nat) :=
  [(0x132, 0x132, 0x133), (0x1c7, 0x1c7, 0x1c9), (0x1c8, 0x1c8, 0x1c9), (0x1ca, 0x1ca, 0x1cc),
   (0x1cb, 0x1cb, 0x1cc), (0x1f1, 0x1f1, 0x1f3), (0x1f2, 0x1f2, 0x1f3), (0x212a, 0x212a, 0x6b),
   (0x2160, 0x216f, 0x2170), (0x24b6, 0x24cf, 0x24d0), (0xff21, 0xff3a, 0xff41)]

/-- Letters outside ASCII with one plain letter: first, last, and the plain letter of the
first. -/
def letterRuns : List (Nat × Nat × Char) :=
  [(0xaa, 0xaa, 'a'), (0xba, 0xba, 'o'), (0x17f, 0x17f, 's'), (0x2b0, 0x2b0, 'h'),
   (0x2b2, 0x2b2, 'j'), (0x2b3, 0x2b3, 'r'), (0x2b7, 0x2b7, 'w'), (0x2b8, 0x2b8, 'y'),
   (0x2e1, 0x2e1, 'l'), (0x2e2, 0x2e2, 's'), (0x2e3, 0x2e3, 'x'), (0x1d43, 0x1d43, 'a'),
   (0x1d47, 0x1d47, 'b'), (0x1d48, 0x1d49, 'd'), (0x1d4d, 0x1d4d, 'g'), (0x1d4f, 0x1d4f, 'k'),
   (0x1d50, 0x1d50, 'm'), (0x1d52, 0x1d52, 'o'), (0x1d56, 0x1d56, 'p'), (0x1d57, 0x1d58, 't'),
   (0x1d5b, 0x1d5b, 'v'), (0x1d62, 0x1d62, 'i'), (0x1d63, 0x1d63, 'r'), (0x1d64, 0x1d65, 'u'),
   (0x1d9c, 0x1d9c, 'c'), (0x1da0, 0x1da0, 'f'), (0x1dbb, 0x1dbb, 'z'), (0x2071, 0x2071, 'i'),
   (0x207f, 0x207f, 'n'), (0x2090, 0x2090, 'a'), (0x2091, 0x2091, 'e'), (0x2092, 0x2092, 'o'),
   (0x2093, 0x2093, 'x'), (0x2095, 0x2095, 'h'), (0x2096, 0x2099, 'k'), (0x209a, 0x209a, 'p'),
   (0x209b, 0x209c, 's'), (0x210a, 0x210a, 'g'), (0x210e, 0x210e, 'h'), (0x2113, 0x2113, 'l'),
   (0x212f, 0x212f, 'e'), (0x2134, 0x2134, 'o'), (0x2139, 0x2139, 'i'), (0x2146, 0x2147, 'd'),
   (0x2148, 0x2149, 'i'), (0x2170, 0x2170, 'i'), (0x2174, 0x2174, 'v'), (0x2179, 0x2179, 'x'),
   (0x217c, 0x217c, 'l'), (0x217d, 0x217e, 'c'), (0x217f, 0x217f, 'm'), (0x24d0, 0x24e9, 'a'),
   (0x2c7c, 0x2c7c, 'j'), (0xff41, 0xff5a, 'a'), (0x107a5, 0x107a5, 'q'),
   (0x1d41a, 0x1d433, 'a'), (0x1d44e, 0x1d454, 'a'), (0x1d456, 0x1d467, 'i'),
   (0x1d482, 0x1d49b, 'a'), (0x1d4b6, 0x1d4b9, 'a'), (0x1d4bb, 0x1d4bb, 'f'),
   (0x1d4bd, 0x1d4c3, 'h'), (0x1d4c5, 0x1d4cf, 'p'), (0x1d4ea, 0x1d503, 'a'),
   (0x1d51e, 0x1d537, 'a'), (0x1d552, 0x1d56b, 'a'), (0x1d586, 0x1d59f, 'a'),
   (0x1d5ba, 0x1d5d3, 'a'), (0x1d5ee, 0x1d607, 'a'), (0x1d622, 0x1d63b, 'a'),
   (0x1d656, 0x1d66f, 'a'), (0x1d68a, 0x1d6a3, 'a')]

/-- Letters with several plain letters. -/
def ligatures : List (Nat × String) :=
  [(0x133, "ij"), (0x1c9, "lj"), (0x1cc, "nj"), (0x1f3, "dz"), (0x2171, "ii"), (0x2172, "iii"),
   (0x2173, "iv"), (0x2175, "vi"), (0x2176, "vii"), (0x2177, "viii"), (0x2178, "ix"),
   (0x217a, "xi"), (0x217b, "xii"), (0x32cd, "erg"), (0x3372, "da"), (0x3374, "bar"),
   (0x3376, "pc"), (0x3377, "dm"), (0x3388, "cal"), (0x3389, "kcal"), (0x338e, "mg"),
   (0x338f, "kg"), (0x3396, "ml"), (0x3397, "dl"), (0x3398, "kl"), (0x3399, "fm"),
   (0x339a, "nm"), (0x339c, "mm"), (0x339d, "cm"), (0x339e, "km"), (0x33ad, "rad"),
   (0x33b0, "ps"), (0x33b1, "ns"), (0x33b3, "ms"), (0x33c4, "cc"), (0x33c5, "cd"),
   (0x33ca, "ha"), (0x33cc, "in"), (0x33cf, "kt"), (0x33d0, "lm"), (0x33d1, "ln"),
   (0x33d2, "log"), (0x33d3, "lx"), (0x33d4, "mb"), (0x33d5, "mil"), (0x33d6, "mol"),
   (0x33db, "sr"), (0x33ff, "gal"), (0xfb00, "ff"), (0xfb01, "fi"), (0xfb02, "fl"),
   (0xfb03, "ffi"), (0xfb04, "ffl"), (0xfb05, "st"), (0xfb06, "st")]

/-- The small letter of a capital that has a plain form. -/
def lower (c : Char) : Char :=
  if 'A' ≤ c ∧ c ≤ 'Z' then Char.ofNat (c.toNat + 32)
  else if c.toNat < 128 then c
  else
    (capitalRuns.findSome? fun (first, last, small) =>
      if first ≤ c.toNat ∧ c.toNat ≤ last then some (Char.ofNat (small + (c.toNat - first)))
      else none).getD c

/-- The plain form of a letter. -/
def plain (c : Char) : List Char :=
  if c.toNat < 128 then [c]
  else
    ((letterRuns.findSome? fun (first, last, letter) =>
        if first ≤ c.toNat ∧ c.toNat ≤ last then
          some [Char.ofNat (letter.toNat + (c.toNat - first))]
        else none).orElse fun _ =>
      (ligatures.lookup c.toNat).map String.toList).getD [c]

end NodeStore.Text
