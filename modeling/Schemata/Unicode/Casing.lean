import Schemata.Unicode.CategoryData

/-!
# `Schemata.Unicode.Casing` — letter case

## Contents
- `caseKey`: characters that differ in case alone have the same key, so a comparison that ignores case
  compares keys.
- `lower`: the lower-case form of a text, character by character but for a sigma at the end of a word.
- `capitals`: the capital form of a character as far as it consists of letters from A to Z.
-/

namespace Schemata.Unicode

/-- Each character that shares its letter with a smaller one, as its distance from the last such
character and the step to the smaller one. -/
def caseKeyTable : List (Nat × Int) := stepsOfText
  "61 -20 1 -20 1 -20 1 -20 1 -20 1 -20 1 -20 1 -20 1 -20 1 -20 1 -20 1 -20 1 -20 1 -20
   1 -20 1 -20 1 -20 1 -20 1 -20 1 -20 1 -20 1 -20 1 -20 1 -20 1 -20 1 -20 66 -20 1 -20
   1 -20 1 -20 1 -20 1 -20 1 -20 1 -20 1 -20 1 -20 1 -20 1 -20 1 -20 1 -20 1 -20 1 -20
   1 -20 1 -20 1 -20 1 -20 1 -20 1 -20 1 -20 2 -20 1 -20 1 -20 1 -20 1 -20 1 -20 1 -20
   3 -1 2 -1 2 -1 2 -1 2 -1 2 -1 2 -1 2 -1 2 -1 2 -1 2 -1 2 -1 2 -1 2 -1 2 -1 2 -1 2 -1
   2 -1 2 -1 2 -1 2 -1 2 -1 2 -1 2 -1 4 -1 2 -1 2 -1 3 -1 2 -1 2 -1 2 -1 2 -1 2 -1 2 -1
   2 -1 3 -1 2 -1 2 -1 2 -1 2 -1 2 -1 2 -1 2 -1 2 -1 2 -1 2 -1 2 -1 2 -1 2 -1 2 -1 2 -1
   2 -1 2 -1 2 -1 2 -1 2 -1 2 -1 2 -1 1 -79 2 -1 2 -1 2 -1 1 -12c 4 -1 2 -1 3 -1 4 -1 6 -1
   7 -1 8 -1 2 -1 2 -1 3 -1 5 -1 3 -1 4 -1 2 -1 3 -1 4 -1 8 -1 1 -2 2 -1 1 -2 2 -1 1 -2
   2 -1 2 -1 2 -1 2 -1 2 -1 2 -1 2 -1 2 -1 1 -4f 2 -1 2 -1 2 -1 2 -1 2 -1 2 -1 2 -1 2 -1
   2 -1 3 -1 1 -2 2 -1 1 -61 1 -38 2 -1 2 -1 2 -1 2 -1 2 -1 2 -1 2 -1 2 -1 2 -1 2 -1 2 -1
   2 -1 2 -1 2 -1 2 -1 2 -1 2 -1 2 -1 2 -1 2 -1 1 -82 3 -1 2 -1 2 -1 2 -1 2 -1 2 -1 2 -1
   2 -1 2 -1 9 -1 1 -a3 5 -1 1 -c3 4 -1 2 -1 2 -1 2 -1 2 -1 4 -d2 1 -ce 2 -cd 1 -cd 2 -ca
   2 -cb 5 -cd 3 -cf 5 -d1 1 -d3 6 -d3 3 -d5 3 -d6 b -da 3 -da 5 -da 1 -45 1 -d9 1 -d9
   1 -47 6 -db df -1 2 -1 4 -1 22 -54 3 -2e7 10 -26 1 -25 1 -25 1 -25 2 -20 1 -20 1 -20
   1 -20 1 -20 1 -20 1 -20 1 -20 1 -74 1 -20 1 -20 1 -307 1 -20 1 -20 1 -20 1 -20 1 -20
   1 -1f 1 -20 1 -20 1 -20 1 -20 1 -20 1 -20 1 -20 1 -20 1 -20 1 -40 1 -3f 1 -3f 2 -3e
   1 -39 4 -2f 1 -36 1 -8 2 -1 2 -1 2 -1 2 -1 2 -1 2 -1 2 -1 2 -1 2 -1 2 -1 2 -1 2 -1
   1 -56 1 -50 2 -74 1 -5c 1 -60 3 -1 1 -7 2 -1 2 -82 1 -82 1 -82 31 -20 1 -20 1 -20 1 -20
   1 -20 1 -20 1 -20 1 -20 1 -20 1 -20 1 -20 1 -20 1 -20 1 -20 1 -20 1 -20 1 -20 1 -20
   1 -20 1 -20 1 -20 1 -20 1 -20 1 -20 1 -20 1 -20 1 -20 1 -20 1 -20 1 -20 1 -20 1 -20
   1 -50 1 -50 1 -50 1 -50 1 -50 1 -50 1 -50 1 -50 1 -50 1 -50 1 -50 1 -50 1 -50 1 -50
   1 -50 1 -50 2 -1 2 -1 2 -1 2 -1 2 -1 2 -1 2 -1 2 -1 2 -1 2 -1 2 -1 2 -1 2 -1 2 -1 2 -1
   2 -1 2 -1 a -1 2 -1 2 -1 2 -1 2 -1 2 -1 2 -1 2 -1 2 -1 2 -1 2 -1 2 -1 2 -1 2 -1 2 -1
   2 -1 2 -1 2 -1 2 -1 2 -1 2 -1 2 -1 2 -1 2 -1 2 -1 2 -1 2 -1 3 -1 2 -1 2 -1 2 -1 2 -1
   2 -1 2 -1 1 -f 2 -1 2 -1 2 -1 2 -1 2 -1 2 -1 2 -1 2 -1 2 -1 2 -1 2 -1 2 -1 2 -1 2 -1
   2 -1 2 -1 2 -1 2 -1 2 -1 2 -1 2 -1 2 -1 2 -1 2 -1 2 -1 2 -1 2 -1 2 -1 2 -1 2 -1 2 -1
   2 -1 2 -1 2 -1 2 -1 2 -1 2 -1 2 -1 2 -1 2 -1 2 -1 2 -1 2 -1 2 -1 2 -1 2 -1 2 -1 2 -1
   32 -30 1 -30 1 -30 1 -30 1 -30 1 -30 1 -30 1 -30 1 -30 1 -30 1 -30 1 -30 1 -30 1 -30
   1 -30 1 -30 1 -30 1 -30 1 -30 1 -30 1 -30 1 -30 1 -30 1 -30 1 -30 1 -30 1 -30 1 -30
   1 -30 1 -30 1 -30 1 -30 1 -30 1 -30 1 -30 1 -30 1 -30 1 -30 e72 -8 1 -8 1 -8 1 -8 1 -8
   1 -8 883 -186e 1 -186d 1 -1864 1 -1862 1 -1862 1 -1863 1 -185c 1 -1825 3 -1 6 -bc0
   1 -bc0 1 -bc0 1 -bc0 1 -bc0 1 -bc0 1 -bc0 1 -bc0 1 -bc0 1 -bc0 1 -bc0 1 -bc0 1 -bc0
   1 -bc0 1 -bc0 1 -bc0 1 -bc0 1 -bc0 1 -bc0 1 -bc0 1 -bc0 1 -bc0 1 -bc0 1 -bc0 1 -bc0
   1 -bc0 1 -bc0 1 -bc0 1 -bc0 1 -bc0 1 -bc0 1 -bc0 1 -bc0 1 -bc0 1 -bc0 1 -bc0 1 -bc0
   1 -bc0 1 -bc0 1 -bc0 1 -bc0 1 -bc0 1 -bc0 3 -bc0 1 -bc0 1 -bc0 142 -1 2 -1 2 -1 2 -1
   2 -1 2 -1 2 -1 2 -1 2 -1 2 -1 2 -1 2 -1 2 -1 2 -1 2 -1 2 -1 2 -1 2 -1 2 -1 2 -1 2 -1
   2 -1 2 -1 2 -1 2 -1 2 -1 2 -1 2 -1 2 -1 2 -1 2 -1 2 -1 2 -1 2 -1 2 -1 2 -1 2 -1 2 -1
   2 -1 2 -1 2 -1 2 -1 2 -1 2 -1 2 -1 2 -1 2 -1 2 -1 2 -1 2 -1 2 -1 2 -1 2 -1 2 -1 2 -1
   2 -1 2 -1 2 -1 2 -1 2 -1 2 -1 2 -1 2 -1 2 -1 2 -1 2 -1 2 -1 2 -1 2 -1 2 -1 2 -1 2 -1
   2 -1 2 -1 2 -1 6 -3b 3 -1dbf 3 -1 2 -1 2 -1 2 -1 2 -1 2 -1 2 -1 2 -1 2 -1 2 -1 2 -1
   2 -1 2 -1 2 -1 2 -1 2 -1 2 -1 2 -1 2 -1 2 -1 2 -1 2 -1 2 -1 2 -1 2 -1 2 -1 2 -1 2 -1
   2 -1 2 -1 2 -1 2 -1 2 -1 2 -1 2 -1 2 -1 2 -1 2 -1 2 -1 2 -1 2 -1 2 -1 2 -1 2 -1 2 -1
   2 -1 2 -1 2 -1 9 -8 1 -8 1 -8 1 -8 1 -8 1 -8 1 -8 1 -8 9 -8 1 -8 1 -8 1 -8 1 -8 1 -8
   b -8 1 -8 1 -8 1 -8 1 -8 1 -8 1 -8 1 -8 9 -8 1 -8 1 -8 1 -8 1 -8 1 -8 1 -8 1 -8 9 -8
   1 -8 1 -8 1 -8 1 -8 1 -8 c -8 2 -8 2 -8 2 -8 9 -8 1 -8 1 -8 1 -8 1 -8 1 -8 1 -8 1 -8
   19 -8 1 -8 1 -8 1 -8 1 -8 1 -8 1 -8 1 -8 9 -8 1 -8 1 -8 1 -8 1 -8 1 -8 1 -8 1 -8 9 -8
   1 -8 1 -8 1 -8 1 -8 1 -8 1 -8 1 -8 9 -8 1 -8 1 -4a 1 -4a 1 -9 2 -1c79 a -56 1 -56 1 -56
   1 -56 1 -9 c -8 1 -8 1 -64 1 -64 d -8 1 -8 1 -70 1 -70 1 -7 c -80 1 -80 1 -7e 1 -7e
   1 -9 12a -1d7d 4 -20df 1 -2066 23 -1c 22 -10 1 -10 1 -10 1 -10 1 -10 1 -10 1 -10 1 -10
   1 -10 1 -10 1 -10 1 -10 1 -10 1 -10 1 -10 1 -10 5 -1 34c -1a 1 -1a 1 -1a 1 -1a 1 -1a
   1 -1a 1 -1a 1 -1a 1 -1a 1 -1a 1 -1a 1 -1a 1 -1a 1 -1a 1 -1a 1 -1a 1 -1a 1 -1a 1 -1a
   1 -1a 1 -1a 1 -1a 1 -1a 1 -1a 1 -1a 1 -1a 747 -30 1 -30 1 -30 1 -30 1 -30 1 -30 1 -30
   1 -30 1 -30 1 -30 1 -30 1 -30 1 -30 1 -30 1 -30 1 -30 1 -30 1 -30 1 -30 1 -30 1 -30
   1 -30 1 -30 1 -30 1 -30 1 -30 1 -30 1 -30 1 -30 1 -30 1 -30 1 -30 1 -30 1 -30 1 -30
   1 -30 1 -30 1 -30 1 -30 1 -30 1 -30 1 -30 1 -30 1 -30 1 -30 1 -30 1 -30 1 -30 2 -1
   1 -29f7 1 -ee6 1 -29e7 1 -2a2b 1 -2a28 2 -1 2 -1 2 -1 1 -2a1c 1 -29fd 1 -2a1f 1 -2a1e
   3 -1 3 -1 8 -2a3f 1 -2a3f 2 -1 2 -1 2 -1 2 -1 2 -1 2 -1 2 -1 2 -1 2 -1 2 -1 2 -1 2 -1
   2 -1 2 -1 2 -1 2 -1 2 -1 2 -1 2 -1 2 -1 2 -1 2 -1 2 -1 2 -1 2 -1 2 -1 2 -1 2 -1 2 -1
   2 -1 2 -1 2 -1 2 -1 2 -1 2 -1 2 -1 2 -1 2 -1 2 -1 2 -1 2 -1 2 -1 2 -1 2 -1 2 -1 2 -1
   2 -1 2 -1 2 -1 2 -1 9 -1 2 -1 5 -1 d -1c60 1 -1c60 1 -1c60 1 -1c60 1 -1c60 1 -1c60
   1 -1c60 1 -1c60 1 -1c60 1 -1c60 1 -1c60 1 -1c60 1 -1c60 1 -1c60 1 -1c60 1 -1c60 1 -1c60
   1 -1c60 1 -1c60 1 -1c60 1 -1c60 1 -1c60 1 -1c60 1 -1c60 1 -1c60 1 -1c60 1 -1c60 1 -1c60
   1 -1c60 1 -1c60 1 -1c60 1 -1c60 1 -1c60 1 -1c60 1 -1c60 1 -1c60 1 -1c60 1 -1c60 2 -1c60
   6 -1c60 7914 -1 2 -1 2 -1 2 -1 2 -1 1 -89c2 1 -89c3 2 -1 2 -1 2 -1 2 -1 2 -1 2 -1 2 -1
   2 -1 2 -1 2 -1 2 -1 2 -1 2 -1 2 -1 2 -1 2 -1 2 -1 14 -1 2 -1 2 -1 2 -1 2 -1 2 -1 2 -1
   2 -1 2 -1 2 -1 2 -1 2 -1 2 -1 2 -1 88 -1 2 -1 2 -1 2 -1 2 -1 2 -1 2 -1 4 -1 2 -1 2 -1
   2 -1 2 -1 2 -1 2 -1 2 -1 2 -1 2 -1 2 -1 2 -1 2 -1 2 -1 2 -1 2 -1 2 -1 2 -1 2 -1 2 -1
   2 -1 2 -1 2 -1 2 -1 2 -1 2 -1 2 -1 2 -1 2 -1 2 -1 2 -1 b -1 2 -1 1 -8a04 2 -1 2 -1 2 -1
   2 -1 2 -1 5 -1 1 -a528 4 -1 2 -1 4 -1 2 -1 2 -1 2 -1 2 -1 2 -1 2 -1 2 -1 2 -1 2 -1
   1 -a544 1 -a54f 1 -a54b 1 -a541 1 -a544 2 -a512 1 -a52a 1 -a515 3 -1 2 -1 2 -1 2 -1
   2 -1 2 -1 2 -1 2 -1 1 -30 1 -a543 1 -8a38 2 -1 2 -1 1 -a567 2 -1 2 -1 2 -1 2 -1 2 -1
   2 -1 2 -1 2 -1 1 -a641 1a -1 35d -3a0 1d -97d0 1 -97d0 1 -97d0 1 -97d0 1 -97d0 1 -97d0
   1 -97d0 1 -97d0 1 -97d0 1 -97d0 1 -97d0 1 -97d0 1 -97d0 1 -97d0 1 -97d0 1 -97d0 1 -97d0
   1 -97d0 1 -97d0 1 -97d0 1 -97d0 1 -97d0 1 -97d0 1 -97d0 1 -97d0 1 -97d0 1 -97d0 1 -97d0
   1 -97d0 1 -97d0 1 -97d0 1 -97d0 1 -97d0 1 -97d0 1 -97d0 1 -97d0 1 -97d0 1 -97d0 1 -97d0
   1 -97d0 1 -97d0 1 -97d0 1 -97d0 1 -97d0 1 -97d0 1 -97d0 1 -97d0 1 -97d0 1 -97d0 1 -97d0
   1 -97d0 1 -97d0 1 -97d0 1 -97d0 1 -97d0 1 -97d0 1 -97d0 1 -97d0 1 -97d0 1 -97d0 1 -97d0
   1 -97d0 1 -97d0 1 -97d0 1 -97d0 1 -97d0 1 -97d0 1 -97d0 1 -97d0 1 -97d0 1 -97d0 1 -97d0
   1 -97d0 1 -97d0 1 -97d0 1 -97d0 1 -97d0 1 -97d0 1 -97d0 1 -97d0 5382 -20 1 -20 1 -20
   1 -20 1 -20 1 -20 1 -20 1 -20 1 -20 1 -20 1 -20 1 -20 1 -20 1 -20 1 -20 1 -20 1 -20
   1 -20 1 -20 1 -20 1 -20 1 -20 1 -20 1 -20 1 -20 1 -20 4ce -28 1 -28 1 -28 1 -28 1 -28
   1 -28 1 -28 1 -28 1 -28 1 -28 1 -28 1 -28 1 -28 1 -28 1 -28 1 -28 1 -28 1 -28 1 -28
   1 -28 1 -28 1 -28 1 -28 1 -28 1 -28 1 -28 1 -28 1 -28 1 -28 1 -28 1 -28 1 -28 1 -28
   1 -28 1 -28 1 -28 1 -28 1 -28 1 -28 1 -28 89 -28 1 -28 1 -28 1 -28 1 -28 1 -28 1 -28
   1 -28 1 -28 1 -28 1 -28 1 -28 1 -28 1 -28 1 -28 1 -28 1 -28 1 -28 1 -28 1 -28 1 -28
   1 -28 1 -28 1 -28 1 -28 1 -28 1 -28 1 -28 1 -28 1 -28 1 -28 1 -28 1 -28 1 -28 1 -28
   1 -28 9c -27 1 -27 1 -27 1 -27 1 -27 1 -27 1 -27 1 -27 1 -27 1 -27 1 -27 2 -27 1 -27
   1 -27 1 -27 1 -27 1 -27 1 -27 1 -27 1 -27 1 -27 1 -27 1 -27 1 -27 1 -27 1 -27 2 -27
   1 -27 1 -27 1 -27 1 -27 1 -27 1 -27 2 -27 1 -27 704 -40 1 -40 1 -40 1 -40 1 -40 1 -40
   1 -40 1 -40 1 -40 1 -40 1 -40 1 -40 1 -40 1 -40 1 -40 1 -40 1 -40 1 -40 1 -40 1 -40
   1 -40 1 -40 1 -40 1 -40 1 -40 1 -40 1 -40 1 -40 1 -40 1 -40 1 -40 1 -40 1 -40 1 -40
   1 -40 1 -40 1 -40 1 -40 1 -40 1 -40 1 -40 1 -40 1 -40 1 -40 1 -40 1 -40 1 -40 1 -40
   1 -40 1 -40 1 -40 7e -20 1 -20 1 -20 1 -20 1 -20 1 -20 1 -20 1 -20 1 -20 1 -20 1 -20
   1 -20 1 -20 1 -20 1 -20 1 -20 1 -20 1 -20 1 -20 1 -20 1 -20 1 -20 b3b -20 1 -20 1 -20
   1 -20 1 -20 1 -20 1 -20 1 -20 1 -20 1 -20 1 -20 1 -20 1 -20 1 -20 1 -20 1 -20 1 -20
   1 -20 1 -20 1 -20 1 -20 1 -20 1 -20 1 -20 1 -20 1 -20 1 -20 1 -20 1 -20 1 -20 1 -20
   1 -20 5581 -20 1 -20 1 -20 1 -20 1 -20 1 -20 1 -20 1 -20 1 -20 1 -20 1 -20 1 -20 1 -20
   1 -20 1 -20 1 -20 1 -20 1 -20 1 -20 1 -20 1 -20 1 -20 1 -20 1 -20 1 -20 1 -20 1 -20
   1 -20 1 -20 1 -20 1 -20 1 -20 3c -1b 1 -1b 1 -1b 1 -1b 1 -1b 1 -1b 1 -1b 1 -1b 1 -1b
   1 -1b 1 -1b 1 -1b 1 -1b 1 -1b 1 -1b 1 -1b 1 -1b 1 -1b 1 -1b 1 -1b 1 -1b 1 -1b 1 -1b
   1 -1b 1 -1b 7a4f -22 1 -22 1 -22 1 -22 1 -22 1 -22 1 -22 1 -22 1 -22 1 -22 1 -22 1 -22
   1 -22 1 -22 1 -22 1 -22 1 -22 1 -22 1 -22 1 -22 1 -22 1 -22 1 -22 1 -22 1 -22 1 -22
   1 -22 1 -22 1 -22 1 -22 1 -22 1 -22 1 -22 1 -22"

/-- Each character that has a single lower-case form of its own, as its distance from the last such
character and the step to that form. -/
def lowerTable : List (Nat × Int) := stepsOfText
  "41 20 1 20 1 20 1 20 1 20 1 20 1 20 1 20 1 20 1 20 1 20 1 20 1 20 1 20 1 20 1 20 1 20
   1 20 1 20 1 20 1 20 1 20 1 20 1 20 1 20 1 20 66 20 1 20 1 20 1 20 1 20 1 20 1 20 1 20
   1 20 1 20 1 20 1 20 1 20 1 20 1 20 1 20 1 20 1 20 1 20 1 20 1 20 1 20 1 20 2 20 1 20
   1 20 1 20 1 20 1 20 1 20 22 1 2 1 2 1 2 1 2 1 2 1 2 1 2 1 2 1 2 1 2 1 2 1 2 1 2 1 2 1
   2 1 2 1 2 1 2 1 2 1 2 1 2 1 2 1 2 1 4 1 2 1 2 1 3 1 2 1 2 1 2 1 2 1 2 1 2 1 2 1 3 1 2 1
   2 1 2 1 2 1 2 1 2 1 2 1 2 1 2 1 2 1 2 1 2 1 2 1 2 1 2 1 2 1 2 1 2 1 2 1 2 1 2 1 2 1
   2 -79 1 1 2 1 2 1 4 d2 1 1 2 1 2 ce 1 1 2 cd 1 cd 1 1 3 4f 1 ca 1 cb 1 1 2 cd 1 cf 2 d3
   1 d1 1 1 4 d3 1 d5 2 d6 1 1 2 1 2 1 2 da 1 1 2 da 3 1 2 da 1 1 2 d9 1 d9 1 1 2 1 2 db
   1 1 4 1 8 2 1 1 2 2 1 1 2 2 1 1 2 1 2 1 2 1 2 1 2 1 2 1 2 1 2 1 3 1 2 1 2 1 2 1 2 1 2 1
   2 1 2 1 2 1 3 2 1 1 2 1 2 -61 1 -38 1 1 2 1 2 1 2 1 2 1 2 1 2 1 2 1 2 1 2 1 2 1 2 1 2 1
   2 1 2 1 2 1 2 1 2 1 2 1 2 1 2 -82 2 1 2 1 2 1 2 1 2 1 2 1 2 1 2 1 2 1 8 2a2b 1 1 2 -a3
   1 2a28 3 1 2 -c3 1 45 1 47 1 1 2 1 2 1 2 1 2 1 122 1 2 1 4 1 9 74 7 26 2 25 1 25 1 25
   2 40 2 3f 1 3f 2 20 1 20 1 20 1 20 1 20 1 20 1 20 1 20 1 20 1 20 1 20 1 20 1 20 1 20
   1 20 1 20 1 20 2 20 1 20 1 20 1 20 1 20 1 20 1 20 1 20 1 20 24 8 9 1 2 1 2 1 2 1 2 1
   2 1 2 1 2 1 2 1 2 1 2 1 2 1 6 -3c 3 1 2 -7 1 1 3 -82 1 -82 1 -82 1 50 1 50 1 50 1 50
   1 50 1 50 1 50 1 50 1 50 1 50 1 50 1 50 1 50 1 50 1 50 1 50 1 20 1 20 1 20 1 20 1 20
   1 20 1 20 1 20 1 20 1 20 1 20 1 20 1 20 1 20 1 20 1 20 1 20 1 20 1 20 1 20 1 20 1 20
   1 20 1 20 1 20 1 20 1 20 1 20 1 20 1 20 1 20 1 20 31 1 2 1 2 1 2 1 2 1 2 1 2 1 2 1 2 1
   2 1 2 1 2 1 2 1 2 1 2 1 2 1 2 1 a 1 2 1 2 1 2 1 2 1 2 1 2 1 2 1 2 1 2 1 2 1 2 1 2 1 2 1
   2 1 2 1 2 1 2 1 2 1 2 1 2 1 2 1 2 1 2 1 2 1 2 1 2 1 2 f 1 1 2 1 2 1 2 1 2 1 2 1 2 1 3 1
   2 1 2 1 2 1 2 1 2 1 2 1 2 1 2 1 2 1 2 1 2 1 2 1 2 1 2 1 2 1 2 1 2 1 2 1 2 1 2 1 2 1 2 1
   2 1 2 1 2 1 2 1 2 1 2 1 2 1 2 1 2 1 2 1 2 1 2 1 2 1 2 1 2 1 2 1 2 1 2 1 2 1 2 1 2 1 2 1
   2 1 2 1 2 1 3 30 1 30 1 30 1 30 1 30 1 30 1 30 1 30 1 30 1 30 1 30 1 30 1 30 1 30 1 30
   1 30 1 30 1 30 1 30 1 30 1 30 1 30 1 30 1 30 1 30 1 30 1 30 1 30 1 30 1 30 1 30 1 30
   1 30 1 30 1 30 1 30 1 30 1 30 b4a 1c60 1 1c60 1 1c60 1 1c60 1 1c60 1 1c60 1 1c60 1 1c60
   1 1c60 1 1c60 1 1c60 1 1c60 1 1c60 1 1c60 1 1c60 1 1c60 1 1c60 1 1c60 1 1c60 1 1c60
   1 1c60 1 1c60 1 1c60 1 1c60 1 1c60 1 1c60 1 1c60 1 1c60 1 1c60 1 1c60 1 1c60 1 1c60
   1 1c60 1 1c60 1 1c60 1 1c60 1 1c60 1 1c60 2 1c60 6 1c60 2d3 97d0 1 97d0 1 97d0 1 97d0
   1 97d0 1 97d0 1 97d0 1 97d0 1 97d0 1 97d0 1 97d0 1 97d0 1 97d0 1 97d0 1 97d0 1 97d0
   1 97d0 1 97d0 1 97d0 1 97d0 1 97d0 1 97d0 1 97d0 1 97d0 1 97d0 1 97d0 1 97d0 1 97d0
   1 97d0 1 97d0 1 97d0 1 97d0 1 97d0 1 97d0 1 97d0 1 97d0 1 97d0 1 97d0 1 97d0 1 97d0
   1 97d0 1 97d0 1 97d0 1 97d0 1 97d0 1 97d0 1 97d0 1 97d0 1 97d0 1 97d0 1 97d0 1 97d0
   1 97d0 1 97d0 1 97d0 1 97d0 1 97d0 1 97d0 1 97d0 1 97d0 1 97d0 1 97d0 1 97d0 1 97d0
   1 97d0 1 97d0 1 97d0 1 97d0 1 97d0 1 97d0 1 97d0 1 97d0 1 97d0 1 97d0 1 97d0 1 97d0
   1 97d0 1 97d0 1 97d0 1 97d0 1 8 1 8 1 8 1 8 1 8 1 8 89b -bc0 1 -bc0 1 -bc0 1 -bc0
   1 -bc0 1 -bc0 1 -bc0 1 -bc0 1 -bc0 1 -bc0 1 -bc0 1 -bc0 1 -bc0 1 -bc0 1 -bc0 1 -bc0
   1 -bc0 1 -bc0 1 -bc0 1 -bc0 1 -bc0 1 -bc0 1 -bc0 1 -bc0 1 -bc0 1 -bc0 1 -bc0 1 -bc0
   1 -bc0 1 -bc0 1 -bc0 1 -bc0 1 -bc0 1 -bc0 1 -bc0 1 -bc0 1 -bc0 1 -bc0 1 -bc0 1 -bc0
   1 -bc0 1 -bc0 1 -bc0 3 -bc0 1 -bc0 1 -bc0 141 1 2 1 2 1 2 1 2 1 2 1 2 1 2 1 2 1 2 1 2 1
   2 1 2 1 2 1 2 1 2 1 2 1 2 1 2 1 2 1 2 1 2 1 2 1 2 1 2 1 2 1 2 1 2 1 2 1 2 1 2 1 2 1 2 1
   2 1 2 1 2 1 2 1 2 1 2 1 2 1 2 1 2 1 2 1 2 1 2 1 2 1 2 1 2 1 2 1 2 1 2 1 2 1 2 1 2 1 2 1
   2 1 2 1 2 1 2 1 2 1 2 1 2 1 2 1 2 1 2 1 2 1 2 1 2 1 2 1 2 1 2 1 2 1 2 1 2 1 2 1 a -1dbf
   2 1 2 1 2 1 2 1 2 1 2 1 2 1 2 1 2 1 2 1 2 1 2 1 2 1 2 1 2 1 2 1 2 1 2 1 2 1 2 1 2 1 2 1
   2 1 2 1 2 1 2 1 2 1 2 1 2 1 2 1 2 1 2 1 2 1 2 1 2 1 2 1 2 1 2 1 2 1 2 1 2 1 2 1 2 1 2 1
   2 1 2 1 2 1 2 1 a -8 1 -8 1 -8 1 -8 1 -8 1 -8 1 -8 1 -8 9 -8 1 -8 1 -8 1 -8 1 -8 1 -8
   b -8 1 -8 1 -8 1 -8 1 -8 1 -8 1 -8 1 -8 9 -8 1 -8 1 -8 1 -8 1 -8 1 -8 1 -8 1 -8 9 -8
   1 -8 1 -8 1 -8 1 -8 1 -8 c -8 2 -8 2 -8 2 -8 9 -8 1 -8 1 -8 1 -8 1 -8 1 -8 1 -8 1 -8
   19 -8 1 -8 1 -8 1 -8 1 -8 1 -8 1 -8 1 -8 9 -8 1 -8 1 -8 1 -8 1 -8 1 -8 1 -8 1 -8 9 -8
   1 -8 1 -8 1 -8 1 -8 1 -8 1 -8 1 -8 9 -8 1 -8 1 -4a 1 -4a 1 -9 c -56 1 -56 1 -56 1 -56
   1 -9 c -8 1 -8 1 -64 1 -64 d -8 1 -8 1 -70 1 -70 1 -7 c -80 1 -80 1 -7e 1 -7e 1 -9
   12a -1d5d 4 -20bf 1 -2046 7 1c 2e 10 1 10 1 10 1 10 1 10 1 10 1 10 1 10 1 10 1 10 1 10
   1 10 1 10 1 10 1 10 1 10 14 1 333 1a 1 1a 1 1a 1 1a 1 1a 1 1a 1 1a 1 1a 1 1a 1 1a 1 1a
   1 1a 1 1a 1 1a 1 1a 1 1a 1 1a 1 1a 1 1a 1 1a 1 1a 1 1a 1 1a 1 1a 1 1a 1 1a 731 30 1 30
   1 30 1 30 1 30 1 30 1 30 1 30 1 30 1 30 1 30 1 30 1 30 1 30 1 30 1 30 1 30 1 30 1 30
   1 30 1 30 1 30 1 30 1 30 1 30 1 30 1 30 1 30 1 30 1 30 1 30 1 30 1 30 1 30 1 30 1 30
   1 30 1 30 1 30 1 30 1 30 1 30 1 30 1 30 1 30 1 30 1 30 1 30 31 1 2 -29f7 1 -ee6 1 -29e7
   3 1 2 1 2 1 2 -2a1c 1 -29fd 1 -2a1f 1 -2a1e 2 1 3 1 9 -2a3f 1 -2a3f 1 1 2 1 2 1 2 1 2 1
   2 1 2 1 2 1 2 1 2 1 2 1 2 1 2 1 2 1 2 1 2 1 2 1 2 1 2 1 2 1 2 1 2 1 2 1 2 1 2 1 2 1 2 1
   2 1 2 1 2 1 2 1 2 1 2 1 2 1 2 1 2 1 2 1 2 1 2 1 2 1 2 1 2 1 2 1 2 1 2 1 2 1 2 1 2 1 2 1
   2 1 9 1 2 1 5 1 794e 1 2 1 2 1 2 1 2 1 2 1 2 1 2 1 2 1 2 1 2 1 2 1 2 1 2 1 2 1 2 1 2 1
   2 1 2 1 2 1 2 1 2 1 2 1 14 1 2 1 2 1 2 1 2 1 2 1 2 1 2 1 2 1 2 1 2 1 2 1 2 1 2 1 88 1
   2 1 2 1 2 1 2 1 2 1 2 1 4 1 2 1 2 1 2 1 2 1 2 1 2 1 2 1 2 1 2 1 2 1 2 1 2 1 2 1 2 1 2 1
   2 1 2 1 2 1 2 1 2 1 2 1 2 1 2 1 2 1 2 1 2 1 2 1 2 1 2 1 2 1 b 1 2 1 2 -8a04 1 1 2 1 2 1
   2 1 2 1 5 1 2 -a528 3 1 2 1 4 1 2 1 2 1 2 1 2 1 2 1 2 1 2 1 2 1 2 1 2 -a544 1 -a54f
   1 -a54b 1 -a541 1 -a544 2 -a512 1 -a52a 1 -a515 1 3a0 1 1 2 1 2 1 2 1 2 1 2 1 2 1 2 1
   2 -30 1 -a543 1 -8a38 1 1 2 1 7 1 6 1 2 1 1d 1 572c 20 1 20 1 20 1 20 1 20 1 20 1 20
   1 20 1 20 1 20 1 20 1 20 1 20 1 20 1 20 1 20 1 20 1 20 1 20 1 20 1 20 1 20 1 20 1 20
   1 20 1 20 4c6 28 1 28 1 28 1 28 1 28 1 28 1 28 1 28 1 28 1 28 1 28 1 28 1 28 1 28 1 28
   1 28 1 28 1 28 1 28 1 28 1 28 1 28 1 28 1 28 1 28 1 28 1 28 1 28 1 28 1 28 1 28 1 28
   1 28 1 28 1 28 1 28 1 28 1 28 1 28 1 28 89 28 1 28 1 28 1 28 1 28 1 28 1 28 1 28 1 28
   1 28 1 28 1 28 1 28 1 28 1 28 1 28 1 28 1 28 1 28 1 28 1 28 1 28 1 28 1 28 1 28 1 28
   1 28 1 28 1 28 1 28 1 28 1 28 1 28 1 28 1 28 1 28 9d 27 1 27 1 27 1 27 1 27 1 27 1 27
   1 27 1 27 1 27 1 27 2 27 1 27 1 27 1 27 1 27 1 27 1 27 1 27 1 27 1 27 1 27 1 27 1 27
   1 27 1 27 2 27 1 27 1 27 1 27 1 27 1 27 1 27 2 27 1 27 6eb 40 1 40 1 40 1 40 1 40 1 40
   1 40 1 40 1 40 1 40 1 40 1 40 1 40 1 40 1 40 1 40 1 40 1 40 1 40 1 40 1 40 1 40 1 40
   1 40 1 40 1 40 1 40 1 40 1 40 1 40 1 40 1 40 1 40 1 40 1 40 1 40 1 40 1 40 1 40 1 40
   1 40 1 40 1 40 1 40 1 40 1 40 1 40 1 40 1 40 1 40 1 40 bee 20 1 20 1 20 1 20 1 20 1 20
   1 20 1 20 1 20 1 20 1 20 1 20 1 20 1 20 1 20 1 20 1 20 1 20 1 20 1 20 1 20 1 20 1 20
   1 20 1 20 1 20 1 20 1 20 1 20 1 20 1 20 1 20 5581 20 1 20 1 20 1 20 1 20 1 20 1 20 1 20
   1 20 1 20 1 20 1 20 1 20 1 20 1 20 1 20 1 20 1 20 1 20 1 20 1 20 1 20 1 20 1 20 1 20
   1 20 1 20 1 20 1 20 1 20 1 20 1 20 7aa1 22 1 22 1 22 1 22 1 22 1 22 1 22 1 22 1 22 1 22
   1 22 1 22 1 22 1 22 1 22 1 22 1 22 1 22 1 22 1 22 1 22 1 22 1 22 1 22 1 22 1 22 1 22
   1 22 1 22 1 22 1 22 1 22 1 22 1 22"

/-- The least character that differs from `c` in case alone. -/
def caseKey (c : Char) : Char :=
  if c.toNat < 'a'.toNat then c
  else if c.toNat < 128 then (if c.isLower then c.toUpper else c)
  else stepFrom caseKeyTable c

/-- Whether two characters are equal when case is ignored. -/
def sameIgnoringCase (a b : Char) : Bool := caseKey a == caseKey b

/-- The lower-case form of a character other than the dotted capital I. -/
def lowerChar (c : Char) : Char :=
  if c.toNat < 128 then c.toLower else stepFrom lowerTable c

/-- Whether a character has case. -/
def isCased (c : Char) : Bool :=
  uppercaseRuns.contains c.toNat || lowercaseRuns.contains c.toNat || titlecaseLetterRuns.contains c.toNat

/-- Marks in the midst of words. -/
def wordMarks : List Char := ['\'', '.', ':', '\u00b7', '\u0387', '\u055f', '\u05f4', '\u2018', '\u2019',
  '\u2024', '\u2027', '\ufe13', '\ufe52', '\ufe55', '\uff07', '\uff0e', '\uff1a']

/-- Whether a character is passed over where it matters whether a word goes on. -/
def isCaseIgnorable (c : Char) : Bool :=
  wordMarks.contains c || [nonspacingMarkRuns, enclosingMarkRuns, formatRuns, modifierLetterRuns,
    modifierSymbolRuns].any fun runs => runs.contains c.toNat

/-- Whether the first character that is not passed over has case. -/
def startsCased (cs : List Char) : Bool := (cs.dropWhile isCaseIgnorable).head?.any isCased

/-- The lower-case forms of characters with others in front of them, nearest first. The dotted capital I becomes
two characters, and a capital sigma that ends a word has a form of its own. -/
def lowerFrom (before : List Char) : List Char → List Char
  | [] => []
  | c :: after =>
    let form :=
      if c = '\u0130' then ['i', '\u0307']
      else if c = '\u03a3' ∧ startsCased before ∧ !startsCased after then ['\u03c2']
      else [lowerChar c]
    form ++ lowerFrom (c :: before) after

/-- The lower-case form of a text. -/
def lower (s : String) : String := String.ofList (lowerFrom [] s.toList)

/-- The capital form of a character if it consists of letters from A to Z, else the character. -/
def capitals (c : Char) : List Char :=
  if c.toNat < 128 then [c.toUpper]
  else
    match c with
    | '\u00df' => ['S', 'S']
    | '\u0131' => ['I']
    | '\u017f' => ['S']
    | '\ufb00' => ['F', 'F']
    | '\ufb01' => ['F', 'I']
    | '\ufb02' => ['F', 'L']
    | '\ufb03' => ['F', 'F', 'I']
    | '\ufb04' => ['F', 'F', 'L']
    | '\ufb05' => ['S', 'T']
    | '\ufb06' => ['S', 'T']
    | _ => [c]

end Schemata.Unicode
