/-
# Sentence breaks

The characters of each class of the sentence break property, under the names of the class.
-/

namespace TextPatch.Unicode

/-- The classes, without the one that holds all other characters. -/
def sentenceBreaks : List (String × List String) := [
  ("at aterm",
    ["2e 1ff5 de2d bb"]),
  ("cl close",
    ["22 4.3 31 1 1d 1 2d f e7e.4 75d.2 97b.8 19.2 a.2 36.2 e.2 279.4 1d.2 430.6 7.e 4f.2 1f.a",
    "193.16 3f.4 20.2 402.e e.2 2.a 18 12.8 1ab.a 2.8 1.3 cd1e.2 d7.2 1c.10 2.2 10.6 a9.2 31 1",
    "1d 1 1.2 1.2 f712.3"]),
  ("cr",
    ["d"]),
  ("ex extend",
    ["300.70 113.7 107.2d 1 1.2 1.2 1 48.b 30.15 10 65.7 2.6 2.2 1.4 23 1e.1b 5b.b 3a.9 9 18.4",
    "1.9 1.3 1.5 2b.3 3c.8 2a.18 1.21 36.3 1.12 1.7 a.2 1d.3 38 1.7 2.2 2.3 9 a.2 1a 2.3 38 1.5",
    "4.2 2.3 3 1e.2 3 b.3 38 1.8 1.3 1.3 14.2 16.6 1.3 38 1.7 2.2 2.3 7.3 a.2 1e 3b.5 3.3 1.4 9",
    "28.5 37 1.7 1.3 1.4 7.2 b.2 1d.3 38 1.7 1.3 1.4 7.2 b.2 f c.4 37.2 1.7 1.3 1.4 9 a.2 1d.3",
    "46 4.6 1 1.8 12.2 3d 2.7 c.8 62 2.9 b.7 49.2 1b 1 1 4.2 31.14 1.2 5.b 1.24 9 64.14 17.4",
    "4.3 1.3 2.7 3.4 d.c 1 a.4 2bf.3 3b2.4 1c.3 1d.2 1e.2 40.20 9 2d.3 1 75.2 22 76.c 4.c db.5",
    "39.a 1.1d 2 30.1f 31.5 2f.11 26.9 c.3 1e.d 38.e 30.14 98.3 1.15 4 6 2.3 c6.40 20c.2 c2.21",
    "bfe.3 8d 60.20 22a.6 69.2 75d4.4 1.a 20.2 50.2 110 3 4 17.5 4 53.2 32.12 1a.12 d 26.8 19.d",
    "2c.4 2f.e 24 43.e c 8.2 2d.3 32 1.3 2.2 5.2 1 29.5 5.2 ec.8 1.2 4f30 2e1.10 10.10 16e.2",
    "25d e2 95.5 686.3 1.2 5.4 28.3 4 a5.2 23d.4 183.2 50.3 46.b 31.4 7a.3 35.f 29 2.2 a.4 2d.b",
    "7 3d.3 24.e 10.2 2c c.3 30.e 8.4 1.2 5c.c 6 2 9d.c 15.4 37.2 1.7 2.2 2.3 9 a.2 2.7 3.5",
    "c0.12 17 51.14 eb.7 2.9 1b.2 52.11 6a.d 65.f 100.f f5.6 1.2 2.4 1 1.2 8d.7 2.7 3 1c.a 28.7",
    "1.4 8 9.b 2e.10 195.8 1.8 52.16 1.e 7a.6 3 1.2 1.7 1 42.5 1.2 1.5 15b.4 9.2 1 30.7 3.5",
    "14fd 6.f 369a.5 3b.7 418 1.37 7.4 51 b.2 4cab.2 1261.2e 2.17 21e.5 3.6 8.8 2.7 1e.4 94.3",
    "7bb.37 4.32 8 e 16.5 1.f 550.7 1.11 2.7 1.2 1.5 64 a0.7 177 3d.4 1fc.4 3e0.7 6d.7 c16d5.60",
    "80.f0"]),
  ("fo format",
    ["ad 552.6 16 c0 31 180.2 50 f2b 7fc 2.2 1a.5 31.5 1.a de8f f9.3 10c1 f 2362.10 8860.4",
    "14cf.8 c2e86"]),
  ("le oletter",
    ["1bb 4.4 d0 24.7 6.c 1a 1 85 1e4 76.1b 4.5 2c.2b 23.2 1.63 1 f.2 7.2 a.3 2 10 1.1e 1d.59 b",
    "18.21 9.2 4 5.16 4 9 3 17.19 7.b 5.18 1.6 11.2a 3a.36 3 12 7.a f.10 4.8 2.2 2.16 1.7 1 3.4",
    "3 10 d.2 1.3 e.2 a 8.6 4.2 2.16 1.7 1.2 1.2 1.2 1f.4 1 13.3 10.9 1.3 1.16 1.7 1.2 1.5 3 12",
    "f.2 17 b.8 2.2 2.16 1.7 1.2 1.5 3 1e.2 1.3 f 11 1.6 3.3 1.4 3.2 1 1.2 3.2 3.3 3.c 16 34.8",
    "1.3 1.17 1.10 3 1a.3 2 2.2 1e 4.8 1.3 1.17 1.a 1.5 3 1f.2 1.2 f.2 11.9 1.3 1.29 2 10 5.3",
    "8.3 18.6 5.12 3.18 1.9 1 2.7 3a.30 1.2 c.7 3a.2 1 1.5 1.18 1 1.a 1.2 9 2.5 1 15.4 20 3f.8",
    "1.24 1b.5 73.2b 14 10.6 4.4 3 3.2 7.3 4.d c 41.2b 2.14c 1.4 2.7 1 1.4 2.29 1.4 2.21 1.4",
    "2.7 1 1.4 2.f 1.39 1.4 2.43 25.10 71.26c 2.11 1.1a 5.4b 3.b 7.12 d.13 e.12 e.d 1.3 f.34 23",
    "4 43.59 7.5 2.22 1 5.46 a.1f 31.1e 2.5 b.2c 4.1a 36.17 9.35 52 5d.2f 11.8 36.1e d.2 a.2c",
    "1a.24 29.3 a.24 12.2b 2.3 29.4 1.6 1.2 3 43a.4 47.3 2.4 ba7.38 7 10.17 9.7 1.7 1.7 1.7 1.7",
    "1.7 1.7 1.7 50 1d5.3 19.9 7.5 2.5 4.56 6.3 1.5a 1.4 5.2b 1.5e 11.20 30.10 200.19c0 40.568d",
    "43.2e 2.10d 3.10 a.2 42 10 20.50 27.9 68 6 67 3.7 1.3 1.4 1.17 1d.34 e.32 3e.6 3 1.2 b.1c",
    "a.17 19.1d 7.2f 1c 10.5 1.a a.5 1.29 17.3 1.8 14.17 3 3.32 1 3.2 2.5 2 1 18.3 2.b 7.3 c.6",
    "2.6 2.6 9.7 1.7 91.23 1d.2ba4 c.17 4.31 2104.16e 2.6a 43 1.a 1.d 1.5 1 1.2 1.2 1.6c 21.16b",
    "12.40 2.36 28.c 74.5 1.87 69.38 2.1f 3.6 2.6 2.6 2.3 23.c 1.1a 1.13 1.2 1.f 2.e 22.7b",
    "45.35 10b.1d 3.31 2f.20 d.1e 5.26 a.1e 2.24 4.8 1.5 7a.4e 62.28 8.34 9c.137 9.16 a.8 19.2",
    "7d.6 2 1.2c 1.2 3 2.17 a.17 9.1f 41.13 1.2 a.16 a.1a 46.38 6.2 40 f.4 1.3 1.1d 2a.1d 3.1d",
    "23.8 1.1c 1b.36 a.16 a.13 d.12 6e.49 b7.24 15c.2a 6.2 4e.1d a 8.16 2a.12 2e.15 1b.17 c.35",
    "39.2 2 d.2d 20.19 1a.24 1d 2 8.23 3 c.30 e.4 15 1 23.12 1.19 13.2 3f.7 1 1.4 1.f 1.a 7.2f",
    "26.8 2.2 2.16 1.7 1.2 1.5 3 12 c.5 9e.35 12.4 14.3 1e.30 14.2 1 b8.2f 29.4 24.30 14 3b.2b",
    "d 47.1b 25.7 b9.2c d3.8 2 2.8 1.2 1.18 f 1 5e.8 2.27 10 1 1c a.28 7 15 b.2e 13 12.49 107.9",
    "1.25 11 31.1e 70.7 1.2 1.26 15 19.6 1.2 1.20 e 147.13 f 1.d 1.22 7c 4f.39a 66.6f 11.c4",
    "a4c.61 f.430 11.6 fb9.247 21b9.239 7.1f 11.4f 11.1e 12.30 10.4 1f.15 5.13 370.4b 5 42.d",
    "40.2 1 1c.17f8 8.4d6 2a.9 22e7.4 1.7 1.2 1.123 f 1d.3 2 e.4 8.18c 904.6b 5.d 3.9 7.a 2270",
    "1f5.2d a.7 10 141.1e 12.2c 1e4.1c 2f4.7 1.4 1.2 1.f 1.c5 86 4b4.4 1.1b 1.2 1 2 1.a 1.4 1 1",
    "6 4 1 1 1.3 1.2 1 2 1 1 1 1 1.2 1 2.4 1.7 1.4 1.4 1 1.a 1.11 5.3 1.5 1.11 1144.a6e0",
    "20.103a 6.de 2.1682 e.1d31 c1f.21e 5e2.134b 5.1060"]),
  ("lf",
    ["a"]),
  ("lo lower",
    ["61.1a 2f a 4 24.18 1.8 1 1 1 1 1 1 1 1 1 1 1 1 1 1 1 1 1 1 1 1 1 1 1 1 1 1 1 1.2 1 1 1 1 1",
    "1 1 1.2 1 1 1 1 1 1 1 1 1 1 1 1 1 1 1 1 1 1 1 1 1 1 1 2 1 1.3 2 1 2 3.2 4 2 3.3 2 2 1 1 2",
    "1.2 1 2 3 1 2.2 2.3 6 2 2 1 1 1 1 1 1 1 1.2 1 1 1 1 1 1 1 1 1.2 2 1 3 1 1 1 1 1 1 1 1 1 1",
    "1 1 1 1 1 1 1 1 1 1 1 1 1 1 1 1 1 1 1.7 2 2.2 1 4 1 1 1 1.45 1.24 7.2 1e.5 8c 1 3 2.4 12",
    "1b.23 1.2 3.3 1 1 1 1 1 1 1 1 1 1 1 1.5 1 2 2.2 33.30 1 1 1 1 1 1 1 1 1 1 1 1 1 1 1 1 1 9",
    "1 1 1 1 1 1 1 1 1 1 1 1 1 1 1 1 1 1 1 1 1 1 1 1 1 1 2 1 1 1 1 1 1.2 1 1 1 1 1 1 1 1 1 1 1",
    "1 1 1 1 1 1 1 1 1 1 1 1 1 1 1 1 1 1 1 1 1 1 1 1 1 1 1 1 1 1 1 1 1 1 1 1 1 30.29 b73 2fb.6",
    "882.9 77.c0 41 1 1 1 1 1 1 1 1 1 1 1 1 1 1 1 1 1 1 1 1 1 1 1 1 1 1 1 1 1 1 1 1 1 1 1 1 1 1",
    "1 1 1 1 1 1 1 1 1 1 1 1 1 1 1 1 1 1 1 1 1 1 1 1 1 1 1 1 1 1 1 1 1 1 1 1.9 1 1 1 1 1 1 1 1",
    "1 1 1 1 1 1 1 1 1 1 1 1 1 1 1 1 1 1 1 1 1 1 1 1 1 1 1 1 1 1 1 1 1 1 1 1 1 1 1 1 1.9 8.6",
    "a.8 8.8 8.6 a.8 8.8 8.e 2.8 8.8 8.8 8.5 1.2 6 3.3 1.2 8.4 2.2 8.8 a.3 1.2 79 d 10.d 6d 3.2",
    "3 1b 4 4 2.2 8.4 4 21.10 4 34b.1a 746.30 1 3.2 1 1 1 4 1.2 1.8 3 1 1 1 1 1 1 1 1 1 1 1 1 1",
    "1 1 1 1 1 1 1 1 1 1 1 1 1 1 1 1 1 1 1 1 1 1 1 1 1 1 1 1 1 1 1 1 1 1 1 1.2 7 1 4 c.26 1 5",
    "7913 1 1 1 1 1 1 1 1 1 1 1 1 1 1 1 1 1 1 1 1 1 1 13 1 1 1 1 1 1 1 1 1 1 1 1 1.3 85 1 1 1 1",
    "1 1.3 1 1 1 1 1 1 1 1 1 1 1 1 1 1 1 1 1 1 1 1 1 1 1 1 1 1 1 1 1 1 1.a 1 1 2 1 1 1 1 4 1 2",
    "1.3 1 1 1 1 1 1 1 1 1 1 5 5 1 1 1 1 1 1 1 4 1 6 1 1 1 1 18.3 1 1.3 335.2b 1.e 6.50 4f40.7",
    "c.5 429.1a 4cd.28 88.24 9b.b 1.f 1.7 1.2 1c3 2.3 1.2a 1.9 505.33 bcd.20 5580.20 659a.1a",
    "1a.7 1.12 1a.1a 1a.4 1 1.7 1.b 1a.1a 1a.1a 1a.1a 1a.1a 1a.1a 1a.1a 1a.1a 1a.1a 1a.1c 1c.19",
    "1.6 1a.19 1.6 1a.19 1.6 1a.19 1.6 1a.19 1.6 1 734.a 1.14 6.6 105.3e 8b4.22"]),
  ("nu numeric",
    ["30.a 626.a 1.2 83.a c6.a 19c.a 76.a 76.a 76.a 76.a 76.a 76.a 76.a 76.a 76.a 60.a 76.a 46.a",
    "116.a 46.a 746.a 26.a 12c.a 80.a a6.a 6.a b6.a 56.a 86.a 6.a 89c6.a 2a6.a 26.a c6.a 16.a",
    "56.a 196.a 5316.a 586.a 886.a 32c.a 80.a 3c.a 90.a 116.a 156.a 76.a 176.a 66.a 66.a 1a6.a",
    "66.a 2f6.a f6.a 46.a 1a6.a 4b06.a 56.a 86.a 6c74.32 940.a 1a6.a 1f6.a 456.a 1296.a"]),
  ("sc scontinue",
    ["2c.2 c 522 ae.2 1ea 1009 5 80a.2 fec ce0e.2 1 1d.2 1d.2 3 2 a a8.2 c 49"]),
  ("se sep",
    ["85 1fa2.2"]),
  ("sp",
    ["9 1.2 13 7f 15df 97f.b 24 2f fa0"]),
  ("st sterm",
    ["21 1d 549 93.3 b4 2b.3 f6 3d 1 3.2 125.2 6e4.2 316 4.2 305 c6.2 cc 5 13a.2 162.4 ae.2 2.2",
    "1d.2 bc.2 41.2 3bc.2 9.3 de4 d 16.2 1ad 74fc 10e.2 e3 3 17e.2 56.2 5f 98.2 93.3 90.2 f9",
    "526a.2 a9 1d 41 af4.2 4fd.5 2c.4 bd.2 75.4 7f.3 81.2 6 10.2 58.2 1.2 6c 1a1.2 175.2 5.f",
    "69.2 f9.3 205 1 fb.2 57.2 1a4.2 2b4.2 4a.2 4b29.2 85 41.2 b 353 4e06 1de8"]),
  ("up upper",
    ["41.1a 65.17 1.7 21 1 1 1 1 1 1 1 1 1 1 1 1 1 1 1 1 1 1 1 1 1 1 1 1 1 1 1 2 1 1 1 1 1 1 1 2",
    "1 1 1 1 1 1 1 1 1 1 1 1 1 1 1 1 1 1 1 1 1 1 1.2 1 1 3.2 1 1.2 1.3 2.4 1.2 1.3 3.2 1.2 1 1",
    "1.2 1 2 1.2 1.3 1 1.2 3 7.2 1.2 1.2 1 1 1 1 1 1 1 1 2 1 1 1 1 1 1 1 1 2.2 1 1.3 1 1 1 1 1",
    "1 1 1 1 1 1 1 1 1 1 1 1 1 1 1 1 1 1 1 1 1 1 1 1 7.2 1.2 2 1.4 1 1 1 1 121 1 3 8 6 1.3 1",
    "1.2 1.11 1.9 23 2.3 3 1 1 1 1 1 1 1 1 1 1 1 5 2 1.2 2.33 30 1 1 1 1 1 1 1 1 1 1 1 1 1 1 1",
    "1 9 1 1 1 1 1 1 1 1 1 1 1 1 1 1 1 1 1 1 1 1 1 1 1 1 1 1 1.2 1 1 1 1 1 1 2 1 1 1 1 1 1 1 1",
    "1 1 1 1 1 1 1 1 1 1 1 1 1 1 1 1 1 1 1 1 1 1 1 1 1 1 1 1 1 1 1 1 1 1 1 1 1 1 1 2.26 b49.26",
    "1 5 2d2.56 a0a 1 1 1 1 1 1 1 1 1 1 1 1 1 1 1 1 1 1 1 1 1 1 1 1 1 1 1 1 1 1 1 1 1 1 1 1 1 1",
    "1 1 1 1 1 1 1 1 1 1 1 1 1 1 1 1 1 1 1 1 1 1 1 1 1 1 1 1 1 1 1 1 1 1 1 1 9 1 1 1 1 1 1 1 1",
    "1 1 1 1 1 1 1 1 1 1 1 1 1 1 1 1 1 1 1 1 1 1 1 1 1 1 1 1 1 1 1 1 1 1 1 1 1 1 1 1 9.8 8.6",
    "a.8 8.8 8.6 b 1 1 1 8.8 18.8 8.8 8.8 8.5 b.5 b.4 c.5 b.5 105 4 3.3 2.3 2 3.5 6 1 1 1.4 2.4",
    "a.2 5 1a.10 13 332.1a 730.30 30 1.3 2 1 1 1.4 1 2 8.3 1 1 1 1 1 1 1 1 1 1 1 1 1 1 1 1 1 1",
    "1 1 1 1 1 1 1 1 1 1 1 1 1 1 1 1 1 1 1 1 1 1 1 1 1 1 1 1 1 1 1 8 1 4 794d 1 1 1 1 1 1 1 1 1",
    "1 1 1 1 1 1 1 1 1 1 1 1 1 13 1 1 1 1 1 1 1 1 1 1 1 1 1 87 1 1 1 1 1 1 3 1 1 1 1 1 1 1 1 1",
    "1 1 1 1 1 1 1 1 1 1 1 1 1 1 1 1 1 1 1 1 1 a 1 1.2 1 1 1 1 4 1 2 1 3 1 1 1 1 1 1 1 1 1 1.5",
    "1.5 1 1 1 1 1 1 1 1.4 1 6 5 1 1c 572b.1a 4c5.28 88.24 9c.b 1.f 1.7 1.2 6ea.33 bed.20",
    "5580.20 65a0.1a 1a.1a 1a.1a 1a 1.2 2 2.2 2.4 1.8 1a.1a 1a.2 1.4 2.8 1.7 1b.2 1.4 1.5 1 3.7",
    "1b.1a 1a.1a 1a.1a 1a.1a 1a.1a 1a.1a 1e.19 21.19 21.19 21.19 21.19 21 1135.22 80e.1a 6.1a",
    "6.1a"])]

end TextPatch.Unicode
