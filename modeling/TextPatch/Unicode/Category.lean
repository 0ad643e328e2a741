/-
# General categories

The characters of each general category but surrogates and unassigned ones.  A row holds the names
of the category, short and long, in the form `normalize` gives them, and its characters.
-/

namespace TextPatch.Unicode

/-- The categories that are written out; the others are unions or complements of these. -/
def categories : List (String × List String) := [
  ("lu uppercaseletter",
    ["41.1a 65.17 1.7 21 1 1 1 1 1 1 1 1 1 1 1 1 1 1 1 1 1 1 1 1 1 1 1 1 1 1 1 2 1 1 1 1 1 1 1 2",
    "1 1 1 1 1 1 1 1 1 1 1 1 1 1 1 1 1 1 1 1 1 1 1.2 1 1 3.2 1 1.2 1.3 2.4 1.2 1.3 3.2 1.2 1 1",
    "1.2 1 2 1.2 1.3 1 1.2 3 7 2 2 2 1 1 1 1 1 1 1 2 1 1 1 1 1 1 1 1 2 2 1.3 1 1 1 1 1 1 1 1 1",
    "1 1 1 1 1 1 1 1 1 1 1 1 1 1 1 1 1 1 1 1 7.2 1.2 2 1.4 1 1 1 1 121 1 3 8 6 1.3 1 1.2 1.11",
    "1.9 23 2.3 3 1 1 1 1 1 1 1 1 1 1 1 5 2 1.2 2.33 30 1 1 1 1 1 1 1 1 1 1 1 1 1 1 1 1 9 1 1 1",
    "1 1 1 1 1 1 1 1 1 1 1 1 1 1 1 1 1 1 1 1 1 1 1 1.2 1 1 1 1 1 1 2 1 1 1 1 1 1 1 1 1 1 1 1 1",
    "1 1 1 1 1 1 1 1 1 1 1 1 1 1 1 1 1 1 1 1 1 1 1 1 1 1 1 1 1 1 1 1 1 1 2.26 b49.26 1 5 2d2.56",
    "89a.2b 2.3 140 1 1 1 1 1 1 1 1 1 1 1 1 1 1 1 1 1 1 1 1 1 1 1 1 1 1 1 1 1 1 1 1 1 1 1 1 1 1",
    "1 1 1 1 1 1 1 1 1 1 1 1 1 1 1 1 1 1 1 1 1 1 1 1 1 1 1 1 1 1 1 1 1 1 1 1 9 1 1 1 1 1 1 1 1",
    "1 1 1 1 1 1 1 1 1 1 1 1 1 1 1 1 1 1 1 1 1 1 1 1 1 1 1 1 1 1 1 1 1 1 1 1 1 1 1 1 9.8 8.6",
    "a.8 8.8 8.6 b 1 1 1 8.8 48.4 c.4 c.4 c.5 b.4 106 4 3.3 2.3 2 3.5 6 1 1 1.4 2.4 a.2 5 3d",
    "a7c.30 30 1.3 2 1 1 1.4 1 2 8.3 1 1 1 1 1 1 1 1 1 1 1 1 1 1 1 1 1 1 1 1 1 1 1 1 1 1 1 1 1",
    "1 1 1 1 1 1 1 1 1 1 1 1 1 1 1 1 1 1 1 1 8 1 4 794d 1 1 1 1 1 1 1 1 1 1 1 1 1 1 1 1 1 1 1 1",
    "1 1 13 1 1 1 1 1 1 1 1 1 1 1 1 1 87 1 1 1 1 1 1 3 1 1 1 1 1 1 1 1 1 1 1 1 1 1 1 1 1 1 1 1",
    "1 1 1 1 1 1 1 1 1 1 a 1 1.2 1 1 1 1 4 1 2 1 3 1 1 1 1 1 1 1 1 1 1.5 1.5 1 1 1 1 1 1 1 1.4",
    "1 6 5 1 1c 572b.1a 4c5.28 88.24 9c.b 1.f 1.7 1.2 6ea.33 bed.20 5580.20 65a0.1a 1a.1a 1a.1a",
    "1a 1.2 2 2.2 2.4 1.8 1a.1a 1a.2 1.4 2.8 1.7 1b.2 1.4 1.5 1 3.7 1b.1a 1a.1a 1a.1a 1a.1a",
    "1a.1a 1a.1a 1e.19 21.19 21.19 21.19 21.19 21 1135.22"]),
  ("ll lowercaseletter",
    ["61.1a 3a 29.18 1.8 1 1 1 1 1 1 1 1 1 1 1 1 1 1 1 1 1 1 1 1 1 1 1 1 1 1 1 1.2 1 1 1 1 1 1 1",
    "1.2 1 1 1 1 1 1 1 1 1 1 1 1 1 1 1 1 1 1 1 1 1 1 1 2 1 1.3 2 1 2 3.2 4 2 3.3 2 2 1 1 2 1.2",
    "1 2 3 1 2.2 2.3 6 2 2 1 1 1 1 1 1 1 1.2 1 1 1 1 1 1 1 1 1.2 2 1 3 1 1 1 1 1 1 1 1 1 1 1 1",
    "1 1 1 1 1 1 1 1 1 1 1 1 1 1 1 1 1.7 2 2.2 1 4 1 1 1 1.45 1.1b c1 1 3 3.3 12 1b.23 1.2 3.3",
    "1 1 1 1 1 1 1 1 1 1 1 1.5 1 2 2.2 33.30 1 1 1 1 1 1 1 1 1 1 1 1 1 1 1 1 1 9 1 1 1 1 1 1 1",
    "1 1 1 1 1 1 1 1 1 1 1 1 1 1 1 1 1 1 1 2 1 1 1 1 1 1.2 1 1 1 1 1 1 1 1 1 1 1 1 1 1 1 1 1 1",
    "1 1 1 1 1 1 1 1 1 1 1 1 1 1 1 1 1 1 1 1 1 1 1 1 1 1 1 1 1 1 30.29 b47.2b 2.3 2f8.6 882.9",
    "77.2c 3f.d 1.22 66 1 1 1 1 1 1 1 1 1 1 1 1 1 1 1 1 1 1 1 1 1 1 1 1 1 1 1 1 1 1 1 1 1 1 1 1",
    "1 1 1 1 1 1 1 1 1 1 1 1 1 1 1 1 1 1 1 1 1 1 1 1 1 1 1 1 1 1 1 1 1 1 1 1 1 1.9 1 1 1 1 1 1",
    "1 1 1 1 1 1 1 1 1 1 1 1 1 1 1 1 1 1 1 1 1 1 1 1 1 1 1 1 1 1 1 1 1 1 1 1 1 1 1 1 1 1 1.9",
    "8.6 a.8 8.8 8.6 a.8 8.8 8.e 2.8 8.8 8.8 8.5 1.2 6 3.3 1.2 8.4 2.2 8.8 a.3 1.2 112 3.2 3 1b",
    "4 4 2.2 8.4 4 35 aab.30 1 3.2 1 1 1 4 1.2 1.6 5 1 1 1 1 1 1 1 1 1 1 1 1 1 1 1 1 1 1 1 1 1",
    "1 1 1 1 1 1 1 1 1 1 1 1 1 1 1 1 1 1 1 1 1 1 1 1 1 1 1 1.2 7 1 4 c.26 1 5 7913 1 1 1 1 1 1",
    "1 1 1 1 1 1 1 1 1 1 1 1 1 1 1 1 13 1 1 1 1 1 1 1 1 1 1 1 1 1 87 1 1 1 1 1 1.3 1 1 1 1 1 1",
    "1 1 1 1 1 1 1 1 1 1 1 1 1 1 1 1 1 1 1 1 1 1 1 1 1 1.8 1 1 2 1 1 1 1 4 1 2 1.3 1 1 1 1 1 1",
    "1 1 1 1 5 5 1 1 1 1 1 1 1 4 1 6 1 1 1 1 1c 3 335.2b 5.9 7.50 4f40.7 c.5 429.1a 4cd.28",
    "88.24 9b.b 1.f 1.7 1.2 703.33 bcd.20 5580.20 659a.1a 1a.7 1.12 1a.1a 1a.4 1 1.7 1.b 1a.1a",
    "1a.1a 1a.1a 1a.1a 1a.1a 1a.1a 1a.1a 1a.1a 1a.1c 1c.19 1.6 1a.19 1.6 1a.19 1.6 1a.19 1.6",
    "1a.19 1.6 1 734.a 1.14 6.6 9f7.22"]),
  ("lt titlecaseletter",
    ["1c5 2 2 26 1d95.8 8.8 8.8 c f 2f"]),
  ("lm modifierletter",
    ["2b0.12 4.c e.5 7 1 85 5 1de e6 a4.2 10d.2 4 1f 9 3 a0 a7 4d4 7f 235 6da 6b 263 1d0.6 ae.3f",
    "d 22.25 2b1 d 10.d bdf.2 f1 bf 1d5 2b.5 5 61.2 5d.3 6f16 4e2.6 10e 72 1c.2 79.9 50 17 69.3",
    "3.2 1d5 16 89 6c 15.2 67.4 9 5406 2d.2 7e0.6 1.2a 1.9 6385.4 44f.d 40.2 1 400c.4 1.7 1.2",
    "3031.3e c9.7 3ad 45f"]),
  ("lo otherletter",
    ["aa f 100 4.4 d0 33b.1b 4.4 2d.20 1.a 23.2 1.63 1 18.2 a.3 2 10 1.1e 1d.59 b 18.21 15.16",
    "2a.19 7.b 5.18 1.6 11.29 3b.36 3 12 7.a 10.f 4.8 2.2 2.16 1.7 1 3.4 3 10 d.2 1.3 e.2 a 8.6",
    "4.2 2.16 1.7 1.2 1.2 1.2 1f.4 1 13.3 10.9 1.3 1.16 1.7 1.2 1.5 3 12 f.2 17 b.8 2.2 2.16",
    "1.7 1.2 1.5 3 1e.2 1.3 f 11 1.6 3.3 1.4 3.2 1 1.2 3.2 3.3 3.c 16 34.8 1.3 1.17 1.10 3 1a.3",
    "2 2.2 1e 4.8 1.3 1.17 1.a 1.5 3 1f.2 1.2 f.2 11.9 1.3 1.29 2 10 5.3 8.3 18.6 5.12 3.18 1.9",
    "1 2.7 3a.30 1.2 c.6 3b.2 1 1.5 1.18 1 1.a 1.2 9 2.5 17.4 20 3f.8 1.24 1b.5 73.2b 14 10.6",
    "4.4 3 3.2 7.3 4.d c 71.149 1.4 2.7 1 1.4 2.29 1.4 2.21 1.4 2.7 1 1.4 2.f 1.39 1.4 2.43",
    "25.10 71.26c 2.11 1.1a 5.4b 6.8 7.12 d.13 e.12 e.d 1.3 f.34 28 43.23 1.35 7.5 2.22 1 5.46",
    "a.1f 31.1e 2.5 b.2c 4.1a 36.17 9.35 b0.2f 11.8 36.1e d.2 a.2c 1a.24 29.3 a.1e 71.4 1.6 1.2",
    "3 43a.4 bf7.38 18.17 9.7 1.7 1.7 1.7 1.7 1.7 1.7 1.7 227 35 4.56 8 1.5a 4 5.2b 1.5e 11.20",
    "30.10 200.19c0 40.5215 1.477 43.28 8.10c 4.10 a.2 42 31.46 a9 67 3.7 1.3 1.4 1.17 1d.34",
    "e.32 3e.6 3 1.2 b.1c a.17 19.1d 7.2f 2d.5 2.9 a.5 1.29 17.3 1.8 14.10 1.6 3 3.32 1 3.2 2.5",
    "2 1 18.2 3.b 7 e.6 2.6 2.6 9.7 1.7 91.23 1d.2ba4 c.17 4.31 2104.16e 2.6a 43 1.a 1.d 1.5 1",
    "1.2 1.2 1.6c 21.16b 12.40 2.36 28.c 74.5 1.87 69.a 1.2d 2.1f 3.6 2.6 2.6 2.3 23.c 1.1a",
    "1.13 1.2 1.f 2.e 22.7b 185.1d 3.31 2f.20 d.14 1.8 6.26 a.1e 2.24 4.8 80.4e 62.28 8.34",
    "9c.137 9.16 a.8 98.6 2 1.2c 1.2 3 2.17 a.17 9.1f 41.13 1.2 a.16 a.1a 46.38 6.2 40 f.4 1.3",
    "1.1d 2a.1d 3.1d 23.8 1.1c 1b.36 a.16 a.13 d.12 6e.49 b7.24 15c.2a 6.2 4e.1d a 8.16 2a.12",
    "2e.15 1b.17 c.35 39.2 2 d.2d 20.19 1a.24 1d 2 8.23 3 c.30 e.4 15 1 23.12 1.19 13.2 3f.7 1",
    "1.4 1.f 1.a 7.2f 26.8 2.2 2.16 1.7 1.2 1.5 3 12 c.5 9e.35 12.4 14.3 1e.30 14.2 1 b8.2f",
    "29.4 24.30 14 3b.2b d 47.1b 25.7 b9.2c d3.8 2 2.8 1.2 1.18 f 1 5e.8 2.27 10 1 1c a.28 7 15",
    "b.2e 13 12.49 107.9 1.25 11 31.1e 70.7 1.2 1.26 15 19.6 1.2 1.20 e 147.13 f 1.d 1.22 7c",
    "4f.39a e6.c4 a4c.61 f.430 11.6 fb9.247 21b9.239 7.1f 11.4f 11.1e 12.30 33.15 5.13 370.4b 5",
    "af.17f8 8.4d6 2a.9 22f7.123 f 1d.3 2 e.4 8.18c 904.6b 5.d 3.9 7.a 2270 1f5.2d 21 141.1e",
    "12.2c 1e4.1b 2f5.7 1.4 1.2 1.f 1.c5 53b.4 1.1b 1.2 1 2 1.a 1.4 1 1 6 4 1 1 1.3 1.2 1 2 1 1",
    "1 1 1.2 1 2.4 1.7 1.4 1.4 1 1.a 1.11 5.3 1.5 1.11 1144.a6e0 20.103a 6.de 2.1682 e.1d31",
    "c1f.21e 5e2.134b 5.1060"]),
  ("mn nonspacingmark",
    ["300.70 113.5 109.2d 1 1.2 1.2 1 48.b 30.15 10 65.7 2.6 2.2 1.4 23 1e.1b 5b.b 3a.9 9 18.4",
    "1.9 1.3 1.5 2b.3 3c.8 2a.18 1.20 37 1 4.8 4 3.7 a.2 1d 3a 4.4 8 14.2 1a 2.2 39 4.2 4.2 2.3",
    "3 1e.2 3 b.2 39 4.5 1.2 4 14.2 16.6 1 3a 2 1.4 8 7.2 b.2 1e 3d c 32 3 37 1.3 5.3 1.4 7.2",
    "b.2 1d 3a 2 6 5.2 14.2 1c.2 39.2 4.4 8 14.2 1d 48 7.3 1 5a 2.7 c.8 62 2.9 b.7 49.2 1b 1 1",
    "37.e 1.5 1.2 5.b 1.24 9 66.4 1.6 1.2 2.2 19.2 4.3 10.4 d 2.2 6 f 2bf.3 3b2.3 1d.2 1e.2",
    "1e.2 40.2 1.7 8 2.b 9 2d.3 1 75.2 22 76.3 4.2 9 6.3 db.2 2 3a 1.7 1 1 2.8 6.a 2 30.e 1.10",
    "31.4 30 1.5 1 5 28.9 c.2 20.4 2.2 1.3 38 1.2 3 1.3 3a.8 2.2 98.3 1.d 1.7 4 6 3.2 c6.40",
    "2d0.d 4 3.c bfe.3 8d 60.20 22a.4 6b.2 75d4 4.a 20.2 50.2 110 3 4 19.2 5 97.2 1a.12 d 26.8",
    "19.b 2e.3 30 2.4 2.2 27 43.6 2.2 2.2 c 8 2f 33 1.3 2.2 5.2 1 2a.2 8 ee 2 4 4f30 2e1.10",
    "10.10 3cd e2 95.5 686.3 1.2 5.4 28.3 4 a5.2 23d.4 183.2 50.3 46.b 31.4 7b 36.f 29 2.2 a.3",
    "31.4 2.2 7 3d.3 24.5 1.8 3e c.2 34.9 a.4 2 5f.3 2 1.2 6 2 9d 3.8 15.2 39.2 3 25.7 3.5 c3.8",
    "2.3 1 17 54.6 1 4.2 1.2 ee.4 6.2 1.2 1b.2 55.8 2 1.2 6a 1 2.6 1 65.3 2.4 1.5 103.9 1.2",
    "100.2 1 4 90.4 2.2 4 20.a 28.6 2.4 8 9.6 2.3 2e.d 1.2 196.7 1.6 1 52.16 2.7 1.2 1.2 7a.6 3",
    "1.2 1.7 1 48.2 3 1 15b.2 b.2 34.5 5 1 14fd 6.f 369a.5 3b.7 418 3f.4 51 4cb8.2 1261.2e 2.17",
    "220.3 11.8 2.7 1e.4 94.3 7bb.37 4.32 8 e 16.5 1.f 550.7 1.11 2.7 1.2 1.5 64 a0.7 177 3d.4",
    "1fc.4 3e0.7 6d.7 c17b5.f0"]),
  ("mc spacingmark",
    ["903 37 2.3 8.4 1.2 32.2 3a.3 6.2 2.2 a 2b 3a.3 42 3a.3 8 1.2 35.2 3a 1 6.2 2.2 a 66.2 1.2",
    "3.3 1.3 a 29.3 3d.4 3d.2 3a 1.5 2.2 1.2 9.2 1c e.2 3a.3 5.3 1.3 a 2a.2 4b.3 6.8 12.2 14a.2",
    "3f ab.2 4 6 2.2 19.2 a.3 2.7 15.2 2.6 2 a.3 678 1e 81 7.8 1.2 15a.4 2.3 4.2 1.6 e0.2 3a 1",
    "9 1.2 8.6 91 30 5 1.5 1.2 3d 1e 4.2 2 3c 2.3 1 3.2 30.8 8.2 ab 15 1336.2 77f3.2 2 58.2",
    "32.10 8e.2 2f 30.2 4.2 2.3 6e.2 2.2 18 2d 1 6d 2.2 5 ed.2 1.2 1.2 1 6413 1 7f 2d.3 4.2 73",
    "18.2 3b 30.3 9.2 d 5d.3 3.2 1 aa.3 1f.2 3a.2 1.4 2.2 2.3 9 a.2 d1.3 8.2 3 6a.3 6 1.4 2",
    "ed.3 6.4 2 71.3 8.2 1 6d 1.2 6 69.2 4 105.3 9 f7.6 1.2 4 2 1 8e.3 8.4 4 54 1d.2 3e 197 e",
    "6a 7 2 d5.5 4.2 1 15e.2 c 30.2 8.2 1 500f.37 68.2 6173.2 6.6"]),
  ("enclosingmark me",
    ["488.2 1634 61e.4 1.3 858b.3"]),
  ("decimalnumber digit nd",
    ["30.a 626.a 86.a c6.a 19c.a 76.a 76.a 76.a 76.a 76.a 76.a 76.a 76.a 76.a 60.a 76.a 46.a",
    "116.a 46.a 746.a 26.a 12c.a 80.a a6.a 6.a b6.a 56.a 86.a 6.a 89c6.a 2a6.a 26.a c6.a 16.a",
    "56.a 196.a 5316.a 586.a 886.a 32c.a 80.a 3c.a 90.a 116.a 156.a 76.a 176.a 66.a 66.a 1a6.a",
    "66.a 2f6.a f6.a 46.a 1a6.a 4b06.a 56.a 86.a 6c74.32 940.a 1a6.a 1f6.a 456.a 1296.a"]),
  ("letternumber nl",
    ["16ee.3 a6f.23 2.4 e7e 19.9 e.3 76ab.a 5a50.35 1cc 8 86.5 202a.6f"]),
  ("no othernumber",
    ["b2.2 5 2.3 935.6 178.6 78.3 85.7 d9.7 11.9 1b1.a 435.14 473.a 1e0 695 3.6 6.a c6.10 29",
    "2d6.3c 4e.16 276.1e 569 494.4 8a.a 1e.8 1.f 20.a 27.f 7570.6 58d1.2d 41.4 11.2 155.1b 24.4",
    "534.8 19.7 27.9 4b.5 16.6 a0.2 2.10 2.2e 40.9 34.2 1e.3 4b.5 68.8 18.8 29.7 14a.6 160.1f",
    "9e.a 2a.4 70.7 86.14 17b.14 545.2 1ae.9 367.13 353.15 4b86.7 31e.17 6429.14 c.14 6c.19",
    "154e.9 3a1.3b 1.3 1.4 4c.2d 1.f 3c2.d"]),
  ("connectorpunctuation pc",
    ["5f 1fdf.2 13 ddde.2 18.3 ef"]),
  ("dashpunctuation pd",
    ["2d 55c 33 e41 405 809.6 e01 2 1f.2 4 1c 1be 13 6f cd90.2 25 a a9 f9f"]),
  ("openpunctuation ps",
    ["28 32 1f ebe 1 75e 97e 3 26 37 f 27a 1 1e 43e 1 1 1 1 1 1 50 20 1 1 1 1 194 1 1 1 1 1 1 1",
    "1 1 1 40 1 21 425 1 1 1 19 12 1 1 1 1ac 1 1 1 1 3 1 1 1 2 cd21 d7 1d 1 1 1 1 1 1 1 3 11 1",
    "1 aa 32 1f 3 2"]),
  ("closepunctuation pe",
    ["29 33 1f ebd 1 75e 9a9 37 f 27a 1 1e 43e 1 1 1 1 1 1 50 20 1 1 1 1 194 1 1 1 1 1 1 1 1 1 1",
    "40 1 21 425 1 1 1 2c 1 1 1 1ac 1 1 1 1 3 1 1 1 2.2 cd1e d9 1d 1 1 1 1 1 1 1 3 11 1 1 aa 33",
    "1f 2 2"]),
  ("initialpunctuation pi",
    ["ab 1f6c 2.2 2 19 dc8 1 4 2 f 3"]),
  ("finalpunctuation pf",
    ["bb 1f5d 3 1c dc8 1 4 2 f 3"]),
  ("otherpunctuation po",
    ["21.3 1.3 2 1 1.2 a.2 3.2 1b 44 5 e.2 7 2be 8 1d2.6 29 36 2 2 2c.2 14.2 1.2 d 1.3 4a.4 66",
    "2b.e e9.3 36.f 1f 105.2 a 8c 78 79 186 c 16f 5a a.2 a8.f 1 70 4a.5 4.2 6f.6 ab 264.9 305",
    "7c.3 47.2 9d.3 1.3 25.6 1.4 139.2 d8.2 80.7 1.6 ac.7 1c.2 7d.4 3b.5 3e.2 40.8 b 342.2 8.8",
    "8.9 2.4 2.3 3.b 1 1.a c9a.4 1.2 70 8f.2 4.3 2 2.9 1.2 1 2.2 a.5 1.a 2.4 1 1.d 2.3 1ac.3 39",
    "bd 7402.2 10d.3 63 a 73.6 17c.4 56.2 28.3 1 31.2 2f 61.d 10.2 7c.4 7e.2 10.2 f9 5224.7 2",
    "16 14.2 2.4 3.3 1.4 7.3 6 1.2 95.3 1.3 2 1 1.2 a.2 3.2 1b 24 2.2 19a.3 29c 30 19e 2e7 c7",
    "1f 110.9 26 70.7 42.7 59.4 3b8.5 2c.4 bd.7 6d.2 1.4 7e.4 30.2 4f.4 4 d 1.3 58.6 6b 1a1.5",
    "a.2 1 68 fa.17 69.3 1c.d 4c 82.3 fc 108.3 9b 5c.8 53.3 1.5 5d.a 137.5 2a.2 285.2 4a.d af",
    "470.5 b7c.2 3a7b.2 85 41.5 8 352.4 147 4cbc 1de7.5 ed2.2"]),
  ("mathsymbol sm",
    ["2b 10.3 3d 1 2d 4 25 1f 2fe 20f.3 1a3b d 27.3 d.3 8b 27.5 6 44.5 5.2 4 2 2 7 1f.2 2 1",
    "1f.10c 20.2 5a 1e.19 28.6 1d5 9 36.8 6f 150.5 2.1f a.10 100.83 16.3f 4.20 2.102 30.15 2.6",
    "cfdc 338 1.3 a4 10.3 3d 1 83 6.4 d6d4 19 1f 19 1f 19 1f 19 1f 19 172c.2"]),
  ("currencysymbol sc",
    ["24 7d.4 4e9 7b 1f2.2 1f2.2 7 f5 107 245 99b 8c4.21 8777 55c3 6c 9a db.2 3.2 1ff6.4 c31e",
    "9b0"]),
  ("modifiersymbol sk",
    ["5e 1 47 6 4 3 209.4 c.e 5.7 1 1.11 75 e.2 502 1734 1.3 b.3 d.3 d.3 d.2 109c.2 7663.17 9.2",
    "67.2 3d0 e.2 5046.11 37b 1 a2 f417.5"]),
  ("othersymbol so",
    ["a6 2 4 1 3d1 10a.2 7f.2 ce a 13.2 f7 203 175 82.6 1 84 cf 29 187.3 f 1.3 2.6 14 1 1 85.8",
    "1.6 1.2 5.4 c5.2 2f0.a 2d3 2d2 9d.22 161.a 9.9 583.2 1.4 1.2 a 1.2 6.6 1 1 1 4 b.2 e 1.2 1",
    "3a.2 9.5 2.4 1.2 1.2 1.7 1.1f 2.2 1 1.1f 10c.8 4.14 2.7 2.51 1.1e 19.28 6.45 19.b 51.4e",
    "16.b7 1.9 1.36 8.6f 1.f8 2c.2c 40.100 200.30 15.2 6.27 2.20 1.69 e5.6 165.2 2e.1a 1.59",
    "c.d6 1a.c 8 d.2 c 15.2 6.2 150.2 4.a 20.24 1c.1f b.1e 8 f.20 a.27 f.140 19c0.40 5690.37",
    "361.4 a.2 1 23d.3 52c6.10 7f 2d.3 1e4 3 4.2 d.2 139.9 39.11 2.3 1.d 3 2f.2d 67a.2 24f c76",
    "895.8 4.11 4b4a.4 5 5156 12b3.74 3c.f6 a.27 2.3c 5.3 16.2 7.1e 4.3d 15.42 3 ba.57 4a9.200",
    "37.4 32.8 1.e 1.2 6c8 b5c 81 2d1.2c 4.64 c.f 2.f 1.f 1.25 17.a1 38.1d d.2c 4.9 7.2 e.6",
    "9a.fb 5.2d8 4.11 3.d 3.77 4.5f 6.c 4 f.c 4.38 8.a 6.28 8.1e 2.2 4e.154 c.e 2.d 3.9 7.2e",
    "1.7 8.e 4.9 7.9 7.93 1.37"]),
  ("spaceseparator zs",
    ["20 7f 15df 97f.b 24 2f fa0"]),
  ("lineseparator zl",
    ["2028"]),
  ("paragraphseparator zp",
    ["2029"]),
  ("cc cntrl control",
    ["0.20 5f.21"]),
  ("cf format",
    ["ad 552.6 16 c0 31 180.2 50 f2b 7fc.5 1a.5 31.5 1.a de8f f9.3 10c1 f 2362.10 8860.4 14cf.8",
    "c2e86 1e.60"]),
  ("co privateuse",
    ["e000.1900 e0700.fffe 2.fffe"])]

end TextPatch.Unicode
