/-
The tables that goyacc generated for the grammar of LogQL
(`logql/v2/expr.y.go`).
-/

import McoaGateway.Goyacc.Engine

namespace McoaGateway.Logql

def exprExca : List Int :=
  [-1, 1, 1, -1, -2, 0]

def exprAct : List Int :=
  [200, 71, 60, 59, 187, 4, 170, 5, 154, 168, 8, 115, 6, 58, 100, 219, 50, 183, 153, 172, 45, 46,
    47, 48, 49, 50, 97, 47, 48, 49, 50, 175, 177, 178, 79, 42, 43, 44, 51, 52, 55, 56, 53, 54, 45,
    46, 47, 48, 49, 50, 82, 121, 2, 153, 309, 310, 305, 306, 202, 57, 288, 289, 99, 51, 52, 55,
    56, 53, 54, 45, 46, 47, 48, 49, 50, 272, 117, 344, 118, 151, 125, 119, 126, 42, 43, 44, 51,
    52, 55, 56, 53, 54, 45, 46, 47, 48, 49, 50, 130, 132, 133, 202, 176, 181, 182, 179, 180, 285,
    286, 160, 357, 159, 229, 152, 151, 72, 73, 155, 173, 246, 342, 188, 225, 193, 11, 203, 58,
    226, 198, 113, 199, 195, 196, 134, 356, 137, 138, 139, 140, 141, 142, 143, 144, 145, 146, 147,
    148, 149, 150, 207, 43, 44, 51, 52, 55, 56, 53, 54, 45, 46, 47, 48, 49, 50, 218, 188, 214,
    215, 216, 131, 243, 185, 57, 230, 333, 162, 163, 164, 70, 68, 263, 262, 249, 228, 315, 353,
    249, 227, 232, 352, 114, 314, 270, 238, 239, 236, 99, 237, 241, 242, 119, 235, 249, 247, 185,
    351, 12, 13, 64, 65, 66, 67, 62, 254, 256, 202, 302, 249, 72, 73, 350, 249, 185, 301, 347,
    186, 258, 249, 297, 295, 346, 265, 261, 249, 338, 269, 341, 11, 188, 290, 271, 273, 264, 244,
    99, 99, 14, 276, 69, 280, 274, 278, 7, 279, 15, 16, 17, 30, 31, 33, 34, 32, 35, 36, 37, 38,
    39, 40, 18, 19, 249, 188, 294, 340, 296, 249, 298, 202, 287, 99, 268, 202, 20, 21, 22, 23, 24,
    25, 26, 27, 28, 29, 202, 248, 41, 10, 336, 316, 202, 317, 331, 233, 318, 135, 136, 192, 191,
    202, 324, 326, 98, 329, 330, 332, 328, 11, 240, 325, 249, 12, 13, 284, 337, 339, 14, 68, 323,
    327, 343, 345, 7, 202, 15, 16, 17, 30, 31, 33, 34, 32, 35, 36, 37, 38, 39, 40, 18, 19, 322,
    249, 257, 202, 251, 321, 64, 65, 66, 67, 62, 202, 20, 21, 22, 23, 24, 25, 26, 27, 28, 29, 255,
    249, 41, 10, 250, 312, 311, 189, 204, 240, 190, 308, 307, 291, 11, 267, 194, 266, 68, 221,
    213, 212, 184, 14, 69, 68, 275, 12, 13, 120, 124, 15, 16, 17, 30, 31, 33, 34, 32, 35, 36, 37,
    38, 39, 40, 18, 19, 64, 65, 66, 67, 62, 123, 122, 64, 65, 66, 67, 62, 20, 21, 22, 23, 24, 25,
    26, 27, 28, 29, 74, 202, 41, 10, 349, 348, 320, 319, 224, 222, 217, 283, 282, 153, 197, 245,
    206, 80, 69, 68, 201, 205, 223, 14, 220, 69, 234, 12, 13, 7, 78, 15, 16, 17, 30, 31, 33, 34,
    32, 35, 36, 37, 38, 39, 40, 18, 19, 68, 64, 65, 66, 67, 62, 156, 76, 300, 299, 157, 158, 20,
    21, 22, 23, 24, 25, 26, 27, 28, 29, 128, 75, 41, 10, 157, 158, 355, 64, 65, 66, 67, 62, 161,
    354, 116, 127, 335, 334, 129, 69, 313, 304, 303, 14, 293, 292, 259, 12, 13, 120, 253, 15, 16,
    17, 30, 31, 33, 34, 32, 35, 36, 37, 38, 39, 40, 18, 19, 69, 68, 252, 231, 211, 210, 209, 208,
    112, 277, 167, 166, 20, 21, 22, 23, 24, 25, 26, 27, 28, 29, 165, 281, 41, 10, 171, 169, 260,
    156, 64, 65, 66, 67, 62, 112, 80, 9, 77, 3, 81, 61, 63, 174, 1, 102, 105, 101, 0, 12, 13, 0,
    0, 107, 109, 104, 0, 0, 0, 0, 0, 0, 0, 0, 0, 0, 0, 0, 0, 0, 69, 103, 106, 0, 0, 0, 0, 0, 0, 0,
    0, 108, 110, 111, 83, 84, 85, 86, 87, 88, 89, 90, 91, 92, 93, 94, 95, 96]

def exprPact : List Int :=
  [308, -1000, -45, -1000, -1000, -1000, -1000, 308, 443, 156, 417, -1000, 502, 486, 452, -1000,
    -1000, -1000, -1000, -1000, -1000, -1000, -1000, -1000, -1000, -1000, -1000, -1000, -1000,
    -1000, -1000, -1000, -1000, -1000, -1000, -1000, -1000, -1000, -1000, -1000, -1000, -1000, 10,
    10, 10, 10, 10, 10, 10, 10, 10, 10, 10, 10, 10, 10, 10, 3, 287, 443, -1000, -1000, 559, 124,
    -1000, -1000, -1000, -1000, -1000, -1000, 515, 401, 400, 378, 308, -1000, -1000, 506, -1000,
    -1000, 85, 230, -1000, 230, 230, 230, 230, 230, 230, 230, 230, 230, 230, 230, 230, 230, 230,
    -1000, -1000, -1000, 33, 488, 580, -1000, 105, 572, 561, 560, -1000, 578, 577, 577, 18, -63,
    370, 202, 357, 283, 282, 380, 377, -45, 446, 436, 355, 440, 435, -1000, -1000, 587, 557, 556,
    555, 554, 69, 369, 368, -20, -20, -64, -64, -78, -78, -78, -78, -69, -69, -69, -69, -69, -69,
    586, 586, 586, 429, 488, 450, -1000, -1000, 429, -1000, 367, -1000, -1000, -1000, -1000,
    -1000, -1000, 428, 448, 427, 85, -1000, 427, 117, -1000, -1000, -1000, -1000, -1000, -1000,
    -1000, -1000, 107, 553, -1000, 53, 278, 455, 377, -1000, 53, 53, 310, 443, 164, 220, 434, 96,
    270, 351, -1000, -1000, 329, -1000, 552, 533, -1000, -1000, -1000, -1000, -1000, 347, 327,
    432, -2, 33, 580, 429, 504, 529, 579, 578, 176, 577, -1000, -1000, -1000, 365, -1000, 363,
    257, -1000, 53, -1000, 169, 52, 227, -1000, -1000, -1000, 443, 373, 541, -1000, 308, -1000,
    226, -1000, 574, -1000, -1000, 431, 430, 298, 32, 255, -15, 429, -1000, 216, 428, -1000,
    -1000, 361, 427, 528, 527, -1000, -1000, 53, 206, 53, 205, 53, 489, 471, -1000, 200, 193,
    -1000, -1000, 525, 524, -19, 360, 359, -21, 354, 353, -1000, 523, 168, 161, -1000, 53, -1000,
    53, -1000, -1000, 53, -1000, -1000, 426, 425, 331, 326, 303, 294, 305, 292, 288, 277, 151,
    -1000, -1000, -1000, -1000, -1000, 520, 519, 273, 211, -1000, 250, -1000, 213, 97, 54, -1000,
    207, -1000, 201, -1000, 424, 423, -1000, 197, -1000, 182, -1000, -1000, -1000, 166, -1000,
    162, -1000, -1000, 516, 509, -1000, -1000, -1000, -1000, 111, 87, -1000, -1000]

def exprPgo : List Int :=
  [0, 599, 595, 598, 51, 597, 0, 7, 596, 14, 9, 594, 5, 12, 3, 2, 11, 4, 6, 8, 15, 19, 593, 592,
    10, 1, 520]

def exprR1 : List Int :=
  [0, 1, 4, 4, 4, 4, 4, 11, 11, 14, 14, 26, 26, 26, 15, 15, 15, 15, 15, 15, 15, 15, 15, 15, 15,
    15, 15, 15, 15, 15, 15, 8, 8, 8, 8, 9, 9, 9, 9, 9, 9, 9, 10, 10, 10, 10, 17, 16, 16, 16, 16,
    16, 16, 16, 16, 16, 12, 12, 12, 12, 12, 12, 12, 12, 12, 12, 12, 12, 12, 12, 12, 12, 12, 12,
    12, 12, 12, 12, 12, 12, 12, 12, 7, 7, 7, 7, 7, 7, 7, 7, 7, 7, 7, 7, 7, 7, 7, 13, 13, 13, 18,
    18, 18, 19, 19, 19, 20, 20, 20, 2, 2, 2, 2, 2, 2, 2, 2, 2, 2, 2, 2, 2, 2, 2, 2, 2, 2, 2, 2, 2,
    2, 24, 24, 24, 22, 22, 21, 21, 21, 21, 23, 23, 23, 23, 23, 23, 23, 23, 23, 23, 23, 23, 23, 23,
    23, 23, 23, 23, 23, 23, 23, 23, 23, 23, 23, 23, 23, 5, 5, 5, 5, 5, 5, 3, 3, 3, 3, 3, 3, 3, 3,
    6, 6, 25, 25, 25, 25]

def exprR2 : List Int :=
  [0, 1, 1, 1, 1, 1, 3, 1, 2, 1, 2, 1, 1, 1, 1, 2, 2, 3, 4, 2, 3, 2, 3, 6, 3, 3, 3, 2, 3, 3, 3, 2,
    5, 4, 7, 3, 3, 3, 6, 3, 3, 3, 3, 3, 6, 3, 2, 2, 3, 3, 4, 5, 5, 6, 2, 3, 4, 5, 6, 7, 7, 8, 5,
    6, 5, 4, 6, 7, 8, 7, 5, 6, 12, 5, 4, 6, 7, 7, 5, 12, 4, 3, 4, 4, 4, 4, 4, 4, 4, 4, 4, 4, 4, 4,
    4, 4, 4, 1, 2, 2, 1, 1, 3, 1, 3, 3, 1, 1, 2, 0, 1, 5, 8, 9, 8, 9, 4, 7, 8, 7, 8, 5, 8, 9, 8,
    9, 4, 7, 8, 7, 8, 3, 3, 2, 1, 3, 3, 3, 3, 3, 1, 1, 1, 1, 1, 1, 1, 1, 1, 1, 1, 1, 1, 1, 1, 1,
    1, 1, 1, 1, 1, 1, 1, 1, 1, 1, 1, 1, 1, 1, 1, 1, 1, 1, 1, 1, 1, 1, 1, 1, 1, 1, 3, 4, 4, 3, 3]

def exprChk : List Int :=
  [-1000, -1, -4, -11, -12, -7, -13, 22, -24, -23, 65, 7, 89, 90, 16, 24, 25, 26, 38, 39, 52, 53,
    54, 55, 56, 57, 58, 59, 60, 61, 27, 28, 31, 29, 30, 32, 33, 34, 35, 36, 37, 64, 80, 81, 82,
    89, 90, 91, 92, 93, 94, 83, 84, 87, 88, 85, 86, -4, -12, -14, -15, -8, 48, -5, 44, 45, 46, 47,
    15, 84, 22, -25, 62, 63, 22, 7, 7, -22, 17, -21, 4, -2, 40, -2, -2, -2, -2, -2, -2, -2, -2,
    -2, -2, -2, -2, -2, -2, 23, 23, -15, -9, 43, 41, 67, 51, 42, 68, 49, 77, 50, 78, 79, 4, 5, 66,
    -16, 7, -12, -7, -24, 22, -4, 22, 22, 22, -12, -7, 17, 2, 20, 13, 84, 14, 15, -4, 73, 74, -4,
    -4, -4, -4, -4, -4, -4, -4, -4, -4, -4, -4, -4, -4, 81, 80, 20, -19, -20, 4, 8, 9, -19, 4,
    -26, 70, 71, 72, 5, 5, 5, -10, 4, -18, 4, -21, -18, -3, 13, 84, 14, 15, 87, 88, 85, 86, 80,
    22, 2, 23, -17, 69, 20, 23, 23, 23, -14, 6, -24, -16, 7, -12, -7, -6, 23, 4, -6, 23, 20, 20,
    -21, 5, 5, 5, 5, 22, 22, -9, -9, -9, 20, -19, -20, 13, 22, 20, 13, 20, 5, 10, -13, 66, 5, 66,
    5, -25, 23, 10, -16, -12, -7, -25, -25, 6, -14, -14, 6, 23, 20, 23, -17, 23, 20, 23, 23, 5, 5,
    -6, 23, -6, 23, -19, 5, 4, -10, 5, 4, 66, -18, 22, 22, 23, -25, 23, -17, 23, -17, 23, 23, -14,
    23, -12, -7, 23, 4, 20, 20, 23, 75, 76, 23, 75, 76, 23, 22, 5, 5, -25, 23, -25, 23, -25, 6,
    23, 23, 23, 5, 5, 75, 76, 22, 22, 75, 76, 22, 22, 5, 23, 23, -25, -25, -25, 20, 20, 22, 22,
    23, -6, 23, -6, 22, 22, 23, -6, 23, -6, 23, 5, 5, 23, -6, 23, -6, 23, 23, 23, -6, 23, -6, 23,
    23, 20, 20, 23, 23, 23, 23, 5, 5, 23, 23]

def exprDef : List Int :=
  [0, -2, 1, 2, 3, 4, 5, 0, 7, 0, 0, 97, 0, 0, 0, 140, 141, 142, 143, 144, 145, 146, 147, 148,
    149, 150, 151, 152, 153, 154, 155, 156, 157, 158, 159, 160, 161, 162, 163, 164, 165, 166, 109,
    109, 109, 109, 109, 109, 109, 109, 109, 109, 109, 109, 109, 109, 109, 0, 3, 8, 9, 14, 0, 0,
    167, 168, 169, 170, 171, 172, 0, 0, 0, 0, 0, 98, 99, 0, 133, 134, 0, 0, 110, 0, 0, 0, 0, 0, 0,
    0, 0, 0, 0, 0, 0, 0, 0, 6, 81, 10, 15, 16, 19, 21, 0, 0, 0, 0, 27, 0, 0, 0, 0, 31, 0, 0, 97,
    3, 4, 7, 0, 0, 0, 0, 0, 3, 4, 131, 132, 0, 0, 0, 0, 0, 82, 0, 0, 83, 84, 85, 86, 87, 88, 89,
    90, 91, 92, 93, 94, 95, 96, 0, 0, 0, 17, 0, 103, 106, 107, 20, 22, 0, 11, 12, 13, 24, 25, 26,
    28, 0, 29, 100, 101, 30, 0, 173, 174, 175, 176, 177, 178, 179, 180, 0, 0, 54, 56, 0, 0, 0, 80,
    65, 74, 8, 47, 7, 0, 97, 3, 4, 0, 185, 181, 0, 186, 0, 0, 135, 136, 137, 138, 139, 0, 0, 39,
    40, 41, 0, 18, 108, 0, 0, 0, 0, 0, 35, 36, 37, 0, 33, 0, 0, 62, 57, 46, 0, 3, 4, 64, 73, 49,
    48, 8, 47, 55, 0, 70, 0, 78, 0, 183, 184, 0, 0, 0, 116, 0, 126, 105, 104, 0, 45, 42, 43, 0,
    102, 0, 0, 32, 63, 58, 0, 66, 0, 75, 0, 48, 50, 3, 4, 71, 182, 0, 0, 111, 0, 0, 121, 0, 0, 23,
    0, 0, 0, 59, 60, 67, 0, 76, 52, 51, 69, 77, 0, 0, 0, 0, 0, 0, 0, 0, 0, 0, 0, 38, 34, 61, 68,
    53, 0, 0, 0, 0, 117, 0, 119, 0, 0, 0, 127, 0, 129, 0, 44, 0, 0, 112, 0, 114, 0, 118, 120, 122,
    0, 124, 0, 128, 130, 0, 0, 113, 115, 123, 125, 0, 0, 72, 79]

/-- With `exprLast` and `exprFlag`. -/
def exprTables : Goyacc.Tables where
  exca := exprExca
  act := exprAct
  pact := exprPact
  pgo := exprPgo
  r1 := exprR1
  r2 := exprR2
  chk := exprChk
  defaults := exprDef
  last := 653
  flag := -1000

end McoaGateway.Logql
