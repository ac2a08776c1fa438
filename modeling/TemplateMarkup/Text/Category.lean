/-!
General categories of characters. The table gives runs of code points, one after the other: how many
there are, and the categories of those at even and at odd distances from the first one.
-/
namespace TemplateMarkup

inductive Category
  | lu | ll | lt | lm | lo | mn | mc | me | nd | nl | no | pc | pd | ps | pe
  | pi | pf | po | sm | sc | sk | so | zs | zl | zp | cc | cf | cs | co | cn
deriving DecidableEq, Repr

namespace Category

def runsFrom0 : List (Nat × Category × Category) :=
  [(32, .cc, .cc), (1, .zs, .zs), (3, .po, .po), (1, .sc, .sc), (3, .po, .po), (1, .ps, .ps),
    (1, .pe, .pe), (3, .po, .sm), (1, .pd, .pd), (2, .po, .po), (10, .nd, .nd), (2, .po, .po),
    (3, .sm, .sm), (2, .po, .po), (26, .lu, .lu), (1, .ps, .ps), (1, .po, .po), (1, .pe, .pe),
    (3, .sk, .pc), (26, .ll, .ll), (1, .ps, .ps), (3, .sm, .pe), (33, .cc, .cc), (1, .zs, .zs),
    (1, .po, .po), (4, .sc, .sc), (1, .so, .so), (1, .po, .po), (1, .sk, .sk), (1, .so, .so),
    (1, .lo, .lo), (1, .pi, .pi), (1, .sm, .sm), (1, .cf, .cf), (3, .so, .sk), (1, .sm, .sm),
    (2, .no, .no), (1, .sk, .sk), (1, .ll, .ll), (2, .po, .po), (1, .sk, .sk), (1, .no, .no),
    (1, .lo, .lo), (1, .pf, .pf), (3, .no, .no), (1, .po, .po), (23, .lu, .lu), (1, .sm, .sm),
    (7, .lu, .lu), (24, .ll, .ll), (1, .sm, .sm), (8, .ll, .ll), (56, .lu, .ll), (17, .ll, .lu),
    (48, .ll, .lu), (6, .lu, .ll), (2, .ll, .ll), (2, .lu, .lu), (4, .ll, .lu), (3, .lu, .ll),
    (2, .lu, .lu), (2, .ll, .ll), (4, .lu, .lu), (1, .ll, .ll), (2, .lu, .lu), (1, .ll, .ll),
    (3, .lu, .lu), (3, .ll, .ll), (2, .lu, .lu), (1, .ll, .ll), (2, .lu, .lu), (6, .ll, .lu),
    (4, .lu, .ll), (4, .ll, .lu), (3, .lu, .ll), (2, .lu, .lu), (4, .ll, .lu), (1, .lu, .lu),
    (2, .ll, .ll), (1, .lo, .lo), (1, .lu, .lu), (3, .ll, .ll), (4, .lo, .lo), (1, .lu, .lu),
    (1, .lt, .lt), (1, .ll, .ll), (1, .lu, .lu), (1, .lt, .lt), (1, .ll, .ll), (1, .lu, .lu),
    (1, .lt, .lt), (17, .ll, .lu), (19, .ll, .lu), (1, .ll, .ll), (1, .lu, .lu), (1, .lt, .lt),
    (4, .ll, .lu), (2, .lu, .lu), (59, .ll, .lu), (6, .ll, .ll), (2, .lu, .lu), (1, .ll, .ll),
    (2, .lu, .lu), (2, .ll, .ll), (3, .lu, .ll), (3, .lu, .lu), (9, .ll, .lu), (68, .ll, .ll),
    (2, .lo, .lo), (26, .ll, .ll), (18, .lm, .lm), (4, .sk, .sk), (12, .lm, .lm), (14, .sk, .sk),
    (5, .lm, .lm), (7, .sk, .sk), (4, .lm, .sk), (16, .sk, .sk), (112, .mn, .mn), (4, .lu, .ll),
    (1, .lm, .lm), (1, .sk, .sk), (1, .lu, .lu), (1, .ll, .ll), (2, .cn, .cn), (1, .lm, .lm),
    (3, .ll, .ll), (1, .po, .po), (1, .lu, .lu), (4, .cn, .cn), (2, .sk, .sk), (3, .lu, .po),
    (2, .lu, .lu), (4, .cn, .lu), (3, .lu, .ll), (16, .lu, .lu), (1, .cn, .cn), (9, .lu, .lu),
    (35, .ll, .ll), (1, .lu, .lu), (2, .ll, .ll), (3, .lu, .lu), (3, .ll, .ll), (24, .lu, .ll),
    (4, .ll, .ll), (1, .lu, .lu), (1, .ll, .ll), (1, .sm, .sm), (3, .lu, .ll), (1, .lu, .lu),
    (2, .ll, .ll), (51, .lu, .lu), (48, .ll, .ll), (34, .lu, .ll), (1, .so, .so), (5, .mn, .mn),
    (2, .me, .me), (55, .lu, .ll), (14, .lu, .ll), (97, .ll, .lu), (1, .cn, .cn), (38, .lu, .lu),
    (2, .cn, .cn), (1, .lm, .lm), (6, .po, .po), (41, .ll, .ll), (1, .po, .po), (1, .pd, .pd),
    (2, .cn, .cn), (2, .so, .so), (1, .sc, .sc), (1, .cn, .cn), (45, .mn, .mn), (1, .pd, .pd),
    (3, .mn, .po), (3, .mn, .po), (3, .mn, .po), (8, .cn, .cn), (27, .lo, .lo), (4, .cn, .cn),
    (4, .lo, .lo), (2, .po, .po), (11, .cn, .cn), (6, .cf, .cf), (3, .sm, .sm), (2, .po, .po),
    (1, .sc, .sc), (2, .po, .po), (2, .so, .so), (11, .mn, .mn), (3, .po, .cf), (2, .po, .po),
    (32, .lo, .lo), (1, .lm, .lm), (10, .lo, .lo), (21, .mn, .mn), (10, .nd, .nd), (4, .po, .po),
    (2, .lo, .lo), (1, .mn, .mn), (99, .lo, .lo), (1, .po, .po), (1, .lo, .lo), (7, .mn, .mn),
    (1, .cf, .cf), (1, .so, .so), (6, .mn, .mn), (2, .lm, .lm), (2, .mn, .mn), (1, .so, .so),
    (4, .mn, .mn), (2, .lo, .lo), (10, .nd, .nd), (3, .lo, .lo), (2, .so, .so), (1, .lo, .lo),
    (14, .po, .po), (1, .cn, .cn), (1, .cf, .cf), (3, .lo, .mn), (29, .lo, .lo), (27, .mn, .mn),
    (2, .cn, .cn), (89, .lo, .lo), (11, .mn, .mn), (1, .lo, .lo), (14, .cn, .cn), (10, .nd, .nd),
    (33, .lo, .lo), (9, .mn, .mn), (2, .lm, .lm), (1, .so, .so), (3, .po, .po), (1, .lm, .lm),
    (2, .cn, .cn), (1, .mn, .mn), (2, .sc, .sc), (22, .lo, .lo), (4, .mn, .mn), (1, .lm, .lm),
    (9, .mn, .mn), (1, .lm, .lm), (3, .mn, .mn), (1, .lm, .lm), (5, .mn, .mn), (2, .cn, .cn),
    (15, .po, .po), (1, .cn, .cn), (25, .lo, .lo), (3, .mn, .mn), (2, .cn, .cn), (1, .po, .po),
    (1, .cn, .cn), (11, .lo, .lo), (5, .cn, .cn), (24, .lo, .lo), (1, .sk, .sk), (7, .lo, .lo),
    (2, .cf, .cf), (5, .cn, .cn), (9, .mn, .mn), (41, .lo, .lo), (1, .lm, .lm), (24, .mn, .mn),
    (1, .cf, .cf), (32, .mn, .mn), (1, .mc, .mc), (54, .lo, .lo), (3, .mn, .mc), (1, .lo, .lo),
    (3, .mc, .mc), (8, .mn, .mn), (4, .mc, .mc), (1, .mn, .mn), (2, .mc, .mc), (1, .lo, .lo),
    (7, .mn, .mn), (10, .lo, .lo), (2, .mn, .mn), (2, .po, .po), (10, .nd, .nd), (1, .po, .po),
    (1, .lm, .lm), (15, .lo, .lo), (1, .mn, .mn), (2, .mc, .mc), (1, .cn, .cn), (8, .lo, .lo),
    (2, .cn, .cn), (2, .lo, .lo), (2, .cn, .cn), (22, .lo, .lo), (1, .cn, .cn), (7, .lo, .lo),
    (3, .cn, .lo), (2, .cn, .cn), (4, .lo, .lo), (2, .cn, .cn), (1, .mn, .mn), (1, .lo, .lo),
    (3, .mc, .mc), (4, .mn, .mn), (2, .cn, .cn), (2, .mc, .mc), (2, .cn, .cn), (2, .mc, .mc),
    (1, .mn, .mn), (1, .lo, .lo), (8, .cn, .cn), (1, .mc, .mc), (4, .cn, .cn), (2, .lo, .lo),
    (1, .cn, .cn), (3, .lo, .lo), (2, .mn, .mn), (2, .cn, .cn), (10, .nd, .nd), (2, .lo, .lo),
    (2, .sc, .sc), (6, .no, .no), (1, .so, .so), (1, .sc, .sc), (1, .lo, .lo), (1, .po, .po),
    (1, .mn, .mn), (2, .cn, .cn), (2, .mn, .mn), (1, .mc, .mc), (1, .cn, .cn), (6, .lo, .lo),
    (4, .cn, .cn), (2, .lo, .lo), (2, .cn, .cn), (22, .lo, .lo), (1, .cn, .cn), (7, .lo, .lo),
    (1, .cn, .cn), (2, .lo, .lo), (1, .cn, .cn), (2, .lo, .lo), (1, .cn, .cn), (2, .lo, .lo),
    (2, .cn, .cn), (1, .mn, .mn), (1, .cn, .cn), (3, .mc, .mc), (2, .mn, .mn), (4, .cn, .cn),
    (2, .mn, .mn), (2, .cn, .cn), (3, .mn, .mn), (3, .cn, .cn), (1, .mn, .mn), (7, .cn, .cn),
    (4, .lo, .lo), (3, .cn, .lo), (6, .cn, .cn), (10, .nd, .nd), (2, .mn, .mn), (3, .lo, .lo),
    (1, .mn, .mn), (1, .po, .po), (10, .cn, .cn), (2, .mn, .mn), (1, .mc, .mc), (1, .cn, .cn),
    (9, .lo, .lo), (1, .cn, .cn), (3, .lo, .lo), (1, .cn, .cn), (22, .lo, .lo), (1, .cn, .cn),
    (7, .lo, .lo), (1, .cn, .cn), (2, .lo, .lo), (1, .cn, .cn), (5, .lo, .lo), (2, .cn, .cn),
    (1, .mn, .mn), (1, .lo, .lo), (3, .mc, .mc), (5, .mn, .mn), (1, .cn, .cn), (2, .mn, .mn),
    (3, .mc, .cn), (1, .mc, .mc), (1, .mn, .mn), (2, .cn, .cn), (1, .lo, .lo), (15, .cn, .cn),
    (2, .lo, .lo), (2, .mn, .mn), (2, .cn, .cn), (10, .nd, .nd), (1, .po, .po), (1, .sc, .sc),
    (7, .cn, .cn), (1, .lo, .lo), (6, .mn, .mn), (1, .cn, .cn), (1, .mn, .mn), (2, .mc, .mc),
    (1, .cn, .cn), (8, .lo, .lo), (2, .cn, .cn), (2, .lo, .lo), (2, .cn, .cn), (22, .lo, .lo),
    (1, .cn, .cn), (7, .lo, .lo), (1, .cn, .cn), (2, .lo, .lo), (1, .cn, .cn), (5, .lo, .lo),
    (2, .cn, .cn), (1, .mn, .mn), (1, .lo, .lo), (4, .mc, .mn), (3, .mn, .mn), (2, .cn, .cn),
    (2, .mc, .mc), (2, .cn, .cn), (2, .mc, .mc), (1, .mn, .mn), (7, .cn, .cn), (2, .mn, .mn),
    (1, .mc, .mc), (4, .cn, .cn), (2, .lo, .lo), (1, .cn, .cn), (3, .lo, .lo), (2, .mn, .mn),
    (2, .cn, .cn), (10, .nd, .nd), (1, .so, .so), (1, .lo, .lo), (6, .no, .no), (10, .cn, .cn),
    (1, .mn, .mn), (3, .lo, .cn), (5, .lo, .lo), (3, .cn, .cn), (3, .lo, .lo), (1, .cn, .cn),
    (4, .lo, .lo), (3, .cn, .cn), (2, .lo, .lo), (4, .cn, .lo), (1, .lo, .lo), (3, .cn, .cn),
    (2, .lo, .lo), (3, .cn, .cn), (3, .lo, .lo), (3, .cn, .cn), (12, .lo, .lo), (4, .cn, .cn),
    (2, .mc, .mc), (1, .mn, .mn), (2, .mc, .mc), (3, .cn, .cn), (3, .mc, .mc), (1, .cn, .cn),
    (3, .mc, .mc), (1, .mn, .mn), (2, .cn, .cn), (1, .lo, .lo), (6, .cn, .cn), (1, .mc, .mc),
    (14, .cn, .cn), (10, .nd, .nd), (3, .no, .no), (6, .so, .so), (1, .sc, .sc), (1, .so, .so),
    (5, .cn, .cn), (1, .mn, .mn), (3, .mc, .mc), (1, .mn, .mn), (8, .lo, .lo), (1, .cn, .cn)]

def runsFromC0E : List (Nat × Category × Category) :=
  [(3, .lo, .lo), (1, .cn, .cn), (23, .lo, .lo), (1, .cn, .cn), (16, .lo, .lo), (2, .cn, .cn),
    (3, .mn, .lo), (2, .mn, .mn), (4, .mc, .mc), (1, .cn, .cn), (3, .mn, .mn), (1, .cn, .cn),
    (4, .mn, .mn), (7, .cn, .cn), (2, .mn, .mn), (1, .cn, .cn), (3, .lo, .lo), (1, .cn, .cn),
    (2, .lo, .lo), (2, .cn, .cn), (2, .lo, .lo), (2, .mn, .mn), (2, .cn, .cn), (10, .nd, .nd),
    (7, .cn, .cn), (1, .po, .po), (7, .no, .no), (1, .so, .so), (1, .lo, .lo), (1, .mn, .mn),
    (2, .mc, .mc), (1, .po, .po), (8, .lo, .lo), (1, .cn, .cn), (3, .lo, .lo), (1, .cn, .cn),
    (23, .lo, .lo), (1, .cn, .cn), (10, .lo, .lo), (1, .cn, .cn), (5, .lo, .lo), (2, .cn, .cn),
    (1, .mn, .mn), (1, .lo, .lo), (3, .mc, .mn), (4, .mc, .mc), (1, .cn, .cn), (1, .mn, .mn),
    (2, .mc, .mc), (1, .cn, .cn), (2, .mc, .mc), (2, .mn, .mn), (7, .cn, .cn), (2, .mc, .mc),
    (5, .cn, .cn), (3, .lo, .lo), (1, .cn, .cn), (2, .lo, .lo), (2, .mn, .mn), (2, .cn, .cn),
    (10, .nd, .nd), (1, .cn, .cn), (2, .lo, .lo), (1, .mc, .mc), (12, .cn, .cn), (2, .mn, .mn),
    (2, .mc, .mc), (9, .lo, .lo), (1, .cn, .cn), (3, .lo, .lo), (1, .cn, .cn), (41, .lo, .lo),
    (2, .mn, .mn), (1, .lo, .lo), (3, .mc, .mc), (4, .mn, .mn), (1, .cn, .cn), (3, .mc, .mc),
    (1, .cn, .cn), (3, .mc, .mc), (1, .mn, .mn), (1, .lo, .lo), (1, .so, .so), (4, .cn, .cn),
    (3, .lo, .lo), (1, .mc, .mc), (7, .no, .no), (3, .lo, .lo), (2, .mn, .mn), (2, .cn, .cn),
    (10, .nd, .nd), (9, .no, .no), (1, .so, .so), (6, .lo, .lo), (1, .cn, .cn), (1, .mn, .mn),
    (2, .mc, .mc), (1, .cn, .cn), (18, .lo, .lo), (3, .cn, .cn), (24, .lo, .lo), (1, .cn, .cn),
    (9, .lo, .lo), (3, .cn, .lo), (1, .cn, .cn), (7, .lo, .lo), (3, .cn, .cn), (1, .mn, .mn),
    (4, .cn, .cn), (3, .mc, .mc), (3, .mn, .mn), (3, .cn, .mn), (8, .mc, .mc), (6, .cn, .cn),
    (10, .nd, .nd), (2, .cn, .cn), (2, .mc, .mc), (1, .po, .po), (12, .cn, .cn), (48, .lo, .lo),
    (1, .mn, .mn), (2, .lo, .lo), (7, .mn, .mn), (4, .cn, .cn), (1, .sc, .sc), (6, .lo, .lo),
    (1, .lm, .lm), (8, .mn, .mn), (1, .po, .po), (10, .nd, .nd), (2, .po, .po), (37, .cn, .cn),
    (2, .lo, .lo), (4, .cn, .lo), (4, .lo, .lo), (1, .cn, .cn), (24, .lo, .lo), (4, .cn, .lo),
    (9, .lo, .lo), (1, .mn, .mn), (2, .lo, .lo), (9, .mn, .mn), (1, .lo, .lo), (2, .cn, .cn),
    (5, .lo, .lo), (3, .cn, .lm), (7, .mn, .mn), (1, .cn, .cn), (10, .nd, .nd), (2, .cn, .cn),
    (4, .lo, .lo), (32, .cn, .cn), (1, .lo, .lo), (3, .so, .so), (15, .po, .po), (3, .so, .po),
    (2, .so, .so), (2, .mn, .mn), (6, .so, .so), (10, .nd, .nd), (10, .no, .no), (6, .so, .mn),
    (4, .ps, .pe), (2, .mc, .mc), (8, .lo, .lo), (1, .cn, .cn), (36, .lo, .lo), (4, .cn, .cn),
    (14, .mn, .mn), (1, .mc, .mc), (5, .mn, .mn), (1, .po, .po), (2, .mn, .mn), (5, .lo, .lo),
    (11, .mn, .mn), (1, .cn, .cn), (36, .mn, .mn), (1, .cn, .cn), (8, .so, .so), (1, .mn, .mn),
    (6, .so, .so), (1, .cn, .cn), (2, .so, .so), (5, .po, .po), (4, .so, .so), (2, .po, .po),
    (37, .cn, .cn), (43, .lo, .lo), (2, .mc, .mc), (4, .mn, .mn), (1, .mc, .mc), (6, .mn, .mn),
    (1, .mc, .mc), (2, .mn, .mn), (2, .mc, .mc), (2, .mn, .mn), (1, .lo, .lo), (10, .nd, .nd),
    (6, .po, .po), (6, .lo, .lo), (2, .mc, .mc), (2, .mn, .mn), (4, .lo, .lo), (3, .mn, .mn),
    (1, .lo, .lo), (3, .mc, .mc), (2, .lo, .lo), (7, .mc, .mc), (3, .lo, .lo), (4, .mn, .mn),
    (13, .lo, .lo), (1, .mn, .mn), (2, .mc, .mc), (2, .mn, .mn), (6, .mc, .mc), (1, .mn, .mn),
    (1, .lo, .lo), (1, .mc, .mc), (10, .nd, .nd), (3, .mc, .mc), (1, .mn, .mn), (2, .so, .so),
    (38, .lu, .lu), (3, .cn, .lu), (4, .cn, .cn), (1, .lu, .lu), (2, .cn, .cn), (43, .ll, .ll),
    (1, .po, .po), (1, .lm, .lm), (3, .ll, .ll), (329, .lo, .lo), (1, .cn, .cn), (4, .lo, .lo),
    (2, .cn, .cn), (7, .lo, .lo), (4, .cn, .lo), (3, .lo, .lo), (2, .cn, .cn), (41, .lo, .lo),
    (1, .cn, .cn), (4, .lo, .lo), (2, .cn, .cn), (33, .lo, .lo), (1, .cn, .cn), (4, .lo, .lo),
    (2, .cn, .cn), (7, .lo, .lo), (4, .cn, .lo), (3, .lo, .lo), (2, .cn, .cn), (15, .lo, .lo),
    (1, .cn, .cn), (57, .lo, .lo), (1, .cn, .cn), (4, .lo, .lo), (2, .cn, .cn), (67, .lo, .lo),
    (2, .cn, .cn), (3, .mn, .mn), (9, .po, .po), (20, .no, .no), (3, .cn, .cn), (16, .lo, .lo),
    (10, .so, .so), (6, .cn, .cn), (86, .lu, .lu), (2, .cn, .cn), (6, .ll, .ll), (2, .cn, .cn),
    (1, .pd, .pd), (620, .lo, .lo), (1, .so, .so), (1, .po, .po), (17, .lo, .lo), (1, .zs, .zs),
    (26, .lo, .lo), (1, .ps, .ps), (1, .pe, .pe), (3, .cn, .cn), (75, .lo, .lo), (3, .po, .po),
    (3, .nl, .nl), (8, .lo, .lo), (7, .cn, .cn), (18, .lo, .lo), (3, .mn, .mn), (1, .mc, .mc),
    (9, .cn, .cn), (19, .lo, .lo), (2, .mn, .mn), (1, .mc, .mc), (2, .po, .po), (9, .cn, .cn),
    (18, .lo, .lo), (2, .mn, .mn), (12, .cn, .cn), (13, .lo, .lo), (1, .cn, .cn), (3, .lo, .lo),
    (1, .cn, .cn), (2, .mn, .mn), (12, .cn, .cn), (52, .lo, .lo), (2, .mn, .mn), (1, .mc, .mc),
    (7, .mn, .mn), (8, .mc, .mc), (1, .mn, .mn), (2, .mc, .mc), (11, .mn, .mn), (3, .po, .po),
    (1, .lm, .lm), (3, .po, .po), (1, .sc, .sc), (1, .lo, .lo), (1, .mn, .mn), (2, .cn, .cn),
    (10, .nd, .nd), (6, .cn, .cn), (10, .no, .no), (6, .cn, .cn), (6, .po, .po), (1, .pd, .pd),
    (4, .po, .po), (3, .mn, .mn), (1, .cf, .cf), (1, .mn, .mn), (10, .nd, .nd), (6, .cn, .cn),
    (35, .lo, .lo), (1, .lm, .lm), (53, .lo, .lo), (7, .cn, .cn), (5, .lo, .lo), (2, .mn, .mn),
    (34, .lo, .lo), (1, .mn, .mn), (1, .lo, .lo), (5, .cn, .cn), (70, .lo, .lo), (10, .cn, .cn),
    (31, .lo, .lo), (1, .cn, .cn), (3, .mn, .mn), (4, .mc, .mc), (2, .mn, .mn), (3, .mc, .mc),
    (4, .cn, .cn), (2, .mc, .mc), (1, .mn, .mn), (6, .mc, .mc), (3, .mn, .mn), (4, .cn, .cn),
    (1, .so, .so), (3, .cn, .cn), (2, .po, .po), (10, .nd, .nd), (30, .lo, .lo), (2, .cn, .cn),
    (5, .lo, .lo), (11, .cn, .cn), (44, .lo, .lo), (4, .cn, .cn), (26, .lo, .lo), (6, .cn, .cn),
    (10, .nd, .nd), (1, .no, .no), (3, .cn, .cn), (34, .so, .so), (23, .lo, .lo), (2, .mn, .mn),
    (2, .mc, .mc), (1, .mn, .mn), (2, .cn, .cn), (2, .po, .po), (53, .lo, .lo), (4, .mc, .mn),
    (6, .mn, .mn), (1, .cn, .cn), (4, .mn, .mc), (1, .mc, .mc), (8, .mn, .mn), (6, .mc, .mc),
    (10, .mn, .mn), (2, .cn, .cn), (1, .mn, .mn), (10, .nd, .nd), (6, .cn, .cn), (10, .nd, .nd),
    (6, .cn, .cn), (7, .po, .po), (1, .lm, .lm), (6, .po, .po), (2, .cn, .cn), (14, .mn, .mn),
    (1, .me, .me), (31, .mn, .mn), (2, .cn, .cn), (12, .mn, .mn), (20, .cn, .cn), (4, .mn, .mn),
    (1, .mc, .mc), (47, .lo, .lo), (3, .mn, .mc), (4, .mn, .mn), (3, .mc, .mn), (4, .mc, .mc),
    (1, .mn, .mn), (2, .mc, .mc), (8, .lo, .lo), (1, .cn, .cn), (2, .po, .po), (10, .nd, .nd),
    (7, .po, .po), (10, .so, .so), (9, .mn, .mn), (9, .so, .so), (3, .po, .po), (2, .mn, .mn),
    (1, .mc, .mc), (30, .lo, .lo), (1, .mc, .mc), (4, .mn, .mn), (2, .mc, .mc), (2, .mn, .mn),
    (1, .mc, .mc), (3, .mn, .mn), (2, .lo, .lo), (10, .nd, .nd), (44, .lo, .lo), (3, .mn, .mc),
    (1, .mn, .mn), (3, .mc, .mc), (3, .mn, .mc), (2, .mn, .mn), (2, .mc, .mc), (8, .cn, .cn),
    (4, .po, .po), (36, .lo, .lo), (8, .mc, .mc), (8, .mn, .mn), (2, .mc, .mc), (2, .mn, .mn),
    (3, .cn, .cn), (5, .po, .po), (10, .nd, .nd), (3, .cn, .cn), (3, .lo, .lo), (10, .nd, .nd),
    (30, .lo, .lo), (6, .lm, .lm), (2, .po, .po), (9, .ll, .ll), (1, .lu, .lu), (1, .ll, .ll),
    (5, .cn, .cn), (43, .lu, .lu), (2, .cn, .cn), (3, .lu, .lu), (8, .po, .po), (8, .cn, .cn),
    (3, .mn, .mn), (1, .po, .po), (13, .mn, .mn), (1, .mc, .mc), (7, .mn, .mn), (4, .lo, .lo),
    (1, .mn, .mn), (6, .lo, .lo), (1, .mn, .mn), (2, .lo, .lo), (1, .mc, .mc), (2, .mn, .mn),
    (1, .lo, .lo), (5, .cn, .cn), (44, .ll, .ll), (63, .lm, .lm), (13, .ll, .ll), (1, .lm, .lm)]

def runsFrom1D79 : List (Nat × Category × Category) :=
  [(34, .ll, .ll), (37, .lm, .lm), (64, .mn, .mn), (150, .lu, .ll), (8, .ll, .ll), (98, .lu, .ll),
    (8, .ll, .ll), (8, .lu, .lu), (6, .ll, .ll), (2, .cn, .cn), (6, .lu, .lu), (2, .cn, .cn),
    (8, .ll, .ll), (8, .lu, .lu), (8, .ll, .ll), (8, .lu, .lu), (6, .ll, .ll), (2, .cn, .cn),
    (6, .lu, .lu), (2, .cn, .cn), (8, .ll, .ll), (8, .cn, .lu), (8, .ll, .ll), (8, .lu, .lu),
    (14, .ll, .ll), (2, .cn, .cn), (8, .ll, .ll), (8, .lt, .lt), (8, .ll, .ll), (8, .lt, .lt),
    (8, .ll, .ll), (8, .lt, .lt), (5, .ll, .ll), (1, .cn, .cn), (2, .ll, .ll), (4, .lu, .lu),
    (1, .lt, .lt), (3, .sk, .ll), (2, .sk, .sk), (3, .ll, .ll), (1, .cn, .cn), (2, .ll, .ll),
    (4, .lu, .lu), (1, .lt, .lt), (3, .sk, .sk), (4, .ll, .ll), (2, .cn, .cn), (2, .ll, .ll),
    (4, .lu, .lu), (1, .cn, .cn), (3, .sk, .sk), (8, .ll, .ll), (5, .lu, .lu), (3, .sk, .sk),
    (2, .cn, .cn), (3, .ll, .ll), (1, .cn, .cn), (2, .ll, .ll), (4, .lu, .lu), (1, .lt, .lt),
    (2, .sk, .sk), (1, .cn, .cn), (11, .zs, .zs), (5, .cf, .cf), (6, .pd, .pd), (2, .po, .po),
    (1, .pi, .pi), (1, .pf, .pf), (1, .ps, .ps), (2, .pi, .pi), (1, .pf, .pf), (1, .ps, .ps),
    (1, .pi, .pi), (8, .po, .po), (1, .zl, .zl), (1, .zp, .zp), (5, .cf, .cf), (1, .zs, .zs),
    (9, .po, .po), (1, .pi, .pi), (1, .pf, .pf), (4, .po, .po), (2, .pc, .pc), (3, .po, .po),
    (1, .sm, .sm), (1, .ps, .ps), (1, .pe, .pe), (11, .po, .po), (1, .sm, .sm), (3, .po, .pc),
    (9, .po, .po), (1, .zs, .zs), (5, .cf, .cf), (1, .cn, .cn), (10, .cf, .cf), (1, .no, .no),
    (1, .lm, .lm), (2, .cn, .cn), (6, .no, .no), (3, .sm, .sm), (1, .ps, .ps), (1, .pe, .pe),
    (1, .lm, .lm), (10, .no, .no), (3, .sm, .sm), (1, .ps, .ps), (1, .pe, .pe), (1, .cn, .cn),
    (13, .lm, .lm), (3, .cn, .cn), (34, .sc, .sc), (14, .cn, .cn), (13, .mn, .mn), (4, .me, .me),
    (1, .mn, .mn), (3, .me, .me), (12, .mn, .mn), (15, .cn, .cn), (2, .so, .so), (1, .lu, .lu),
    (4, .so, .so), (1, .lu, .lu), (2, .so, .so), (1, .ll, .ll), (3, .lu, .lu), (2, .ll, .ll),
    (3, .lu, .lu), (1, .ll, .ll), (3, .so, .lu), (1, .so, .so), (1, .sm, .sm), (5, .lu, .lu),
    (6, .so, .so), (7, .lu, .so), (3, .lu, .lu), (1, .so, .so), (1, .ll, .ll), (4, .lu, .lu),
    (1, .ll, .ll), (4, .lo, .lo), (1, .ll, .ll), (2, .so, .so), (2, .ll, .ll), (2, .lu, .lu),
    (5, .sm, .sm), (1, .lu, .lu), (4, .ll, .ll), (3, .so, .sm), (3, .so, .ll), (16, .no, .no),
    (35, .nl, .nl), (1, .lu, .lu), (1, .ll, .ll), (4, .nl, .nl), (1, .no, .no), (2, .so, .so),
    (4, .cn, .cn), (5, .sm, .sm), (5, .so, .so), (2, .sm, .sm), (4, .so, .so), (1, .sm, .sm),
    (2, .so, .so), (1, .sm, .sm), (2, .so, .so), (1, .sm, .sm), (7, .so, .so), (1, .sm, .sm),
    (31, .so, .so), (2, .sm, .sm), (2, .so, .so), (4, .sm, .so), (30, .so, .so), (268, .sm, .sm),
    (8, .so, .so), (4, .ps, .pe), (20, .so, .so), (2, .sm, .sm), (7, .so, .so), (1, .ps, .ps),
    (1, .pe, .pe), (81, .so, .so), (1, .sm, .sm), (30, .so, .so), (25, .sm, .sm), (40, .so, .so),
    (6, .sm, .sm), (72, .so, .so), (22, .cn, .cn), (11, .so, .so), (21, .cn, .cn), (60, .no, .no),
    (78, .so, .so), (22, .no, .no), (183, .so, .so), (1, .sm, .sm), (9, .so, .so), (1, .sm, .sm),
    (54, .so, .so), (8, .sm, .sm), (111, .so, .so), (1, .sm, .sm), (248, .so, .so), (14, .ps, .pe),
    (30, .no, .no), (44, .so, .so), (5, .sm, .sm), (1, .ps, .ps), (1, .pe, .pe), (31, .sm, .sm),
    (10, .ps, .pe), (16, .sm, .sm), (256, .so, .so), (131, .sm, .sm), (22, .ps, .pe),
    (63, .sm, .sm), (4, .ps, .pe), (32, .sm, .sm), (1, .ps, .ps), (1, .pe, .pe), (258, .sm, .sm),
    (48, .so, .so), (21, .sm, .sm), (2, .so, .so), (6, .sm, .sm), (39, .so, .so), (2, .cn, .cn),
    (138, .so, .so), (48, .lu, .lu), (48, .ll, .ll), (3, .lu, .ll), (2, .lu, .lu), (2, .ll, .ll),
    (7, .lu, .ll), (3, .lu, .lu), (3, .ll, .lu), (3, .ll, .lu), (5, .ll, .ll), (2, .lm, .lm),
    (3, .lu, .lu), (99, .ll, .lu), (1, .ll, .ll), (6, .so, .so), (4, .lu, .ll), (3, .mn, .mn),
    (1, .lu, .lu), (1, .ll, .ll), (5, .cn, .cn), (4, .po, .po), (1, .no, .no), (2, .po, .po),
    (38, .ll, .ll), (3, .cn, .ll), (4, .cn, .cn), (1, .ll, .ll), (2, .cn, .cn), (56, .lo, .lo),
    (7, .cn, .cn), (1, .lm, .lm), (1, .po, .po), (14, .cn, .cn), (1, .mn, .mn), (23, .lo, .lo),
    (9, .cn, .cn), (7, .lo, .lo), (1, .cn, .cn), (7, .lo, .lo), (1, .cn, .cn), (7, .lo, .lo),
    (1, .cn, .cn), (7, .lo, .lo), (1, .cn, .cn), (7, .lo, .lo), (1, .cn, .cn), (7, .lo, .lo),
    (1, .cn, .cn), (7, .lo, .lo), (1, .cn, .cn), (7, .lo, .lo), (1, .cn, .cn), (32, .mn, .mn),
    (2, .po, .po), (4, .pi, .pf), (3, .po, .po), (1, .pi, .pi), (1, .pf, .pf), (1, .po, .po),
    (1, .pi, .pi), (1, .pf, .pf), (9, .po, .po), (1, .pd, .pd), (2, .po, .po), (1, .pd, .pd),
    (1, .po, .po), (1, .pi, .pi), (1, .pf, .pf), (2, .po, .po), (1, .pi, .pi), (1, .pf, .pf),
    (8, .ps, .pe), (5, .po, .po), (1, .lm, .lm), (10, .po, .po), (2, .pd, .pd), (4, .po, .po),
    (1, .pd, .pd), (3, .po, .ps), (12, .po, .po), (2, .so, .so), (3, .po, .po), (8, .ps, .pe),
    (1, .pd, .pd), (34, .cn, .cn), (26, .so, .so), (1, .cn, .cn), (89, .so, .so), (12, .cn, .cn),
    (214, .so, .so), (26, .cn, .cn), (16, .so, .so), (1, .zs, .zs), (3, .po, .po), (1, .so, .so),
    (1, .lm, .lm), (1, .lo, .lo), (1, .nl, .nl), (10, .ps, .pe), (2, .so, .so), (8, .ps, .pe),
    (1, .pd, .pd), (1, .ps, .ps), (2, .pe, .pe), (1, .so, .so), (9, .nl, .nl), (4, .mn, .mn),
    (2, .mc, .mc), (1, .pd, .pd), (5, .lm, .lm), (2, .so, .so), (3, .nl, .nl), (1, .lm, .lm),
    (1, .lo, .lo), (1, .po, .po), (2, .so, .so), (1, .cn, .cn), (86, .lo, .lo), (2, .cn, .cn),
    (2, .mn, .mn), (2, .sk, .sk), (2, .lm, .lm), (3, .lo, .pd), (89, .lo, .lo), (1, .po, .po),
    (3, .lm, .lm), (1, .lo, .lo), (5, .cn, .cn), (43, .lo, .lo), (1, .cn, .cn), (94, .lo, .lo),
    (1, .cn, .cn), (2, .so, .so), (4, .no, .no), (10, .so, .so), (32, .lo, .lo), (38, .so, .so),
    (9, .cn, .cn), (1, .so, .so), (16, .lo, .lo), (31, .so, .so), (1, .cn, .cn), (10, .no, .no),
    (30, .so, .so), (8, .no, .no), (1, .so, .so), (15, .no, .no), (32, .so, .so), (10, .no, .no),
    (39, .so, .so), (15, .no, .no), (320, .so, .so), (6592, .lo, .lo), (64, .so, .so),
    (21013, .lo, .lo), (1, .lm, .lm), (1143, .lo, .lo), (3, .cn, .cn), (55, .so, .so),
    (9, .cn, .cn), (40, .lo, .lo), (6, .lm, .lm), (2, .po, .po), (268, .lo, .lo), (1, .lm, .lm),
    (3, .po, .po), (16, .lo, .lo), (10, .nd, .nd), (2, .lo, .lo), (20, .cn, .cn), (46, .lu, .ll),
    (1, .lo, .lo), (1, .mn, .mn), (3, .me, .me), (1, .po, .po), (10, .mn, .mn), (1, .po, .po),
    (1, .lm, .lm), (28, .lu, .ll), (2, .lm, .lm), (2, .mn, .mn), (70, .lo, .lo), (10, .nl, .nl),
    (2, .mn, .mn), (6, .po, .po), (8, .cn, .cn), (23, .sk, .sk), (9, .lm, .lm), (2, .sk, .sk),
    (14, .lu, .ll), (2, .ll, .ll), (62, .lu, .ll), (1, .lm, .lm), (8, .ll, .ll), (5, .lu, .ll),
    (10, .lu, .ll), (1, .lm, .lm), (2, .sk, .sk), (4, .lu, .ll), (1, .lo, .lo), (4, .lu, .ll),
    (2, .ll, .ll), (21, .lu, .ll), (4, .lu, .lu), (1, .ll, .ll), (5, .lu, .lu), (16, .ll, .lu),
    (3, .lu, .lu), (4, .ll, .lu), (17, .lu, .ll), (20, .cn, .cn), (4, .lm, .lm), (1, .lu, .lu),
    (1, .ll, .ll), (1, .lo, .lo), (2, .lm, .lm), (1, .ll, .ll), (7, .lo, .lo), (1, .mn, .mn),
    (3, .lo, .lo), (1, .mn, .mn), (4, .lo, .lo), (1, .mn, .mn), (23, .lo, .lo), (2, .mc, .mc),
    (2, .mn, .mn), (1, .mc, .mc), (4, .so, .so), (1, .mn, .mn), (3, .cn, .cn), (6, .no, .no),
    (2, .so, .so), (1, .sc, .sc), (1, .so, .so), (6, .cn, .cn), (52, .lo, .lo), (4, .po, .po),
    (8, .cn, .cn), (2, .mc, .mc), (50, .lo, .lo), (16, .mc, .mc), (2, .mn, .mn), (8, .cn, .cn),
    (2, .po, .po), (10, .nd, .nd), (6, .cn, .cn), (18, .mn, .mn), (6, .lo, .lo), (3, .po, .po),
    (3, .lo, .po), (1, .lo, .lo), (1, .mn, .mn)]

def runsFromA900 : List (Nat × Category × Category) :=
  [(10, .nd, .nd), (28, .lo, .lo), (8, .mn, .mn), (2, .po, .po), (23, .lo, .lo), (11, .mn, .mn),
    (2, .mc, .mc), (11, .cn, .cn), (1, .po, .po), (29, .lo, .lo), (3, .cn, .cn), (3, .mn, .mn),
    (1, .mc, .mc), (47, .lo, .lo), (1, .mn, .mn), (2, .mc, .mc), (4, .mn, .mn), (2, .mc, .mc),
    (2, .mn, .mn), (3, .mc, .mc), (13, .po, .po), (1, .cn, .cn), (1, .lm, .lm), (10, .nd, .nd),
    (4, .cn, .cn), (2, .po, .po), (5, .lo, .lo), (1, .mn, .mn), (1, .lm, .lm), (9, .lo, .lo),
    (10, .nd, .nd), (5, .lo, .lo), (1, .cn, .cn), (41, .lo, .lo), (6, .mn, .mn), (2, .mc, .mc),
    (2, .mn, .mn), (2, .mc, .mc), (2, .mn, .mn), (9, .cn, .cn), (3, .lo, .lo), (1, .mn, .mn),
    (8, .lo, .lo), (1, .mn, .mn), (1, .mc, .mc), (2, .cn, .cn), (10, .nd, .nd), (2, .cn, .cn),
    (4, .po, .po), (16, .lo, .lo), (1, .lm, .lm), (6, .lo, .lo), (3, .so, .so), (1, .lo, .lo),
    (3, .mc, .mn), (50, .lo, .lo), (3, .mn, .lo), (2, .mn, .mn), (2, .lo, .lo), (2, .mn, .mn),
    (5, .lo, .lo), (2, .mn, .mn), (3, .lo, .mn), (24, .cn, .cn), (2, .lo, .lo), (1, .lm, .lm),
    (2, .po, .po), (11, .lo, .lo), (1, .mc, .mc), (2, .mn, .mn), (2, .mc, .mc), (2, .po, .po),
    (1, .lo, .lo), (2, .lm, .lm), (1, .mc, .mc), (1, .mn, .mn), (10, .cn, .cn), (6, .lo, .lo),
    (2, .cn, .cn), (6, .lo, .lo), (2, .cn, .cn), (6, .lo, .lo), (9, .cn, .cn), (7, .lo, .lo),
    (1, .cn, .cn), (7, .lo, .lo), (1, .cn, .cn), (43, .ll, .ll), (1, .sk, .sk), (4, .lm, .lm),
    (9, .ll, .ll), (1, .lm, .lm), (2, .sk, .sk), (4, .cn, .cn), (80, .ll, .ll), (35, .lo, .lo),
    (2, .mc, .mc), (1, .mn, .mn), (2, .mc, .mc), (1, .mn, .mn), (2, .mc, .mc), (1, .po, .po),
    (1, .mc, .mc), (1, .mn, .mn), (2, .cn, .cn), (10, .nd, .nd), (6, .cn, .cn), (11172, .lo, .lo),
    (12, .cn, .cn), (23, .lo, .lo), (4, .cn, .cn), (49, .lo, .lo), (4, .cn, .cn), (2048, .cs, .cs),
    (6400, .co, .co), (366, .lo, .lo), (2, .cn, .cn), (106, .lo, .lo), (38, .cn, .cn),
    (7, .ll, .ll), (12, .cn, .cn), (5, .ll, .ll), (5, .cn, .cn), (3, .lo, .mn), (9, .lo, .lo),
    (1, .sm, .sm), (13, .lo, .lo), (1, .cn, .cn), (5, .lo, .lo), (4, .cn, .lo), (3, .lo, .cn),
    (3, .lo, .cn), (107, .lo, .lo), (17, .sk, .sk), (16, .so, .so), (363, .lo, .lo), (1, .pe, .pe),
    (1, .ps, .ps), (16, .so, .so), (64, .lo, .lo), (2, .so, .so), (54, .lo, .lo), (8, .so, .so),
    (32, .cn, .cn), (12, .lo, .lo), (1, .sc, .sc), (3, .so, .so), (16, .mn, .mn), (7, .po, .po),
    (1, .ps, .ps), (1, .pe, .pe), (1, .po, .po), (6, .cn, .cn), (16, .mn, .mn), (1, .po, .po),
    (2, .pd, .pd), (2, .pc, .pc), (16, .ps, .pe), (2, .po, .po), (1, .ps, .ps), (1, .pe, .pe),
    (4, .po, .po), (3, .pc, .pc), (3, .po, .po), (1, .cn, .cn), (4, .po, .po), (1, .pd, .pd),
    (6, .ps, .pe), (3, .po, .po), (3, .sm, .pd), (2, .sm, .sm), (1, .cn, .cn), (3, .po, .sc),
    (1, .po, .po), (4, .cn, .cn), (5, .lo, .lo), (1, .cn, .cn), (135, .lo, .lo), (2, .cn, .cn),
    (1, .cf, .cf), (1, .cn, .cn), (3, .po, .po), (1, .sc, .sc), (3, .po, .po), (1, .ps, .ps),
    (1, .pe, .pe), (3, .po, .sm), (1, .pd, .pd), (2, .po, .po), (10, .nd, .nd), (2, .po, .po),
    (3, .sm, .sm), (2, .po, .po), (26, .lu, .lu), (1, .ps, .ps), (1, .po, .po), (1, .pe, .pe),
    (3, .sk, .pc), (26, .ll, .ll), (1, .ps, .ps), (3, .sm, .pe), (1, .ps, .ps), (1, .pe, .pe),
    (1, .po, .po), (1, .ps, .ps), (1, .pe, .pe), (2, .po, .po), (10, .lo, .lo), (1, .lm, .lm),
    (45, .lo, .lo), (2, .lm, .lm), (31, .lo, .lo), (3, .cn, .cn), (6, .lo, .lo), (2, .cn, .cn),
    (6, .lo, .lo), (2, .cn, .cn), (6, .lo, .lo), (2, .cn, .cn), (3, .lo, .lo), (3, .cn, .cn),
    (2, .sc, .sc), (1, .sm, .sm), (1, .sk, .sk), (1, .so, .so), (2, .sc, .sc), (1, .cn, .cn),
    (1, .so, .so), (4, .sm, .sm), (2, .so, .so), (10, .cn, .cn), (3, .cf, .cf), (2, .so, .so),
    (2, .cn, .cn), (12, .lo, .lo), (1, .cn, .cn), (26, .lo, .lo), (1, .cn, .cn), (19, .lo, .lo),
    (1, .cn, .cn), (2, .lo, .lo), (1, .cn, .cn), (15, .lo, .lo), (2, .cn, .cn), (14, .lo, .lo),
    (34, .cn, .cn), (123, .lo, .lo), (5, .cn, .cn), (3, .po, .po), (4, .cn, .cn), (45, .no, .no),
    (3, .cn, .cn), (9, .so, .so), (53, .nl, .nl), (4, .no, .no), (17, .so, .so), (2, .no, .no),
    (3, .so, .so), (1, .cn, .cn), (13, .so, .so), (3, .cn, .cn), (1, .so, .so), (47, .cn, .cn),
    (45, .so, .so), (1, .mn, .mn), (130, .cn, .cn), (29, .lo, .lo), (3, .cn, .cn), (49, .lo, .lo),
    (15, .cn, .cn), (1, .mn, .mn), (27, .no, .no), (4, .cn, .cn), (32, .lo, .lo), (4, .no, .no),
    (9, .cn, .cn), (20, .lo, .lo), (1, .nl, .nl), (8, .lo, .lo), (1, .nl, .nl), (5, .cn, .cn),
    (38, .lo, .lo), (5, .mn, .mn), (5, .cn, .cn), (30, .lo, .lo), (1, .cn, .cn), (1, .po, .po),
    (36, .lo, .lo), (4, .cn, .cn), (8, .lo, .lo), (1, .po, .po), (5, .nl, .nl), (42, .cn, .cn),
    (40, .lu, .lu), (40, .ll, .ll), (78, .lo, .lo), (2, .cn, .cn), (10, .nd, .nd), (6, .cn, .cn),
    (36, .lu, .lu), (4, .cn, .cn), (36, .ll, .ll), (4, .cn, .cn), (40, .lo, .lo), (8, .cn, .cn),
    (52, .lo, .lo), (11, .cn, .cn), (1, .po, .po), (11, .lu, .lu), (1, .cn, .cn), (15, .lu, .lu),
    (1, .cn, .cn), (7, .lu, .lu), (1, .cn, .cn), (2, .lu, .lu), (1, .cn, .cn), (11, .ll, .ll),
    (1, .cn, .cn), (15, .ll, .ll), (1, .cn, .cn), (7, .ll, .ll), (1, .cn, .cn), (2, .ll, .ll),
    (3, .cn, .cn), (52, .lo, .lo), (12, .cn, .cn), (311, .lo, .lo), (9, .cn, .cn), (22, .lo, .lo),
    (10, .cn, .cn), (8, .lo, .lo), (24, .cn, .cn), (6, .lm, .lm), (1, .cn, .cn), (42, .lm, .lm),
    (1, .cn, .cn), (9, .lm, .lm), (69, .cn, .cn), (6, .lo, .lo), (2, .cn, .cn), (3, .lo, .cn),
    (43, .lo, .lo), (1, .cn, .cn), (2, .lo, .lo), (3, .cn, .cn), (1, .lo, .lo), (2, .cn, .cn),
    (23, .lo, .lo), (1, .cn, .cn), (1, .po, .po), (8, .no, .no), (23, .lo, .lo), (2, .so, .so),
    (7, .no, .no), (31, .lo, .lo), (8, .cn, .cn), (9, .no, .no), (48, .cn, .cn), (19, .lo, .lo),
    (1, .cn, .cn), (2, .lo, .lo), (5, .cn, .cn), (5, .no, .no), (22, .lo, .lo), (6, .no, .no),
    (3, .cn, .cn), (1, .po, .po), (26, .lo, .lo), (5, .cn, .cn), (1, .po, .po), (26, .lo, .lo),
    (38, .cn, .cn), (56, .lo, .lo), (4, .cn, .cn), (2, .no, .no), (2, .lo, .lo), (16, .no, .no),
    (2, .cn, .cn), (46, .no, .no), (1, .lo, .lo), (3, .mn, .mn), (1, .cn, .cn), (2, .mn, .mn),
    (5, .cn, .cn), (4, .mn, .mn), (4, .lo, .lo), (1, .cn, .cn), (3, .lo, .lo), (1, .cn, .cn),
    (29, .lo, .lo), (2, .cn, .cn), (3, .mn, .mn), (4, .cn, .cn), (1, .mn, .mn), (9, .no, .no),
    (7, .cn, .cn), (9, .po, .po), (7, .cn, .cn), (29, .lo, .lo), (2, .no, .no), (1, .po, .po),
    (29, .lo, .lo), (3, .no, .no), (32, .cn, .cn), (8, .lo, .lo), (1, .so, .so), (28, .lo, .lo),
    (2, .mn, .mn), (4, .cn, .cn), (5, .no, .no), (7, .po, .po), (9, .cn, .cn), (54, .lo, .lo),
    (3, .cn, .cn), (7, .po, .po), (22, .lo, .lo), (2, .cn, .cn), (8, .no, .no), (19, .lo, .lo),
    (5, .cn, .cn), (8, .no, .no), (18, .lo, .lo), (7, .cn, .cn), (4, .po, .po), (12, .cn, .cn),
    (7, .no, .no), (80, .cn, .cn), (73, .lo, .lo), (55, .cn, .cn), (51, .lu, .lu), (13, .cn, .cn),
    (51, .ll, .ll), (7, .cn, .cn), (6, .no, .no), (36, .lo, .lo), (4, .mn, .mn), (8, .cn, .cn),
    (10, .nd, .nd), (6, .cn, .cn), (10, .nd, .nd), (4, .lo, .lo), (1, .lm, .lm), (1, .lo, .lo),
    (22, .lu, .lu), (3, .cn, .cn), (5, .mn, .mn), (1, .pd, .pd), (1, .lm, .lm), (22, .ll, .ll),
    (8, .cn, .cn), (2, .sm, .sm), (208, .cn, .cn), (31, .no, .no), (1, .cn, .cn), (42, .lo, .lo),
    (1, .cn, .cn), (2, .mn, .mn), (1, .pd, .pd), (2, .cn, .cn), (2, .lo, .lo), (16, .cn, .cn),
    (3, .lo, .lo), (1, .lm, .lm), (2, .lo, .lo), (8, .cn, .cn), (1, .po, .po), (8, .so, .so),
    (33, .cn, .cn), (6, .mn, .mn), (29, .lo, .lo), (10, .no, .no), (1, .lo, .lo), (8, .cn, .cn),
    (22, .lo, .lo), (11, .mn, .mn), (4, .no, .no), (5, .po, .po), (22, .cn, .cn), (18, .lo, .lo),
    (4, .mn, .mn)]

def runsFrom10F86 : List (Nat × Category × Category) :=
  [(4, .po, .po), (38, .cn, .cn), (21, .lo, .lo), (7, .no, .no), (20, .cn, .cn), (23, .lo, .lo),
    (9, .cn, .cn), (3, .mc, .mn), (53, .lo, .lo), (15, .mn, .mn), (7, .po, .po), (4, .cn, .cn),
    (20, .no, .no), (10, .nd, .nd), (1, .mn, .mn), (2, .lo, .lo), (2, .mn, .mn), (1, .lo, .lo),
    (9, .cn, .cn), (3, .mn, .mn), (1, .mc, .mc), (45, .lo, .lo), (3, .mc, .mc), (4, .mn, .mn),
    (2, .mc, .mc), (2, .mn, .mn), (2, .po, .po), (1, .cf, .cf), (4, .po, .po), (1, .mn, .mn),
    (10, .cn, .cn), (1, .cf, .cf), (2, .cn, .cn), (25, .lo, .lo), (7, .cn, .cn), (10, .nd, .nd),
    (6, .cn, .cn), (3, .mn, .mn), (36, .lo, .lo), (5, .mn, .mn), (1, .mc, .mc), (8, .mn, .mn),
    (1, .cn, .cn), (10, .nd, .nd), (4, .po, .po), (1, .lo, .lo), (2, .mc, .mc), (1, .lo, .lo),
    (8, .cn, .cn), (35, .lo, .lo), (1, .mn, .mn), (2, .po, .po), (1, .lo, .lo), (9, .cn, .cn),
    (2, .mn, .mn), (1, .mc, .mc), (48, .lo, .lo), (3, .mc, .mc), (9, .mn, .mn), (2, .mc, .mc),
    (4, .lo, .lo), (4, .po, .po), (4, .mn, .mn), (1, .po, .po), (1, .mc, .mc), (1, .mn, .mn),
    (10, .nd, .nd), (4, .lo, .po), (2, .po, .po), (1, .cn, .cn), (20, .no, .no), (11, .cn, .cn),
    (18, .lo, .lo), (1, .cn, .cn), (25, .lo, .lo), (3, .mc, .mc), (3, .mn, .mn), (2, .mc, .mc),
    (3, .mn, .mc), (1, .mn, .mn), (6, .po, .po), (1, .mn, .mn), (2, .lo, .lo), (1, .mn, .mn),
    (62, .cn, .cn), (7, .lo, .lo), (4, .cn, .lo), (3, .lo, .lo), (1, .cn, .cn), (15, .lo, .lo),
    (1, .cn, .cn), (10, .lo, .lo), (1, .po, .po), (6, .cn, .cn), (47, .lo, .lo), (1, .mn, .mn),
    (3, .mc, .mc), (8, .mn, .mn), (5, .cn, .cn), (10, .nd, .nd), (6, .cn, .cn), (2, .mn, .mn),
    (2, .mc, .mc), (1, .cn, .cn), (8, .lo, .lo), (2, .cn, .cn), (2, .lo, .lo), (2, .cn, .cn),
    (22, .lo, .lo), (1, .cn, .cn), (7, .lo, .lo), (1, .cn, .cn), (2, .lo, .lo), (1, .cn, .cn),
    (5, .lo, .lo), (1, .cn, .cn), (2, .mn, .mn), (1, .lo, .lo), (2, .mc, .mc), (1, .mn, .mn),
    (4, .mc, .mc), (2, .cn, .cn), (2, .mc, .mc), (2, .cn, .cn), (3, .mc, .mc), (2, .cn, .cn),
    (1, .lo, .lo), (6, .cn, .cn), (1, .mc, .mc), (5, .cn, .cn), (5, .lo, .lo), (2, .mc, .mc),
    (2, .cn, .cn), (7, .mn, .mn), (3, .cn, .cn), (5, .mn, .mn), (11, .cn, .cn), (10, .lo, .lo),
    (3, .cn, .lo), (4, .cn, .lo), (37, .lo, .lo), (1, .cn, .cn), (1, .lo, .lo), (3, .mc, .mc),
    (6, .mn, .mn), (3, .cn, .mc), (4, .cn, .mc), (3, .mc, .mc), (1, .cn, .cn), (2, .mc, .mc),
    (3, .mn, .mc), (3, .lo, .mn), (2, .po, .po), (1, .cn, .cn), (2, .po, .po), (8, .cn, .cn),
    (2, .mn, .mn), (29, .cn, .cn), (53, .lo, .lo), (3, .mc, .mc), (8, .mn, .mn), (2, .mc, .mc),
    (3, .mn, .mn), (1, .mc, .mc), (1, .mn, .mn), (4, .lo, .lo), (5, .po, .po), (10, .nd, .nd),
    (2, .po, .po), (1, .cn, .cn), (1, .po, .po), (1, .mn, .mn), (3, .lo, .lo), (30, .cn, .cn),
    (48, .lo, .lo), (3, .mc, .mc), (6, .mn, .mn), (3, .mc, .mn), (3, .mc, .mc), (2, .mn, .mn),
    (1, .mc, .mc), (2, .mn, .mn), (2, .lo, .lo), (1, .po, .po), (1, .lo, .lo), (8, .cn, .cn),
    (10, .nd, .nd), (166, .cn, .cn), (47, .lo, .lo), (3, .mc, .mc), (4, .mn, .mn), (2, .cn, .cn),
    (4, .mc, .mc), (2, .mn, .mn), (1, .mc, .mc), (2, .mn, .mn), (23, .po, .po), (4, .lo, .lo),
    (2, .mn, .mn), (34, .cn, .cn), (48, .lo, .lo), (3, .mc, .mc), (8, .mn, .mn), (2, .mc, .mc),
    (3, .mn, .mc), (1, .mn, .mn), (3, .po, .po), (1, .lo, .lo), (11, .cn, .cn), (10, .nd, .nd),
    (6, .cn, .cn), (13, .po, .po), (19, .cn, .cn), (43, .lo, .lo), (4, .mn, .mc), (1, .mc, .mc),
    (6, .mn, .mn), (1, .mc, .mc), (1, .mn, .mn), (1, .lo, .lo), (1, .po, .po), (6, .cn, .cn),
    (10, .nd, .nd), (6, .cn, .cn), (20, .nd, .nd), (28, .cn, .cn), (27, .lo, .lo), (2, .cn, .cn),
    (4, .mn, .mc), (1, .mc, .mc), (4, .mn, .mn), (1, .mc, .mc), (5, .mn, .mn), (4, .cn, .cn),
    (10, .nd, .nd), (2, .no, .no), (3, .po, .po), (1, .so, .so), (7, .lo, .lo), (185, .cn, .cn),
    (44, .lo, .lo), (3, .mc, .mc), (9, .mn, .mn), (1, .mc, .mc), (2, .mn, .mn), (1, .po, .po),
    (100, .cn, .cn), (32, .lu, .lu), (32, .ll, .ll), (10, .nd, .nd), (9, .no, .no), (12, .cn, .cn),
    (8, .lo, .lo), (2, .cn, .cn), (1, .lo, .lo), (2, .cn, .cn), (8, .lo, .lo), (1, .cn, .cn),
    (2, .lo, .lo), (1, .cn, .cn), (24, .lo, .lo), (6, .mc, .mc), (1, .cn, .cn), (2, .mc, .mc),
    (2, .cn, .cn), (2, .mn, .mn), (1, .mc, .mc), (1, .mn, .mn), (4, .lo, .mc), (1, .mn, .mn),
    (3, .po, .po), (9, .cn, .cn), (10, .nd, .nd), (70, .cn, .cn), (8, .lo, .lo), (2, .cn, .cn),
    (39, .lo, .lo), (3, .mc, .mc), (4, .mn, .mn), (2, .cn, .cn), (2, .mn, .mn), (4, .mc, .mc),
    (1, .mn, .mn), (3, .lo, .po), (1, .mc, .mc), (27, .cn, .cn), (1, .lo, .lo), (10, .mn, .mn),
    (40, .lo, .lo), (6, .mn, .mn), (1, .mc, .mc), (1, .lo, .lo), (4, .mn, .mn), (8, .po, .po),
    (1, .mn, .mn), (8, .cn, .cn), (1, .lo, .lo), (6, .mn, .mn), (2, .mc, .mc), (3, .mn, .mn),
    (46, .lo, .lo), (13, .mn, .mn), (1, .mc, .mc), (2, .mn, .mn), (3, .po, .po), (1, .lo, .lo),
    (5, .po, .po), (13, .cn, .cn), (73, .lo, .lo), (7, .cn, .cn), (10, .po, .po), (86, .cn, .cn),
    (3, .mn, .mc), (2, .mn, .mn), (3, .mc, .mn), (88, .cn, .cn), (33, .lo, .lo), (1, .po, .po),
    (14, .cn, .cn), (10, .nd, .nd), (6, .cn, .cn), (9, .lo, .lo), (1, .cn, .cn), (37, .lo, .lo),
    (1, .mc, .mc), (7, .mn, .mn), (1, .cn, .cn), (6, .mn, .mn), (1, .mc, .mc), (1, .mn, .mn),
    (1, .lo, .lo), (5, .po, .po), (10, .cn, .cn), (10, .nd, .nd), (19, .no, .no), (3, .cn, .cn),
    (2, .po, .po), (30, .lo, .lo), (2, .cn, .cn), (22, .mn, .mn), (1, .cn, .cn), (1, .mc, .mc),
    (7, .mn, .mn), (1, .mc, .mc), (2, .mn, .mn), (1, .mc, .mc), (2, .mn, .mn), (73, .cn, .cn),
    (7, .lo, .lo), (1, .cn, .cn), (2, .lo, .lo), (1, .cn, .cn), (38, .lo, .lo), (6, .mn, .mn),
    (3, .cn, .cn), (3, .mn, .cn), (3, .mn, .cn), (6, .mn, .mn), (1, .lo, .lo), (1, .mn, .mn),
    (8, .cn, .cn), (10, .nd, .nd), (6, .cn, .cn), (6, .lo, .lo), (1, .cn, .cn), (2, .lo, .lo),
    (1, .cn, .cn), (32, .lo, .lo), (5, .mc, .mc), (1, .cn, .cn), (2, .mn, .mn), (1, .cn, .cn),
    (2, .mc, .mc), (3, .mn, .mc), (1, .lo, .lo), (7, .cn, .cn), (10, .nd, .nd), (6, .cn, .cn),
    (41, .lo, .lo), (1, .lm, .lm), (2, .lo, .lo), (4, .cn, .cn), (10, .nd, .nd), (246, .cn, .cn),
    (19, .lo, .lo), (2, .mn, .mn), (2, .mc, .mc), (2, .po, .po), (7, .cn, .cn), (2, .mn, .mn),
    (3, .lo, .mc), (12, .lo, .lo), (1, .cn, .cn), (34, .lo, .lo), (2, .mc, .mc), (5, .mn, .mn),
    (3, .cn, .cn), (2, .mc, .mc), (3, .mn, .mc), (13, .po, .po), (10, .nd, .nd), (1, .mn, .mn),
    (85, .cn, .cn), (1, .lo, .lo), (15, .cn, .cn), (21, .no, .no), (8, .so, .so), (4, .sc, .sc),
    (17, .so, .so), (13, .cn, .cn), (1, .po, .po), (922, .lo, .lo), (102, .cn, .cn),
    (111, .nl, .nl), (1, .cn, .cn), (5, .po, .po), (11, .cn, .cn), (196, .lo, .lo),
    (2636, .cn, .cn), (97, .lo, .lo), (2, .po, .po), (13, .cn, .cn), (1072, .lo, .lo),
    (16, .cf, .cf), (1, .mn, .mn), (6, .lo, .lo), (15, .mn, .mn), (10, .cn, .cn), (3995, .lo, .lo),
    (5, .cn, .cn), (583, .lo, .lo), (6841, .cn, .cn), (30, .lo, .lo), (12, .mn, .mn), (3, .mc, .mc),
    (3, .mn, .mn), (10, .nd, .nd), (1734, .cn, .cn), (569, .lo, .lo), (7, .cn, .cn), (31, .lo, .lo),
    (1, .cn, .cn), (10, .nd, .nd), (4, .cn, .cn), (2, .po, .po), (79, .lo, .lo), (1, .cn, .cn),
    (10, .nd, .nd), (6, .cn, .cn), (30, .lo, .lo), (2, .cn, .cn), (5, .mn, .mn), (1, .po, .po),
    (10, .cn, .cn), (48, .lo, .lo), (7, .mn, .mn), (5, .po, .po), (4, .so, .so), (4, .lm, .lm),
    (1, .po, .po), (1, .so, .so), (10, .cn, .cn), (10, .nd, .nd), (1, .cn, .cn), (7, .no, .no),
    (1, .cn, .cn), (21, .lo, .lo), (5, .cn, .cn), (19, .lo, .lo), (432, .cn, .cn), (3, .lm, .lm),
    (40, .lo, .lo), (2, .lm, .lm), (3, .po, .po), (10, .nd, .nd), (198, .cn, .cn), (32, .lu, .lu),
    (32, .ll, .ll), (23, .no, .no), (4, .po, .po)]

def runsFrom16E9B : List (Nat × Category × Category) :=
  [(5, .cn, .cn), (25, .lu, .lu), (2, .cn, .cn), (25, .ll, .ll), (44, .cn, .cn), (75, .lo, .lo),
    (4, .cn, .cn), (1, .mn, .mn), (1, .lo, .lo), (55, .mc, .mc), (7, .cn, .cn), (4, .mn, .mn),
    (13, .lm, .lm), (64, .cn, .cn), (2, .lm, .lm), (1, .po, .po), (1, .lm, .lm), (1, .mn, .mn),
    (11, .cn, .cn), (2, .mc, .mc), (2, .lm, .lm), (3, .nl, .nl), (9, .cn, .cn), (7382, .lo, .lo),
    (41, .cn, .cn), (32, .lo, .lo), (97, .cn, .cn), (115, .lo, .lo), (8701, .cn, .cn),
    (4, .lm, .lm), (1, .cn, .cn), (7, .lm, .lm), (1, .cn, .cn), (2, .lm, .lm), (1, .cn, .cn),
    (291, .lo, .lo), (15, .cn, .cn), (1, .lo, .lo), (29, .cn, .cn), (3, .lo, .lo), (2, .cn, .cn),
    (1, .lo, .lo), (14, .cn, .cn), (4, .lo, .lo), (8, .cn, .cn), (396, .lo, .lo), (2308, .cn, .cn),
    (107, .lo, .lo), (5, .cn, .cn), (13, .lo, .lo), (3, .cn, .cn), (9, .lo, .lo), (7, .cn, .cn),
    (10, .lo, .lo), (2, .cn, .cn), (1, .so, .so), (2, .mn, .mn), (1, .po, .po), (4, .cf, .cf),
    (3932, .cn, .cn), (240, .so, .so), (10, .nd, .nd), (3, .so, .so), (3, .cn, .cn),
    (436, .so, .so), (6, .cn, .cn), (23, .so, .so), (15, .cn, .cn), (16, .so, .so), (1, .sm, .sm),
    (15, .cn, .cn), (46, .mn, .mn), (2, .cn, .cn), (23, .mn, .mn), (9, .cn, .cn), (116, .so, .so),
    (60, .cn, .cn), (246, .so, .so), (10, .cn, .cn), (39, .so, .so), (2, .cn, .cn), (60, .so, .so),
    (2, .mc, .mc), (3, .mn, .mn), (3, .so, .so), (6, .mc, .mc), (8, .cf, .cf), (8, .mn, .mn),
    (2, .so, .so), (7, .mn, .mn), (30, .so, .so), (4, .mn, .mn), (61, .so, .so), (21, .cn, .cn),
    (66, .so, .so), (3, .mn, .mn), (1, .so, .so), (122, .cn, .cn), (20, .no, .no), (12, .cn, .cn),
    (20, .no, .no), (12, .cn, .cn), (87, .so, .so), (9, .cn, .cn), (25, .no, .no), (135, .cn, .cn),
    (26, .lu, .lu), (26, .ll, .ll), (26, .lu, .lu), (7, .ll, .ll), (1, .cn, .cn), (18, .ll, .ll),
    (26, .lu, .lu), (26, .ll, .ll), (3, .lu, .cn), (1, .lu, .lu), (2, .cn, .cn), (1, .lu, .lu),
    (2, .cn, .cn), (2, .lu, .lu), (2, .cn, .cn), (4, .lu, .lu), (1, .cn, .cn), (8, .lu, .lu),
    (4, .ll, .ll), (4, .cn, .ll), (6, .ll, .ll), (1, .cn, .cn), (11, .ll, .ll), (26, .lu, .lu),
    (26, .ll, .ll), (2, .lu, .lu), (1, .cn, .cn), (4, .lu, .lu), (2, .cn, .cn), (8, .lu, .lu),
    (1, .cn, .cn), (7, .lu, .lu), (1, .cn, .cn), (26, .ll, .ll), (2, .lu, .lu), (1, .cn, .cn),
    (4, .lu, .lu), (1, .cn, .cn), (5, .lu, .lu), (3, .cn, .lu), (2, .cn, .cn), (7, .lu, .lu),
    (1, .cn, .cn), (26, .ll, .ll), (26, .lu, .lu), (26, .ll, .ll), (26, .lu, .lu), (26, .ll, .ll),
    (26, .lu, .lu), (26, .ll, .ll), (26, .lu, .lu), (26, .ll, .ll), (26, .lu, .lu), (26, .ll, .ll),
    (26, .lu, .lu), (28, .ll, .ll), (2, .cn, .cn), (25, .lu, .lu), (1, .sm, .sm), (25, .ll, .ll),
    (1, .sm, .sm), (6, .ll, .ll), (25, .lu, .lu), (1, .sm, .sm), (25, .ll, .ll), (1, .sm, .sm),
    (6, .ll, .ll), (25, .lu, .lu), (1, .sm, .sm), (25, .ll, .ll), (1, .sm, .sm), (6, .ll, .ll),
    (25, .lu, .lu), (1, .sm, .sm), (25, .ll, .ll), (1, .sm, .sm), (6, .ll, .ll), (25, .lu, .lu),
    (1, .sm, .sm), (25, .ll, .ll), (1, .sm, .sm), (6, .ll, .ll), (1, .lu, .lu), (1, .ll, .ll),
    (2, .cn, .cn), (50, .nd, .nd), (512, .so, .so), (55, .mn, .mn), (4, .so, .so), (50, .mn, .mn),
    (8, .so, .so), (1, .mn, .mn), (14, .so, .so), (1, .mn, .mn), (2, .so, .so), (5, .po, .po),
    (15, .cn, .cn), (5, .mn, .mn), (1, .cn, .cn), (15, .mn, .mn), (1104, .cn, .cn), (10, .ll, .ll),
    (1, .lo, .lo), (20, .ll, .ll), (6, .cn, .cn), (6, .ll, .ll), (213, .cn, .cn), (7, .mn, .mn),
    (1, .cn, .cn), (17, .mn, .mn), (2, .cn, .cn), (7, .mn, .mn), (1, .cn, .cn), (2, .mn, .mn),
    (1, .cn, .cn), (5, .mn, .mn), (5, .cn, .cn), (62, .lm, .lm), (33, .cn, .cn), (1, .mn, .mn),
    (112, .cn, .cn), (45, .lo, .lo), (3, .cn, .cn), (7, .mn, .mn), (7, .lm, .lm), (2, .cn, .cn),
    (10, .nd, .nd), (4, .cn, .cn), (1, .lo, .lo), (1, .so, .so), (320, .cn, .cn), (30, .lo, .lo),
    (1, .mn, .mn), (17, .cn, .cn), (44, .lo, .lo), (4, .mn, .mn), (10, .nd, .nd), (5, .cn, .cn),
    (1, .sc, .sc), (464, .cn, .cn), (27, .lo, .lo), (1, .lm, .lm), (4, .mn, .mn), (10, .nd, .nd),
    (214, .cn, .cn), (30, .lo, .lo), (2, .mn, .mn), (1, .lo, .lo), (10, .nd, .nd), (4, .cn, .cn),
    (1, .po, .po), (192, .cn, .cn), (31, .lo, .lo), (1, .cn, .cn), (3, .lo, .lo), (1, .mn, .mn),
    (2, .lo, .lo), (1, .mn, .mn), (7, .lo, .lo), (2, .mn, .mn), (5, .lo, .lo), (1, .mn, .mn),
    (8, .cn, .cn), (1, .lo, .lo), (1, .lm, .lm), (224, .cn, .cn), (7, .lo, .lo), (1, .cn, .cn),
    (4, .lo, .lo), (1, .cn, .cn), (2, .lo, .lo), (1, .cn, .cn), (15, .lo, .lo), (1, .cn, .cn),
    (197, .lo, .lo), (2, .cn, .cn), (9, .no, .no), (7, .mn, .mn), (41, .cn, .cn), (34, .lu, .lu),
    (34, .ll, .ll), (7, .mn, .mn), (1, .lm, .lm), (4, .cn, .cn), (10, .nd, .nd), (4, .cn, .cn),
    (2, .po, .po), (785, .cn, .cn), (59, .no, .no), (1, .so, .so), (3, .no, .no), (1, .sc, .sc),
    (4, .no, .no), (76, .cn, .cn), (45, .no, .no), (1, .so, .so), (15, .no, .no), (194, .cn, .cn),
    (4, .lo, .lo), (1, .cn, .cn), (27, .lo, .lo), (1, .cn, .cn), (2, .lo, .lo), (3, .cn, .lo),
    (4, .cn, .lo), (9, .lo, .lo), (1, .cn, .cn), (4, .lo, .lo), (5, .cn, .lo), (5, .cn, .cn),
    (1, .lo, .lo), (4, .cn, .cn), (7, .lo, .cn), (2, .lo, .lo), (1, .cn, .cn), (2, .lo, .lo),
    (3, .cn, .lo), (12, .cn, .lo), (4, .lo, .cn), (1, .cn, .cn), (4, .lo, .lo), (1, .cn, .cn),
    (7, .lo, .lo), (1, .cn, .cn), (4, .lo, .lo), (1, .cn, .cn), (4, .lo, .lo), (4, .cn, .lo),
    (9, .lo, .lo), (1, .cn, .cn), (17, .lo, .lo), (5, .cn, .cn), (3, .lo, .lo), (1, .cn, .cn),
    (5, .lo, .lo), (1, .cn, .cn), (17, .lo, .lo), (52, .cn, .cn), (2, .sm, .sm), (270, .cn, .cn),
    (44, .so, .so), (4, .cn, .cn), (100, .so, .so), (12, .cn, .cn), (15, .so, .so), (2, .cn, .cn),
    (15, .so, .so), (1, .cn, .cn), (15, .so, .so), (1, .cn, .cn), (37, .so, .so), (10, .cn, .cn),
    (13, .no, .no), (161, .so, .so), (56, .cn, .cn), (29, .so, .so), (13, .cn, .cn), (44, .so, .so),
    (4, .cn, .cn), (9, .so, .so), (7, .cn, .cn), (2, .so, .so), (14, .cn, .cn), (6, .so, .so),
    (154, .cn, .cn), (251, .so, .so), (5, .sk, .sk), (729, .so, .so), (3, .cn, .cn), (17, .so, .so),
    (3, .cn, .cn), (13, .so, .so), (3, .cn, .cn), (218, .so, .so), (6, .cn, .cn), (12, .so, .so),
    (4, .cn, .cn), (1, .so, .so), (15, .cn, .cn), (12, .so, .so), (4, .cn, .cn), (56, .so, .so),
    (8, .cn, .cn), (10, .so, .so), (6, .cn, .cn), (40, .so, .so), (8, .cn, .cn), (30, .so, .so),
    (2, .cn, .cn), (12, .so, .so), (4, .cn, .cn), (2, .so, .so), (14, .cn, .cn), (9, .sm, .sm),
    (39, .cn, .cn), (344, .so, .so), (8, .cn, .cn), (14, .so, .so), (2, .cn, .cn), (13, .so, .so),
    (3, .cn, .cn), (11, .so, .so), (3, .cn, .cn), (57, .so, .so), (3, .cn, .so), (3, .cn, .cn),
    (16, .so, .so), (2, .cn, .cn), (12, .so, .so), (4, .cn, .cn), (10, .so, .so), (7, .cn, .cn),
    (147, .so, .so), (1, .cn, .cn), (92, .so, .so), (10, .nd, .nd), (1, .so, .so), (1029, .cn, .cn),
    (42720, .lo, .lo), (32, .cn, .cn), (4382, .lo, .lo), (2, .cn, .cn), (5774, .lo, .lo),
    (2, .cn, .cn), (7473, .lo, .lo), (15, .cn, .cn), (622, .lo, .lo), (2466, .cn, .cn),
    (542, .lo, .lo), (1506, .cn, .cn), (4939, .lo, .lo), (5, .cn, .cn), (8490, .lo, .lo),
    (707463, .cn, .cn), (1, .cf, .cf), (30, .cn, .cn), (96, .cf, .cf), (128, .cn, .cn),
    (240, .mn, .mn), (65040, .cn, .cn), (65534, .co, .co), (2, .cn, .cn), (65534, .co, .co),
    (2, .cn, .cn)]

def runs : List (Nat × Category × Category) :=
  runsFrom0 ++ runsFromC0E ++ runsFrom1D79 ++ runsFromA900 ++ runsFrom10F86 ++ runsFrom16E9B

/-- The category of the code point at a distance from the first one of the runs. -/
def lookup : Nat → List (Nat × Category × Category) → Category
  | _, [] => .cn
  | n, (length, even, odd) :: rest =>
    if n < length then if n % 2 = 0 then even else odd else lookup (n - length) rest

def ofCode (n : Nat) : Category := lookup n runs

def of (c : Char) : Category := ofCode c.toNat

end Category

end TemplateMarkup
