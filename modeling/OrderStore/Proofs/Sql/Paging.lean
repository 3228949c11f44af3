import OrderStore.Proofs.Sql.Ordering
import OrderStore.Proofs.Sql.SameFilter

namespace OrderStore

open Sql

section

variable (db : Database) (le : Collation)

namespace Sql.Statement

def Accepts (st : Statement) (row : Row) : Prop :=
  st.condition.Holds db [⟨st.table, fun column => some (row column)⟩]

open Classical in
noncomputable def matching (rows : List Row) (st : Statement) : List Row :=
  rows.filter fun row => st.Accepts db row

structure Lists (rows : List Row) (st : Statement) (xs : List Row) : Prop where
  perm : xs.Perm (st.matching db rows)
  sorted : xs.Pairwise (Precedes le st.keys)

def Returns (rows : List Row) (st : Statement) (ys : List Row) : Prop :=
  ∃ (xs : List Row) (limit offset : Int), st.Lists db le rows xs ∧ st.limit = .int limit ∧
    st.offset = .int offset ∧ ys = (xs.drop offset.toNat).take limit.toNat

end Sql.Statement

namespace Query

open Classical in
noncomputable def matching (tables : Tables) (rows : List Row) (q : Query) : List Row :=
  rows.filter fun row => Selects db tables row q

def statement? (tables : Tables) (q : Query) : Option Statement :=
  (Search.ofQuery tables q).toOption.bind Search.statement?

def Lists (tables : Tables) (rows : List Row) (q : Query) (xs : List Row) : Prop :=
  ∃ st, q.statement? tables = some st ∧ st.Lists db le rows xs

def Returns (tables : Tables) (rows : List Row) (q : Query) (ys : List Row) : Prop :=
  ∃ st, q.statement? tables = some st ∧ st.Returns db le rows ys

end Query

end

namespace Query

variable {db : Database} {le : Collation} {tables : Tables} {rows xs ys : List Row} {p q : Query}

def statement (tables : Tables) (q : Query) : Statement :=
  ⟨tables.orders.key, Predicate.whereExpr tables (Predicate.ofQuery q), (Sorting.ofQuery q).keys, q .limit,
    q .offset⟩

theorem Built.statement?_eq (hq : q.Built) (tables : Tables) : q.statement? tables = some (q.statement tables) := by
  obtain ⟨cs, hcs⟩ := exists_ofQuery tables hq.admits
  have hs : Search.ofQuery tables q = .ok _ := map_eq_ok.mpr ⟨cs, hcs, rfl⟩
  rw [statement?, hs]
  exact Search.statement?_eq hs

theorem Built.accepts_iff (hq : q.Built) (row : Row) :
    (q.statement tables).Accepts db row ↔ Selects db tables row q := by
  rw [selects_iff hq.admits]
  exact holds_whereExpr _

theorem Built.matching_eq (hq : q.Built) :
    (q.statement tables).matching db rows = q.matching db tables rows :=
  List.filter_congr fun row _ => decide_eq_decide.mpr (hq.accepts_iff row)

theorem Built.lists_iff (hq : q.Built) :
    q.Lists db le tables rows xs ↔
      xs.Perm (q.matching db tables rows) ∧ xs.Pairwise (Precedes le (Sorting.ofQuery q).keys) := by
  rw [Lists, hq.statement?_eq, ← hq.matching_eq]
  constructor
  · rintro ⟨st, hst, h⟩
    cases hst
    exact ⟨h.perm, h.sorted⟩
  · rintro ⟨hperm, hsorted⟩
    exact ⟨_, rfl, hperm, hsorted⟩

theorem Built.returns_iff (hq : q.Built) {limit offset : Int} (hlimit : q .limit = .int limit)
    (hoffset : q .offset = .int offset) :
    q.Returns db le tables rows ys ↔
      ∃ xs, q.Lists db le tables rows xs ∧ ys = (xs.drop offset.toNat).take limit.toNat := by
  rw [Returns, hq.statement?_eq]
  constructor
  · rintro ⟨st, hst, xs, m, n, hxs, hm, hn, rfl⟩
    cases hst
    obtain rfl : limit = m := Value.int.inj (hlimit.symm.trans hm)
    obtain rfl : offset = n := Value.int.inj (hoffset.symm.trans hn)
    exact ⟨xs, ⟨_, hq.statement?_eq tables, hxs⟩, rfl⟩
  · rintro ⟨xs, ⟨st, hst, hxs⟩, rfl⟩
    rw [hq.statement?_eq] at hst
    cases hst
    exact ⟨_, rfl, xs, limit, offset, hxs, hlimit, hoffset, rfl⟩

theorem SameFilter.selects_iff (hp : p.Built) (hq : q.Built) (h : p.SameFilter q) (row : Row) :
    Selects db tables row p ↔ Selects db tables row q := by
  rw [Sql.selects_iff hp.admits, Sql.selects_iff hq.admits, h.predicates]

theorem SameFilter.matching_eq (hp : p.Built) (hq : q.Built) (h : p.SameFilter q) :
    p.matching db tables rows = q.matching db tables rows :=
  List.filter_congr fun row _ => decide_eq_decide.mpr (h.selects_iff hp hq row)

theorem SameFilter.lists_iff (hp : p.Built) (hq : q.Built) (h : p.SameFilter q)
    (hsorting : Sorting.ofQuery p = Sorting.ofQuery q) :
    p.Lists db le tables rows xs ↔ q.Lists db le tables rows xs := by
  rw [hp.lists_iff, hq.lists_iff, h.matching_eq hp hq, hsorting]

theorem Built.exists_sequence (hq : q.Built)
    (hrows : Sortable le (sortColumn (q .column)) (q.matching db tables rows)) :
    ∃ xs, ∀ ys, q.Lists db le tables rows ys ↔ ys = xs := by
  obtain ⟨xs, hxs, hunique⟩ := Sorting.existsUnique_order (s := .ofQuery q) hrows
  refine ⟨xs, fun ys => ?_⟩
  rw [hq.lists_iff]
  exact ⟨hunique ys, fun h => h ▸ hxs⟩

def sorted (column : Value) (direction : Text) (q : Query) : Query :=
  assignAll [(.column, column), (.direction, .text direction)] q

theorem refine_orderBy (now : WallClock) (q : Query) (column direction : Value) :
    q.refine now (.orderBy column direction) = .ok (q.sorted column (Refinement.directionOf direction)) := rfl

theorem sameFilter_sorted (q : Query) (column : Value) (direction : Text) :
    (q.sorted column direction).SameFilter q :=
  sameFilter_assignAll (by simp [Criterion.arrangement]) q

theorem Built.lists_reverse_iff (hq : q.Built) (column : Value) :
    (q.sorted column "asc").Lists db le tables rows xs ↔
      (q.sorted column "desc").Lists db le tables rows xs.reverse := by
  let now : WallClock := .ofTimestamp ⟨⟨2024, 1, 31, by decide⟩, .midnight⟩
  have hup : (q.sorted column "asc").Built := hq.refine (refine_orderBy now q column (.text "asc"))
  have hdown : (q.sorted column "desc").Built := hq.refine (refine_orderBy now q column (.text "desc"))
  have hkeys : (Sorting.ofQuery (q.sorted column "desc")).keys =
      (Sorting.ofQuery (q.sorted column "asc")).keys.map SortKey.reversed := Sorting.keys_not _ true
  rw [hup.lists_iff, hdown.lists_iff, (sameFilter_sorted q column _).matching_eq hup hq,
    (sameFilter_sorted q column _).matching_eq hdown hq, hkeys, pairwise_reversed, List.reverse_reverse]
  exact and_congr_left fun _ => (List.reverse_perm xs).congr_left _ |>.symm

end Query

section

variable {α : Type} {size : Nat} {xs : List α}

def pageOf (size : Nat) (xs : List α) (number : Int) : List α :=
  (xs.drop ((max 1 number - 1).toNat * size)).take size

def firstPages (page : Int → List α) (k : Nat) : List α := (List.range k).flatMap fun i : Nat => page (i + 1)

/-- The pages of a size part the elements: the first pages hold the first elements, enough pages hold all
of them, no two pages share an element, and only the pages behind the last element are empty. -/
structure Partitions (size : Nat) (page : Int → List α) (xs : List α) : Prop where
  consecutive : ∀ k, firstPages page k = xs.take (k * size)
  complete : ∀ k, xs.length ≤ k * size → firstPages page k = xs
  disjoint : ∀ i j, 1 ≤ i → i < j → (page i).Disjoint (page j)
  eq_nil_iff : ∀ i, 1 ≤ i → (page i = [] ↔ (xs.length : Int) ≤ (i - 1) * size)
  first : ∀ i, i ≤ 0 → page i = page 1

theorem pageOf_succ (i : Nat) : pageOf size xs (i + 1) = (xs.drop (i * size)).take size := by
  have hstart : (max 1 ((i : Int) + 1) - 1).toNat = i := by omega
  rw [pageOf, hstart]

theorem exists_pageOf {number : Int} (h : 1 ≤ number) :
    ∃ i : Nat, number = i + 1 ∧ pageOf size xs number = (xs.drop (i * size)).take size := by
  refine ⟨(number - 1).toNat, by omega, ?_⟩
  rw [← pageOf_succ]
  congr
  omega

theorem firstPages_pageOf (k : Nat) : firstPages (pageOf size xs) k = xs.take (k * size) := by
  induction k with
  | zero => simp [firstPages]
  | succ k ih =>
    rw [firstPages] at ih ⊢
    rw [List.range_succ, List.flatMap_append, ih, List.flatMap_singleton, pageOf_succ, ← List.take_add,
      Nat.succ_mul]

theorem disjoint_pageOf (hxs : xs.Nodup) {i j : Int} (hi : 1 ≤ i) (hij : i < j) :
    (pageOf size xs i).Disjoint (pageOf size xs j) := by
  obtain ⟨m, rfl, hm⟩ := exists_pageOf hi
  obtain ⟨n, rfl, hn⟩ := exists_pageOf (by omega : 1 ≤ j)
  have hle : m * size + size ≤ n * size := by
    rw [← Nat.succ_mul]
    exact Nat.mul_le_mul_right size (by omega)
  intro x hx hx'
  rw [hm, List.take_drop] at hx
  rw [hn] at hx'
  exact List.disjoint_take_drop hxs hle (List.mem_of_mem_drop hx) (List.mem_of_mem_take hx')

theorem pageOf_eq_nil_iff (hsize : 0 < size) {i : Int} (hi : 1 ≤ i) :
    pageOf size xs i = [] ↔ (xs.length : Int) ≤ (i - 1) * size := by
  obtain ⟨m, rfl, hm⟩ := exists_pageOf hi
  rw [hm, List.take_eq_nil_iff, List.drop_eq_nil_iff, Int.add_sub_cancel]
  constructor
  · intro h
    exact_mod_cast h.resolve_left (by omega)
  · intro h
    exact .inr (by exact_mod_cast h)

theorem partitions_pageOf (hsize : 0 < size) (hxs : xs.Nodup) : Partitions size (pageOf size xs) xs where
  consecutive := firstPages_pageOf
  complete k hk := by rw [firstPages_pageOf, List.take_of_length_le hk]
  disjoint _ _ := disjoint_pageOf hxs
  eq_nil_iff _ := pageOf_eq_nil_iff hsize
  first i hi := by rw [pageOf, pageOf, Int.max_eq_left (by omega), Int.max_self]

end

namespace Query

variable {db : Database} {le : Collation} {tables : Tables} {rows xs ys : List Row} {q : Query}

def paged (number : Int) (size : Nat) (q : Query) : Query :=
  assignAll [(.limit, .int size), (.offset, .int ((max 1 number - 1) * size))] q

theorem refine_page (now : WallClock) (q : Query) (number : Int) {size : Nat} (hsize : 0 < size) :
    q.refine now (.page (.int number) (.int size)) = .ok (q.paged number size) := by
  have hmax : max 1 (size : Int) = size := Int.max_eq_right (by omega)
  change Except.ok (assignAll [(.limit, .int (max 1 (size : Int))),
    (.offset, .int ((max 1 number - 1) * max 1 (size : Int)))] q) = _
  rw [hmax]
  rfl

theorem sameFilter_paged (q : Query) (number : Int) (size : Nat) : (q.paged number size).SameFilter q :=
  sameFilter_assignAll (by simp [Criterion.arrangement]) q

theorem Built.returns_paged_iff (hq : q.Built) {size : Nat} (hsize : 0 < size) (number : Int)
    (hxs : ∀ zs, q.Lists db le tables rows zs ↔ zs = xs) :
    (q.paged number size).Returns db le tables rows ys ↔ ys = pageOf size xs number := by
  let now : WallClock := .ofTimestamp ⟨⟨2024, 1, 31, by decide⟩, .midnight⟩
  have hp : (q.paged number size).Built := hq.refine (refine_page now q number hsize)
  have hlists (zs : List Row) : (q.paged number size).Lists db le tables rows zs ↔ zs = xs := by
    rw [← hxs]
    exact (sameFilter_paged q number size).lists_iff hp hq rfl
  have hoffset : ((max 1 number - 1) * size).toNat = (max 1 number - 1).toNat * size := by
    rw [Int.toNat_mul (by omega) (by omega), Int.toNat_natCast]
  rw [hp.returns_iff rfl rfl]
  simp only [hlists, exists_eq_left, hoffset, Int.toNat_natCast, pageOf]

/-- The rows that match the query have one order, and its pages of a size part them in that order. -/
structure Pages (db : Database) (le : Collation) (tables : Tables) (rows : List Row) (now : WallClock)
    (size : Nat) (q : Query) (xs : List Row) (page : Int → List Row) : Prop where
  keys : (q.statement? tables).map Statement.keys = some (Sorting.ofQuery q).keys
  matching : q.Resolves tables → ∀ row, Selects db tables row q ↔ q.Matches db tables row
  perm : xs.Perm (q.matching db tables rows)
  sorted : xs.Pairwise (Precedes le (Sorting.ofQuery q).keys)
  lists_iff : ∀ ys, q.Lists db le tables rows ys ↔ ys = xs
  returns_iff : ∀ number, ∃ p, q.refine now (.page (.int number) (.int size)) = .ok p ∧
    ∀ ys, p.Returns db le tables rows ys ↔ ys = page number
  partitions : Partitions size page xs

theorem Built.pages (hq : q.Built) (now : WallClock) {size : Nat} (hsize : 0 < size)
    (hrows : Sortable le (sortColumn (q .column)) (q.matching db tables rows)) :
    ∃ xs, q.Pages db le tables rows now size xs (pageOf size xs) := by
  obtain ⟨xs, hxs⟩ := hq.exists_sequence hrows
  obtain ⟨hperm, hsorted⟩ := hq.lists_iff.mp ((hxs xs).mpr rfl)
  refine ⟨xs, ?_, ?_, hperm, hsorted, hxs, ?_, ?_⟩
  · rw [hq.statement?_eq]
    rfl
  · intro hresolves row
    rw [selects_iff hq.admits, allHold_ofQuery hq.admits]
    exact and_iff_right hresolves
  · intro number
    exact ⟨_, refine_page now q number hsize, fun ys => hq.returns_paged_iff hsize number hxs⟩
  · exact partitions_pageOf hsize (hperm.nodup_iff.mpr (hrows.ids.of_map _))

theorem Built.directions (hq : q.Built) (now : WallClock)
    (hrows : Sortable le (sortColumn (q .column)) (q.matching db tables rows)) :
    ∃ up down xs, q.refine now (.orderBy (q .column) (.text "asc")) = .ok up ∧
      q.refine now (.orderBy (q .column) (.text "desc")) = .ok down ∧
      (∀ ys, up.Lists db le tables rows ys ↔ ys = xs) ∧
      ∀ ys, down.Lists db le tables rows ys ↔ ys = xs.reverse := by
  have hrefine := refine_orderBy now q (q .column) (.text "asc")
  have hup := hq.refine hrefine
  rw [← (sameFilter_sorted q (q .column) "asc").matching_eq hup hq] at hrows
  obtain ⟨xs, hxs⟩ := hup.exists_sequence hrows
  refine ⟨_, _, xs, hrefine, refine_orderBy now q (q .column) (.text "desc"), hxs, fun ys => ?_⟩
  have hreverse : ys = xs.reverse ↔ ys.reverse = xs := List.reverse_eq_iff.symm
  rw [hreverse, ← hxs, ← List.reverse_reverse ys, List.reverse_reverse ys.reverse]
  exact (hq.lists_reverse_iff _).symm

/-- Paging neither loses nor repeats a row: the order of the matching rows is determined, also where they
agree in the sort column, it turns round with the direction, and its pages part the rows. -/
theorem pages_part_rows (hq : q.Built) (now : WallClock) {size : Nat} (hsize : 0 < size)
    (hrows : Sortable le (sortColumn (q .column)) (q.matching db tables rows)) :
    (∃ xs page, q.Pages db le tables rows now size xs page) ∧
      ∃ up down xs, q.refine now (.orderBy (q .column) (.text "asc")) = .ok up ∧
        q.refine now (.orderBy (q .column) (.text "desc")) = .ok down ∧
        (∀ ys, up.Lists db le tables rows ys ↔ ys = xs) ∧
        ∀ ys, down.Lists db le tables rows ys ↔ ys = xs.reverse := by
  obtain ⟨xs, hpages⟩ := hq.pages now hsize hrows
  exact ⟨⟨xs, _, hpages⟩, hq.directions now hrows⟩

theorem pages_part_rows_tied :
    let db : Database := ⟨fun _ _ _ => True, fun _ => []⟩
    let le : Collation := fun _ x y => ∃ m n : Int, x = .int m ∧ y = .int n ∧ m ≤ n
    let row (n : Int) : Row := fun column => if column = "id" then .int n else .int 2024
    let rows := [row 2, row 3, row 1]
    let now : WallClock := .ofTimestamp ⟨⟨2024, 1, 31, by decide⟩, .midnight⟩
    Built default ∧ Sortable le (sortColumn (default .column)) (default.matching db .default rows) ∧
      (∃ xs page, default.Pages db le .default rows now 2 xs page) ∧
        ∃ up down xs, default.refine now (.orderBy (default .column) (.text "asc")) = .ok up ∧
          default.refine now (.orderBy (default .column) (.text "desc")) = .ok down ∧
          (∀ ys, up.Lists db le .default rows ys ↔ ys = xs) ∧
          ∀ ys, down.Lists db le .default rows ys ↔ ys = xs.reverse := by
  intro db le row rows now
  have hmatching : default.matching db .default rows = rows := by
    have hall (x : Row) : Selects db .default x default :=
      (selects_iff Built.default.admits).mpr fun _ hp => nomatch hp
    simp [matching, hall]
  have hordered (ns : List Int) : Ordered (le "id") (ns.map .int) := by
    constructor
    case total =>
      intro x hx y hy
      obtain ⟨m, -, rfl⟩ := List.mem_map.mp hx
      obtain ⟨n, -, rfl⟩ := List.mem_map.mp hy
      exact (Int.le_total m n).imp (fun h => ⟨m, n, rfl, rfl, h⟩) fun h => ⟨n, m, rfl, rfl, h⟩
    case trans =>
      rintro x - y - z - ⟨k, m, rfl, rfl, hkm⟩ ⟨_, n, hm, rfl, hmn⟩
      exact ⟨k, n, rfl, rfl, hkm.trans (Value.int.inj hm ▸ hmn)⟩
  have hrows : Sortable le (sortColumn (default .column)) (default.matching db .default rows) := by
    rw [hmatching]
    have hids : ([2, 3, 1].map Value.int).Nodup := List.Nodup.map (fun _ _ => Value.int.inj) (by decide)
    refine ⟨hids, hordered [2, 3, 1], ?_, hordered [2024, 2024, 2024]⟩
    rintro x - y - ⟨m, n, hx, hy, hmn⟩ ⟨n', m', hy', hx', hnm⟩
    obtain rfl : m = m' := Value.int.inj (hx.symm.trans hx')
    obtain rfl : n = n' := Value.int.inj (hy.symm.trans hy')
    rw [hx, hy, Int.le_antisymm hmn hnm]
  exact ⟨.default, hrows, pages_part_rows .default now (by decide) hrows⟩

end Query

end OrderStore
