import Mathlib.Data.List.Sort
import OrderStore.Proofs.Sql.Statement
/-!
Rows in the order of sort keys. Keys that end with the identifier leave no choice: the rows have exactly
one order, and with the directions turned round it is that order backwards.
-/

namespace OrderStore.Sql

structure Ordered {α : Type} (r : α → α → Prop) (xs : List α) : Prop where
  total : ∀ x ∈ xs, ∀ y ∈ xs, r x y ∨ r y x
  trans : ∀ x ∈ xs, ∀ y ∈ xs, ∀ z ∈ xs, r x y → r y z → r x z

namespace Ordered

variable {α β : Type} {r : α → α → Prop} {xs : List α}

theorem swap (h : Ordered r xs) : Ordered (fun x y => r y x) xs where
  total _ hx _ hy := h.total _ hy _ hx
  trans _ hx _ hy _ hz hxy hyz := h.trans _ hz _ hy _ hx hyz hxy

theorem of_map {f : β → α} {ys : List β} (h : Ordered r (ys.map f)) : Ordered (fun x y => r (f x) (f y)) ys where
  total _ hx _ hy := h.total _ (List.mem_map_of_mem hx) _ (List.mem_map_of_mem hy)
  trans _ hx _ hy _ hz :=
    h.trans _ (List.mem_map_of_mem hx) _ (List.mem_map_of_mem hy) _ (List.mem_map_of_mem hz)

theorem exists_sorted (h : Ordered r xs) : ∃ ys : List α, ys.Perm xs ∧ ys.Pairwise r := by
  classical
  -- Sorting needs a total order, which there is on the elements of the list alone.
  let s (x y : { x // x ∈ xs }) : Prop := r x y
  have : Std.Total s := ⟨fun x y => h.total x x.2 y y.2⟩
  have : IsTrans _ s := ⟨fun x y z => h.trans x x.2 y y.2 z z.2⟩
  refine ⟨(xs.attach.insertionSort s).map Subtype.val, ?_, ?_⟩
  · have hperm := (List.perm_insertionSort s xs.attach).map Subtype.val
    rwa [List.attach_map_subtype_val] at hperm
  · exact List.pairwise_map.mpr (List.pairwise_insertionSort s xs.attach)

theorem existsUnique_sorted (h : Ordered r xs) (hanti : ∀ x ∈ xs, ∀ y ∈ xs, r x y → r y x → x = y) :
    ∃! ys : List α, ys.Perm xs ∧ ys.Pairwise r := by
  obtain ⟨ys, hperm, hsorted⟩ := h.exists_sorted
  refine ⟨ys, ⟨hperm, hsorted⟩, ?_⟩
  rintro zs ⟨hperm', hsorted'⟩
  apply List.Perm.eq_of_pairwise _ hsorted' hsorted (hperm'.trans hperm.symm)
  intro z y hz hy
  exact hanti z (hperm'.mem_iff.mp hz) y (hperm.mem_iff.mp hy)

end Ordered

abbrev Row := Text → Value

abbrev Collation := Text → Value → Value → Prop

namespace SortKey

def Le (le : Collation) (k : SortKey) (x y : Row) : Prop :=
  if k.ascending then le k.column (x k.column) (y k.column) else le k.column (y k.column) (x k.column)

def reversed (k : SortKey) : SortKey := { k with ascending := !k.ascending }

variable {le : Collation} {k : SortKey} {x y : Row} {rows : List Row}

theorem le_reversed : k.reversed.Le le x y ↔ k.Le le y x := by
  obtain ⟨column, ascending⟩ := k
  cases ascending <;> exact Iff.rfl

theorem ordered (h : Ordered (le k.column) (rows.map fun x => x k.column)) : Ordered (k.Le le) rows := by
  obtain ⟨column, ascending⟩ := k
  cases ascending with
  | true => exact h.of_map
  | false => exact h.of_map.swap

end SortKey

def Precedes (le : Collation) : List SortKey → Row → Row → Prop
  | [], _, _ => True
  | k :: ks, x, y => k.Le le x y ∧ (k.Le le y x → Precedes le ks x y)

section

variable {le : Collation} {k : SortKey} {ks : List SortKey} {x y : Row} {rows : List Row}

theorem precedes_reversed : Precedes le (ks.map SortKey.reversed) x y ↔ Precedes le ks y x := by
  induction ks with
  | nil => exact Iff.rfl
  | cons k ks ih =>
    rw [List.map_cons, Precedes, Precedes, ih, SortKey.le_reversed, SortKey.le_reversed]

theorem pairwise_reversed {xs : List Row} :
    xs.Pairwise (Precedes le (ks.map SortKey.reversed)) ↔ xs.reverse.Pairwise (Precedes le ks) := by
  rw [List.pairwise_reverse]
  exact List.Pairwise.iff fun _ _ => precedes_reversed

theorem ordered_precedes (h : ∀ k ∈ ks, Ordered (k.Le le) rows) : Ordered (Precedes le ks) rows := by
  induction ks with
  | nil => exact ⟨fun _ _ _ _ => .inl trivial, fun _ _ _ _ _ _ _ _ => trivial⟩
  | cons k ks ih =>
    have hk := h k List.mem_cons_self
    have hks := ih fun l hl => h l (List.mem_cons_of_mem _ hl)
    constructor
    case total =>
      intro x hx y hy
      by_cases hxy : k.Le le x y
      · by_cases hyx : k.Le le y x
        · exact (hks.total x hx y hy).imp (fun hr => ⟨hxy, fun _ => hr⟩) fun hr => ⟨hyx, fun _ => hr⟩
        · exact .inl ⟨hxy, fun h => absurd h hyx⟩
      · exact .inr ⟨(hk.total x hx y hy).resolve_left hxy, fun h => absurd h hxy⟩
    case trans =>
      rintro x hx y hy z hz ⟨hxy, hxy'⟩ ⟨hyz, hyz'⟩
      refine ⟨hk.trans x hx y hy z hz hxy hyz, ?_⟩
      -- If the first key ties at the ends, it ties in the middle.
      intro hzx
      have hyx := hk.trans y hy z hz x hx hyz hzx
      have hzy := hk.trans z hz x hx y hy hzx hxy
      exact hks.trans x hx y hy z hz (hxy' hyx) (hyz' hzy)

theorem le_of_precedes (hxy : Precedes le ks x y) (hyx : Precedes le ks y x) (hk : k ∈ ks) :
    k.Le le x y ∧ k.Le le y x := by
  induction ks with
  | nil => cases hk
  | cons l ks ih =>
    rcases List.mem_cons.mp hk with rfl | hk
    · exact ⟨hxy.1, hyx.1⟩
    · exact ih (hxy.2 hyx.1) (hyx.2 hxy.1) hk

structure Sortable (le : Collation) (column : Text) (rows : List Row) : Prop where
  ids : (rows.map fun x => x "id").Nodup
  idsOrdered : Ordered (le "id") (rows.map fun x => x "id")
  idsAntisymm : ∀ x ∈ rows, ∀ y ∈ rows, le "id" (x "id") (y "id") → le "id" (y "id") (x "id") → x "id" = y "id"
  columnOrdered : Ordered (le column) (rows.map fun x => x column)

namespace Sorting

variable {s : Sorting}

theorem id_mem_keys (s : Sorting) : ⟨"id", s.ascending⟩ ∈ s.keys := by
  rw [keys]
  split <;> simp

theorem column_of_mem_keys (hk : k ∈ s.keys) : k.column = "id" ∨ k.column = s.column := by
  rw [keys] at hk
  split at hk
  · exact .inl (congrArg SortKey.column (List.mem_singleton.mp hk))
  · rcases List.mem_pair.mp hk with rfl | rfl
    · exact .inr rfl
    · exact .inl rfl

theorem keys_not (column : Text) (ascending : Bool) :
    keys ⟨column, !ascending⟩ = (keys ⟨column, ascending⟩).map SortKey.reversed := by
  rw [keys, keys]
  split <;> rfl

theorem ordered (h : Sortable le s.column rows) : Ordered (Precedes le s.keys) rows := by
  apply ordered_precedes
  intro k hk
  apply SortKey.ordered
  rcases column_of_mem_keys hk with hcolumn | hcolumn
  · rw [hcolumn]
    exact h.idsOrdered
  · rw [hcolumn]
    exact h.columnOrdered

theorem eq_of_precedes (h : Sortable le s.column rows) (hx : x ∈ rows) (hy : y ∈ rows)
    (hxy : Precedes le s.keys x y) (hyx : Precedes le s.keys y x) : x = y := by
  have hid := le_of_precedes hxy hyx s.id_mem_keys
  apply List.inj_on_of_nodup_map h.ids hx hy
  cases hs : s.ascending with
  | true =>
    rw [hs] at hid
    exact h.idsAntisymm x hx y hy hid.1 hid.2
  | false =>
    rw [hs] at hid
    exact h.idsAntisymm x hx y hy hid.2 hid.1

theorem existsUnique_order (h : Sortable le s.column rows) :
    ∃! xs : List Row, xs.Perm rows ∧ xs.Pairwise (Precedes le s.keys) :=
  (ordered h).existsUnique_sorted fun _ hx _ hy => eq_of_precedes h hx hy

end Sorting

end

end OrderStore.Sql
