import OrderStore.Proofs.Sql.Template
import OrderStore.Sql.Search

namespace OrderStore.Sql.Search

def spaced (t : Text) : Text := if t.isEmpty then "" else " " ++ t

theorem text_append_empty (t : Text) : t ++ ("" : Text) = t := congrArg Text.mk (List.append_nil _)

theorem intercalate_eq_append (separator t : Text) (ts : List Text) :
    Text.intercalate separator (t :: ts) = t ++ .join (ts.map fun u => separator ++ u) := by
  induction ts generalizing t with
  | nil =>
    rw [Text.intercalate_singleton]
    exact (text_append_empty t).symm
  | cons u ts ih =>
    rw [Text.intercalate_cons_cons, ih, Text.append_assoc]
    apply congrArg Text.mk
    simp [Text.join]

theorem joinParts_cons {t : Text} (ht : t.isEmpty = false) (ts : List Text) :
    joinParts (t :: ts) = t ++ .join (ts.map spaced) := by
  rw [joinParts, List.filter_cons_of_pos (by simp [ht]), intercalate_eq_append]
  congr 1
  induction ts with
  | nil => rfl
  | cons u ts ih =>
    cases hu : u.isEmpty with
    | true =>
      rw [List.filter_cons_of_neg (by simp [hu]), ih, List.map_cons, spaced, hu]
      rfl
    | false =>
      rw [List.filter_cons_of_pos (by simp [hu]), List.map_cons, List.map_cons, spaced, hu]
      exact congrArg (fun t => (" " ++ u) ++ t) ih

theorem countText_eq (s : Search) :
    s.countText = "SELECT COUNT(*) FROM " ++ s.orders.text ++ spaced s.whereText := by
  have h : countText s = _ := joinParts_cons (t := "SELECT COUNT(*) FROM " ++ s.orders.text) rfl [s.whereText]
  rw [h]
  apply congrArg Text.mk
  simp [Text.join]

theorem selectText_eq (s : Search) :
    s.selectText = "SELECT * FROM " ++ s.orders.text ++ spaced s.whereText ++ " " ++ s.sorting.text ++
      " LIMIT " ++ placeholder "limit" ++ " OFFSET " ++ placeholder "offset" := by
  have hsorting : spaced s.sorting.text = " " ++ s.sorting.text := by
    have hne : s.sorting.text.isEmpty = false := by
      rw [Sorting.text]
      split <;> rfl
    rw [spaced, hne]
    rfl
  have h : selectText s = _ := joinParts_cons (t := "SELECT * FROM " ++ s.orders.text) rfl
    [s.whereText, s.sorting.text, "LIMIT " ++ placeholder "limit" ++ " OFFSET " ++ placeholder "offset"]
  rw [h, List.map_cons, List.map_cons, hsorting]
  apply congrArg Text.mk
  simp [Text.join, spaced]
  rfl

end OrderStore.Sql.Search
