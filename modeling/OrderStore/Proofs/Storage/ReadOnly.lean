import OrderStore.Proofs.Sql.Joined
import OrderStore.Storage.Find

namespace OrderStore

namespace Storage

open Sql

def IsSelect (t : Text) : Prop := ∃ rest : Text, t = "SELECT " ++ rest

theorem isSelect_squeeze {t : Text}
    (h : ∃ rest : Text, t = "SELECT * FROM " ++ rest ∨ t = "SELECT COUNT(*) FROM " ++ rest) :
    IsSelect t.squeeze := by
  obtain ⟨rest, h⟩ := h
  obtain ⟨v, ws, hwords⟩ : ∃ (v : Text) (ws : List Text), t.words = ("SELECT" : Text) :: v :: ws := by
    rcases h with rfl | rfl
    · exact ⟨"*", _, rfl⟩
    · exact ⟨"COUNT(*)", _, rfl⟩
  refine ⟨.intercalate " " (v :: ws), ?_⟩
  rw [Text.squeeze, hwords, Text.intercalate_cons_cons]
  rfl

namespace Statement

def isReading : Statement → Bool
  | lookup .. | select _ | count _ => true
  | _ => false

theorem perform_reading {s : Statement} (h : s.isReading = true) (db : Database) :
    (db.perform s).2 = db := by
  cases s with
  | lookup orders column value => rfl
  | select search => rfl
  | count search => rfl
  | _ => cases h

theorem isSelect_text {s : Statement} (h : s.isReading = true) : IsSelect s.text.squeeze := by
  apply isSelect_squeeze
  cases s with
  | lookup orders column value =>
    refine ⟨orders.text ++ (" WHERE " ++ (column.name ++ (" = " ++ (placeholder "value" ++ ";")))), .inl ?_⟩
    simp only [text, Text.append_assoc]
  | select search =>
    have htext := Search.selectText_eq search
    simp only [Text.append_assoc] at htext
    exact ⟨_, .inl htext⟩
  | count search =>
    have htext := Search.countText_eq search
    simp only [Text.append_assoc] at htext
    exact ⟨_, .inr htext⟩
  | _ => cases h

end Statement

namespace Action

def Reads {α : Type} (a : Action α) : Prop :=
  ∀ w : World, ∃ checks trace, (a w).2 = { w with database := { w.database with checks }, trace }

namespace Reads

variable {α β : Type} {a : Action α}

theorem of_trace (h : ∀ w, ∃ trace, (a w).2 = { w with trace }) : a.Reads := by
  intro w
  obtain ⟨trace, ht⟩ := h w
  exact ⟨w.database.checks, trace, ht⟩

theorem bind {b : α → Action β} (ha : a.Reads) (hb : ∀ x, (b x).Reads) : (a >>= b).Reads := by
  intro w
  obtain ⟨checks, trace, hw⟩ := ha w
  rw [bind_apply]
  generalize a w = c at hw
  obtain ⟨r, w'⟩ := c
  cases r with
  | error e => exact ⟨checks, trace, hw⟩
  | ok x =>
    obtain ⟨checks', trace', hw'⟩ := hb x w'
    refine ⟨checks', trace', hw'.trans ?_⟩
    rw [show w' = _ from hw]

theorem pure (x : α) : (pure x : Action α).Reads := of_trace fun w => ⟨w.trace, rfl⟩

theorem emit (e : Event) : (Action.emit e).Reads := of_trace fun _ => ⟨_, rfl⟩

theorem ofExcept (x : Except Error α) : (Action.ofExcept x).Reads := of_trace fun w => ⟨w.trace, rfl⟩

theorem loadOrder (row : Order.Row) : (Action.loadOrder row).Reads := of_trace fun _ => ⟨_, rfl⟩

theorem execute {s : Statement} (h : s.isReading = true) : (Action.execute s).Reads := by
  apply (emit _).bind
  intro _ w
  refine ⟨w.database.checks + 1, w.trace, ?_⟩
  have hcheck : (w.database.execute s).2 = { w.database with checks := w.database.checks + 1 } := by
    rw [Database.execute, Database.check]
    cases w.database.faults w.database.checks (s.text.squeeze) with
    | some e => rfl
    | none => exact Statement.perform_reading h _
  change { w with database := (w.database.execute s).2 } = _
  rw [hcheck]

theorem withConnection (h : a.Reads) : (withConnection a).Reads := by
  apply (of_trace fun w => ?_ : takeConnection.Reads).bind fun _ w => ?_
  · unfold takeConnection
    split <;> exact ⟨_, rfl⟩
  · obtain ⟨checks, trace, hw⟩ := h w
    rw [ensuring_apply, hw]
    unfold World.returnConnection
    split <;> exact ⟨checks, _, rfl⟩

theorem find (tables : Tables) (column : LookupColumn) (value : Value) :
    (Action.find tables column value).Reads := by
  apply withConnection
  apply (emit _).bind fun _ => (execute rfl).bind ?_
  intro rows
  split
  · exact pure none
  · exact pure none
  · exact (loadOrder _).bind fun _ => pure _

theorem loadOrders (rows : List Order.Row) : (Action.loadOrders rows).Reads := by
  induction rows with
  | nil => exact pure []
  | cons row rows ih => exact (loadOrder row).bind fun _ => ih.bind fun _ => pure _

theorem search (tables : Tables) (q : Query) : (Action.search tables q).Reads := by
  apply (ofExcept _).bind
  intro s
  apply withConnection
  apply (emit _).bind fun _ => (execute rfl).bind fun rows => (loadOrders rows).bind ?_
  intro items
  dsimp only
  split
  · exact ((execute rfl).bind fun _ => (ofExcept _).bind fun _ => pure _).bind fun _ => pure _
  · exact (pure _).bind fun _ => pure _

end Reads

end Action

end Storage

end OrderStore
