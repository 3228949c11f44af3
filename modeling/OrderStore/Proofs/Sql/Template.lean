import OrderStore.Sql.Search
import Mathlib.Data.List.Forall2
/-!
Statement text as a driver reads it: codes and placeholders, in which values are put. And the nesting
of its parentheses.
-/

namespace OrderStore

namespace Text

theorem intercalate_singleton (separator t : Text) : intercalate separator [t] = t :=
  congrArg Text.mk List.intercalate_singleton

theorem intercalate_cons_cons (separator t u : Text) (ts : List Text) :
    intercalate separator (t :: u :: ts) = t ++ separator ++ intercalate separator (u :: ts) := by
  apply congrArg Text.mk
  rw [List.map_cons, List.map_cons, List.intercalate_cons_cons]
  rfl

end Text

namespace Sql

open Text (Code)

theorem mem_intercalate {α : Type} {separator : List α} {ws : List (List α)} {x : α}
    (h : x ∈ separator.intercalate ws) : x ∈ separator ∨ ∃ w ∈ ws, x ∈ w := by
  induction ws with
  | nil => cases h
  | cons w ws ih =>
    cases ws with
    | nil =>
      rw [List.intercalate_singleton] at h
      exact .inr ⟨w, List.mem_cons_self, h⟩
    | cons y ws =>
      rw [List.intercalate_cons_cons, List.append_assoc] at h
      rcases List.mem_append.mp h with h | h
      · exact .inr ⟨w, List.mem_cons_self, h⟩
      · rcases List.mem_append.mp h with h | h
        · exact .inl h
        · rcases ih h with h | ⟨v, hv, hx⟩
          · exact .inl h
          · exact .inr ⟨v, List.mem_cons_of_mem _ hv, hx⟩

theorem intercalate_concat {α : Type} {separator w : List α} {ws : List (List α)} (h : ws ≠ []) :
    separator.intercalate (ws ++ [w]) = separator.intercalate ws ++ separator ++ w := by
  induction ws with
  | nil => exact absurd rfl h
  | cons x ws ih =>
    cases ws with
    | nil => simp
    | cons y ws =>
      have hrest := ih (by simp)
      rw [List.cons_append, List.intercalate_cons_of_ne_nil (by simp), hrest, List.intercalate_cons_cons]
      simp only [List.append_assoc]

inductive Slice where
  | code (c : Code)
  | name (t : Text)

abbrev Template := List Slice

def isWord : Code → Bool
  | .char c => c.isAlphanum || c == '_'
  | .surrogate _ => false

inductive Place where
  | text
  | percent
  | name (cs : List Code)
  | close (cs : List Code)

/-- Every percent sign has to start a placeholder, whose name is a word. -/
def scanFrom : Place → List Code → Option Template
  | .text, [] => some []
  | .text, c :: cs =>
    if c = .char '%' then scanFrom .percent cs else (scanFrom .text cs).map (.code c :: ·)
  | .percent, c :: cs => if c = .char '(' then scanFrom (.name []) cs else none
  | .name n, c :: cs =>
    if isWord c then scanFrom (.name (n ++ [c])) cs
    else if c = .char ')' ∧ n ≠ [] then scanFrom (.close n) cs
    else none
  | .close n, c :: cs => if c = .char 's' then (scanFrom .text cs).map (.name ⟨n⟩ :: ·) else none
  | _, [] => none

def scan (t : Text) : Option Template := scanFrom .text t.codes

namespace Template

def literal (t : Text) : Template := t.codes.map .code

def names (p : Template) : List Text :=
  p.filterMap fun
    | .code _ => none
    | .name t => some t

@[simp] theorem names_append (p q : Template) : names (p ++ q) = names p ++ names q :=
  List.filterMap_append

@[simp] theorem names_literal (t : Text) : names (literal t) = [] := by
  apply List.filterMap_eq_nil_iff.mpr
  intro s hs
  obtain ⟨c, -, rfl⟩ := List.mem_map.mp hs
  rfl

@[simp] theorem names_nil : names [] = [] := rfl

@[simp] theorem names_cons_name (t : Text) (p : Template) : names (.name t :: p) = t :: names p := rfl

@[simp] theorem names_intercalate (separator : Text) (ps : List Template) :
    names ((literal separator).intercalate ps) = ps.flatMap names := by
  induction ps with
  | nil => rfl
  | cons p ps ih =>
    cases ps with
    | nil => simp
    | cons r ps =>
      rw [List.intercalate_cons_cons, names_append, names_append, names_literal, ih]
      simp

end Template

inductive Piece where
  | code (c : Code)
  | value (v : Value)

abbrev Pieces := List Piece

def Pieces.literal (t : Text) : Pieces := t.codes.map .code

def Slice.fill (f : Text → Option Value) : Slice → Option Piece
  | .code c => some (.code c)
  | .name t => (f t).map .value

namespace Template

def fill (f : Text → Option Value) (p : Template) : Option Pieces := p.mapM (Slice.fill f)

section

variable {f : Text → Option Value} {p q : Template} {xs ys : Pieces}

theorem fill_append (hp : p.fill f = some xs) (hq : q.fill f = some ys) :
    (p ++ q).fill f = some (xs ++ ys) := by
  rw [fill] at hp hq ⊢
  rw [List.mapM_append, hp, hq]
  rfl

theorem fill_literal (t : Text) : (literal t).fill f = some (Pieces.literal t) := by
  obtain ⟨codes⟩ := t
  change (codes.map Slice.code).mapM (Slice.fill f) = some (codes.map Piece.code)
  induction codes with
  | nil => rfl
  | cons c codes ih =>
    rw [List.map_cons, List.mapM_cons, ih]
    rfl

theorem fill_name {name : Text} {v : Value} (h : f name = some v) :
    fill f [.name name] = some [.value v] := by
  rw [fill, List.mapM_cons, Slice.fill, h]
  rfl

theorem fill_intercalate {α β : Type} {g : α → Template} {k : β → Pieces} {as : List α} {bs : List β}
    (separator : Text) (h : List.Forall₂ (fun a b => (g a).fill f = some (k b)) as bs) :
    fill f ((literal separator).intercalate (as.map g)) =
      some ((Pieces.literal separator).intercalate (bs.map k)) := by
  induction h with
  | nil => rfl
  | cons hab h ih =>
    cases h with
    | nil =>
      rw [List.map_singleton, List.map_singleton, List.intercalate_singleton, List.intercalate_singleton]
      exact hab
    | cons hcd h =>
      simp only [List.map_cons] at ih ⊢
      rw [List.intercalate_cons_cons, List.intercalate_cons_cons]
      exact fill_append (fill_append hab (fill_literal separator)) ih

end

end Template

def Scans (t : Text) (p : Template) : Prop :=
  ∀ cs, scanFrom .text (t.codes ++ cs) = (scanFrom .text cs).map (p ++ ·)

namespace Scans

variable {t u : Text} {p q : Template}

theorem scan_eq (h : Scans t p) : scan t = some p := by
  have hend := h []
  rw [List.append_nil] at hend
  rw [scan, hend]
  simp [scanFrom]

theorem append (ht : Scans t p) (hu : Scans u q) : Scans (t ++ u) (p ++ q) := by
  intro cs
  rw [Text.codes_append, List.append_assoc, ht, hu, Option.map_map]
  congr 1
  funext r
  exact (List.append_assoc p q r).symm

theorem literal (h : ∀ c ∈ t.codes, c ≠ .char '%') : Scans t (.literal t) := by
  obtain ⟨codes⟩ := t
  intro cs
  change scanFrom .text (codes ++ cs) = (scanFrom .text cs).map (codes.map Slice.code ++ ·)
  induction codes with
  | nil => simp
  | cons c codes ih =>
    have hc : c ≠ .char '%' := h c List.mem_cons_self
    have hrest := ih fun x hx => h x (List.mem_cons_of_mem _ hx)
    rw [List.cons_append, scanFrom, if_neg hc, hrest, Option.map_map]
    rfl

theorem name_scanned {n w cs : List Code} (hw : ∀ c ∈ w, isWord c = true) :
    scanFrom (.name n) (w ++ cs) = scanFrom (.name (n ++ w)) cs := by
  induction w generalizing n with
  | nil => rw [List.append_nil, List.nil_append]
  | cons c w ih =>
    have hc := hw c List.mem_cons_self
    rw [List.cons_append, scanFrom, if_pos hc, ih fun x hx => hw x (List.mem_cons_of_mem _ hx)]
    rw [List.append_assoc]
    rfl

theorem placeholder {name : Text} (hne : name.codes ≠ []) (hw : ∀ c ∈ name.codes, isWord c = true) :
    Scans (placeholder name) [.name name] := by
  intro cs
  have hcodes : (Sql.placeholder name).codes ++ cs =
      .char '%' :: .char '(' :: (name.codes ++ .char ')' :: .char 's' :: cs) := by
    simp only [Sql.placeholder, Text.codes_append, List.append_assoc]
    rfl
  have hscan : scanFrom (.name []) (name.codes ++ .char ')' :: .char 's' :: cs) =
      scanFrom (.name name.codes) (.char ')' :: .char 's' :: cs) := name_scanned hw
  rw [hcodes, scanFrom, if_pos rfl, scanFrom, if_pos rfl, hscan]
  have hclose : ¬ isWord (.char ')') = true := by decide
  rw [scanFrom, if_neg hclose, if_pos ⟨rfl, hne⟩, scanFrom, if_pos rfl]
  rfl

theorem intercalate {α : Type} {separator : Text} {p : Template} (hs : Scans separator p) {f : α → Text}
    {g : α → Template} {xs : List α} (h : ∀ x ∈ xs, Scans (f x) (g x)) :
    Scans (.intercalate separator (xs.map f)) (p.intercalate (xs.map g)) := by
  induction xs with
  | nil => exact literal (by intro c hc; cases hc)
  | cons x xs ih =>
    have hx := h x List.mem_cons_self
    cases xs with
    | nil =>
      rw [List.map_singleton, List.map_singleton, Text.intercalate_singleton, List.intercalate_singleton]
      exact hx
    | cons y ys =>
      have hrest := ih fun z hz => h z (List.mem_cons_of_mem _ hz)
      simp only [List.map_cons] at hrest ⊢
      rw [Text.intercalate_cons_cons, List.intercalate_cons_cons]
      exact (hx.append hs).append hrest

end Scans

/-- The number of parentheses that are open behind a text. There is none if one is closed that was
not opened, or one that holds nothing. -/
def depthAfter : (depth : Nat) → (fresh : Bool) → List Code → Option Nat
  | depth, _, [] => some depth
  | depth, fresh, c :: cs =>
    if c = .char '(' then depthAfter (depth + 1) true cs
    else if c = .char ')' then
      if depth = 0 ∨ fresh = true then none else depthAfter (depth - 1) false cs
    else depthAfter depth false cs

def Nests (t : Text) : Prop :=
  ∀ depth fresh cs, depthAfter depth fresh (t.codes ++ cs) = depthAfter depth false cs

namespace Nests

variable {t u : Text}

theorem append (ht : Nests t) (hu : Nests u) : Nests (t ++ u) := by
  intro depth fresh cs
  rw [Text.codes_append, List.append_assoc, ht, hu]

theorem literal (hne : t.codes ≠ []) (h : ∀ c ∈ t.codes, c ≠ .char '(' ∧ c ≠ .char ')') : Nests t := by
  obtain ⟨codes⟩ := t
  intro depth fresh cs
  change depthAfter depth fresh (codes ++ cs) = _
  induction codes generalizing fresh with
  | nil => exact absurd rfl hne
  | cons c codes ih =>
    obtain ⟨hopen, hclose⟩ := h c List.mem_cons_self
    rw [List.cons_append, depthAfter, if_neg hopen, if_neg hclose]
    cases codes with
    | nil => rfl
    | cons d codes => exact ih (by simp) (fun x hx => h x (List.mem_cons_of_mem _ hx)) false

theorem parenthesised (h : Nests t) : Nests ("(" ++ t ++ ")") := by
  intro depth fresh cs
  have hcodes : (("(" : Text) ++ t ++ ")").codes ++ cs = .char '(' :: (t.codes ++ .char ')' :: cs) := by
    simp only [Text.codes_append, List.append_assoc]
    rfl
  have hclose : ¬ (.char ')' : Code) = .char '(' := by decide
  have hopen : ¬ (depth + 1 = 0 ∨ false = true) := by simp
  rw [hcodes, depthAfter, if_pos rfl, h, depthAfter, if_neg hclose, if_pos rfl, if_neg hopen]
  rfl

theorem intercalate {separator : Text} (hs : Nests separator) {ts : List Text} (hne : ts ≠ [])
    (h : ∀ t ∈ ts, Nests t) : Nests (.intercalate separator ts) := by
  induction ts with
  | nil => exact absurd rfl hne
  | cons t ts ih =>
    have ht := h t List.mem_cons_self
    cases ts with
    | nil =>
      rw [Text.intercalate_singleton]
      exact ht
    | cons u us =>
      rw [Text.intercalate_cons_cons]
      exact (ht.append hs).append (ih (by simp) fun x hx => h x (List.mem_cons_of_mem _ hx))

theorem depthAfter_eq (h : Nests t) : depthAfter 0 false t.codes = some 0 := by
  have hend := h 0 false []
  rw [List.append_nil] at hend
  exact hend

end Nests

end Sql

end OrderStore
