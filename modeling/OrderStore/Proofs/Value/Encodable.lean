import OrderStore.Proofs.Order.Equality
import OrderStore.Proofs.Value.Plain
/-!
Which values JSON can hold, and what a map that it cannot hold is refused for: the first key or value, from
left to right and into the depth, that has no place in a document.
-/

namespace OrderStore

namespace Value

def items? : Value → Option (List Value)
  | .list xs | .tuple xs | .set xs => some xs
  | _ => none

inductive IsName : Value → Prop where
  | text (t : Text) : IsName (.text t)
  | int (n : Int) : IsName (.int n)
  | float (x : Binary64) : IsName (.float x)
  | bool (b : Bool) : IsName (.bool b)
  | null : IsName .null

inductive Encodable : Value → Prop where
  | null : Encodable .null
  | bool (b : Bool) : Encodable (.bool b)
  | int (n : Int) : Encodable (.int n)
  | float (x : Binary64) : Encodable (.float x)
  | text (t : Text) : Encodable (.text t)
  | decimal (d : Decimal) : Encodable (.decimal d)
  | date (d : Date) : Encodable (.date d)
  | moment (m : Moment) : Encodable (.moment m)
  | items {v : Value} {xs : List Value} (hv : v.items? = some xs) (hx : ∀ x ∈ xs, Encodable x) :
    Encodable v
  | map {es : Entries} (hk : ∀ e ∈ es, IsName e.1) (hv : ∀ e ∈ es, Encodable e.2) : Encodable (.map es)

inductive Offence where
  | key (k : Value)
  | value (v : Value)

namespace Offence

def error : Offence → Error
  | .key k => .badKey k.kindName
  | .value v => .notEncodable v.kindName

end Offence

/-- The first offence of a value: all that stands before it can be encoded, and a key stands before its
value. -/
inductive FirstOffence : Value → Offence → Prop where
  | bytes (bs : List UInt8) : FirstOffence (.bytes bs) (.value (.bytes bs))
  | scalar (v : Value) : FirstOffence (.scalar v) (.value (.scalar v))
  | oneOf (vs : List Value) : FirstOffence (.oneOf vs) (.value (.oneOf vs))
  | item {v x : Value} {xs before after : List Value} {o : Offence} (hv : v.items? = some xs)
    (hxs : xs = before ++ x :: after) (hb : ∀ y ∈ before, Encodable y) (hx : FirstOffence x o) :
    FirstOffence v o
  | key {es before after : Entries} {k v : Value} (hes : es = before ++ (k, v) :: after)
    (hb : ∀ e ∈ before, IsName e.1 ∧ Encodable e.2) (hk : ¬ IsName k) : FirstOffence (.map es) (.key k)
  | member {es before after : Entries} {k v : Value} {o : Offence} (hes : es = before ++ (k, v) :: after)
    (hb : ∀ e ∈ before, IsName e.1 ∧ Encodable e.2) (hk : IsName k) (hv : FirstOffence v o) :
    FirstOffence (.map es) o

inductive HoldsInt (n : Int) : Value → Prop where
  | self : HoldsInt n (.int n)
  | item {v x : Value} {xs : List Value} (hv : v.items? = some xs) (hx : x ∈ xs) (h : HoldsInt n x) :
    HoldsInt n v
  | key {es : Entries} {v : Value} (he : (.int n, v) ∈ es) : HoldsInt n (.map es)
  | member {es : Entries} {k v : Value} (he : (k, v) ∈ es) (h : HoldsInt n v) : HoldsInt n (.map es)

def ShortIntegers (v : Value) : Prop :=
  ∀ n, HoldsInt n v → (Text.digits n.natAbs).length ≤ Numeral.maxDigits

theorem ShortIntegers.item {v x : Value} {xs : List Value} (hs : ShortIntegers v)
    (hv : v.items? = some xs) (hx : x ∈ xs) : ShortIntegers x := fun n hn => hs n (.item hv hx hn)

theorem ShortIntegers.member {es : Entries} {k v : Value} (hs : ShortIntegers (.map es))
    (he : (k, v) ∈ es) : ShortIntegers v := fun n hn => hs n (.member he hn)

def levels : Value → Nat
  | .set _ => 2
  | _ => 1

mutual

/-- The levels that it takes to write a value or to find that it cannot be written. -/
def need : Value → Nat
  | .null | .bool _ | .int _ | .float _ | .text _ => 0
  | .list xs | .tuple xs => needs xs + 1
  | .set xs => needs xs + 2
  | .map es => entryNeeds es + 1
  | _ => 1

def needs : List Value → Nat
  | [] => 0
  | x :: xs => max x.need (needs xs)

def entryNeeds : List (Value × Value) → Nat
  | [] => 0
  | (_, v) :: es => max v.need (entryNeeds es)

end

/-! ## Room on the stack -/

section

variable {α β : Type} {n m room : Nat} {f : Nat → Except Error α} {g : α → Nat → Except Error β} {a : α} {b : β}
  {e : Error}

def Writes (need : Nat) (f : Nat → Except Error α) (a : α) : Prop :=
  ∀ room, f room = if need ≤ room then .ok a else .error .deepMap

/-- Where there is room the error is found; with less the stack may end before. -/
def Refuses (need : Nat) (f : Nat → Except Error α) (e : Error) : Prop :=
  ∀ room, f room = .error e ∨ room < need ∧ f room = .error .deepMap

theorem writes_const (a : α) : Writes 0 (fun _ => .ok a) a := fun _ => (if_pos (Nat.zero_le _)).symm

theorem Writes.map (h : Writes n f a) (g : α → β) : Writes n (fun room => (f room).map g) (g a) := by
  intro room
  change (f room).map g = _
  rw [h room]
  split <;> rfl

theorem Writes.bind (h : Writes n f a) (hg : Writes m (g a) b) :
    Writes (max n m) (fun room => (f room).bind fun a => g a room) b := by
  intro room
  change ((f room).bind fun a => g a room) = _
  rw [h room]
  by_cases hn : n ≤ room
  · rw [if_pos hn, Except.bind, hg room]
    simp only [Nat.max_le, hn, true_and]
  · rw [if_neg hn, if_neg fun hmax => hn (Nat.max_le.mp hmax).1]
    rfl

theorem Writes.descend (h : Writes n f a) (k : Nat) :
    Writes (n + k) (fun room => (Value.descend k room).bind f) a := by
  intro room
  change (Value.descend k room).bind f = _
  rw [Value.descend]
  by_cases hk : k ≤ room
  · rw [if_pos hk, Except.bind, h]
    simp only [Nat.le_sub_iff_add_le hk]
  · rw [if_neg hk, if_neg (by omega)]
    rfl

theorem Refuses.mono (h : Refuses n f e) (hnm : n ≤ m) : Refuses m f e :=
  fun room => (h room).imp_right fun hroom => ⟨by omega, hroom.2⟩

theorem Refuses.bind (h : Refuses n f e) (g : Nat → α → Except Error β) :
    Refuses n (fun room => (f room).bind (g room)) e :=
  fun room => (h room).imp (fun h => bind_eq_error.mpr (.inl h)) fun h => ⟨h.1, bind_eq_error.mpr (.inl h.2)⟩

theorem Refuses.map (h : Refuses n f e) (g : α → β) : Refuses n (fun room => (f room).map g) e :=
  fun room => (h room).imp map_eq_error.mpr fun h => ⟨h.1, map_eq_error.mpr h.2⟩

theorem Writes.refuses (h : Writes n f a) (hg : Refuses m (g a) e) :
    Refuses (max n m) (fun room => (f room).bind fun a => g a room) e := by
  intro room
  by_cases hn : n ≤ room
  · have hf : f room = .ok a := (h room).trans (if_pos hn)
    simp only [hf, Except.bind]
    exact (hg room).imp_right fun h => ⟨by omega, h.2⟩
  · have hf : f room = .error .deepMap := (h room).trans (if_neg hn)
    simp only [hf, Except.bind]
    exact .inr ⟨by omega, trivial⟩

theorem Refuses.descend (h : Refuses n f e) (k : Nat) :
    Refuses (n + k) (fun room => (Value.descend k room).bind f) e := by
  intro room
  by_cases hk : k ≤ room
  · simp only [Value.descend, if_pos hk, Except.bind]
    exact (h (room - k)).imp_right fun h => ⟨by omega, h.2⟩
  · simp only [Value.descend, if_neg hk, Except.bind]
    exact .inr ⟨by omega, trivial⟩

end

/-! ## What can be encoded -/

theorem IsName.jsonName {es : Entries} {k v : Value} (hk : IsName k) (hs : ShortIntegers (.map es))
    (he : (k, v) ∈ es) : ∃ name, k.jsonName = .ok name := by
  cases hk with
  | int n =>
    rw [Value.jsonName, jsonInt, if_neg (Nat.not_lt.mpr (hs n (.key he)))]
    exact ⟨_, rfl⟩
  | _ => exact ⟨_, rfl⟩

theorem jsonName_of_not_isName {k : Value} (hk : ¬ IsName k) : k.jsonName = .error (.badKey k.kindName) := by
  cases k with
  | text t => exact absurd (.text t) hk
  | int n => exact absurd (.int n) hk
  | float x => exact absurd (.float x) hk
  | bool b => exact absurd (.bool b) hk
  | null => exact absurd .null hk
  | _ => rfl

theorem toJson_items {v : Value} {xs : List Value} (hv : v.items? = some xs) (room : Nat) :
    v.toJson room = (descend v.levels room).bind fun room => (toJsonAll room xs).map Json.list := by
  cases v <;> cases hv <;> rfl

theorem need_items {v : Value} {xs : List Value} (hv : v.items? = some xs) : v.need = needs xs + v.levels := by
  cases v <;> cases hv <;> rfl

theorem toJson_map (es : Entries) (room : Nat) :
    (Value.map es).toJson room = (descend 1 room).bind fun room => (toJsonMembers room es).map Json.object := by
  rw [toJson]

theorem toJsonAll_cons (x : Value) (xs : List Value) (room : Nat) :
    toJsonAll room (x :: xs) = (x.toJson room).bind fun j => (toJsonAll room xs).map (j :: ·) := by
  rw [toJsonAll]

theorem toJsonMembers_cons {k : Value} {name : Text} (hk : k.jsonName = .ok name) (v : Value) (es : Entries)
    (room : Nat) : toJsonMembers room ((k, v) :: es) =
      (v.toJson room).bind fun j => (toJsonMembers room es).map ((name, j) :: ·) := by
  rw [toJsonMembers, hk, Except.bind]

theorem writes_text (t : Text) : Writes 1 (fun room => (descend 1 room).map fun _ => Json.text t) (.text t) := by
  intro room
  change (descend 1 room).map _ = _
  rw [descend]
  split <;> rfl

theorem writes_items {xs : List Value} (h : ∀ x ∈ xs, ∃ j, Writes x.need (fun room => x.toJson room) j) :
    ∃ js, Writes (needs xs) (fun room => toJsonAll room xs) js := by
  induction xs with
  | nil => exact ⟨[], writes_const []⟩
  | cons x xs ih =>
    obtain ⟨j, hj⟩ := h x List.mem_cons_self
    obtain ⟨js, hjs⟩ := ih fun y hy => h y (List.mem_cons_of_mem _ hy)
    rw [funext (toJsonAll_cons x xs)]
    exact ⟨j :: js, hj.bind (hjs.map _)⟩

theorem writes_members {es : Entries} (hk : ∀ e ∈ es, ∃ name, e.1.jsonName = .ok name)
    (hv : ∀ e ∈ es, ∃ j, Writes e.2.need (fun room => e.2.toJson room) j) :
    ∃ ms, Writes (entryNeeds es) (fun room => toJsonMembers room es) ms := by
  induction es with
  | nil => exact ⟨[], writes_const []⟩
  | cons e es ih =>
    obtain ⟨k, v⟩ := e
    obtain ⟨name, hname⟩ := hk (k, v) List.mem_cons_self
    obtain ⟨j, hj⟩ := hv (k, v) List.mem_cons_self
    obtain ⟨ms, hms⟩ := ih (fun e he => hk e (List.mem_cons_of_mem _ he)) fun e he => hv e (List.mem_cons_of_mem _ he)
    rw [funext (toJsonMembers_cons hname v es)]
    exact ⟨(name, j) :: ms, hj.bind (hms.map _)⟩

theorem Encodable.writes {v : Value} (h : Encodable v) (hs : ShortIntegers v) :
    ∃ j, Writes v.need (fun room => v.toJson room) j := by
  induction h with
  | int n =>
    refine ⟨.int n, fun room => ?_⟩
    change jsonInt n = _
    rw [jsonInt, if_neg (Nat.not_lt.mpr (hs n .self)), need, if_pos (Nat.zero_le _)]
  | items hv hx ih =>
    obtain ⟨js, hjs⟩ := writes_items fun x hx => ih x hx (hs.item hv hx)
    rw [funext (toJson_items hv), need_items hv]
    exact ⟨.list js, (hjs.map Json.list).descend _⟩
  | @map es hk hv ih =>
    obtain ⟨ms, hms⟩ := writes_members (fun e he => (hk e he).jsonName hs he) fun e he => ih e he (hs.member he)
    rw [funext (toJson_map es), need]
    exact ⟨.object ms, (hms.map Json.object).descend 1⟩
  | decimal d => exact ⟨_, writes_text d.text⟩
  | date d => exact ⟨_, writes_text d.text⟩
  | moment m => exact ⟨_, writes_text m.isoText⟩
  | _ => exact ⟨_, writes_const _⟩

/-! ## What cannot be encoded -/

theorem refuses_items {before after : List Value} {x : Value} {e : Error}
    (hb : ∀ y ∈ before, ∃ j, Writes y.need (fun room => y.toJson room) j)
    (hx : Refuses x.need (fun room => x.toJson room) e) :
    Refuses (needs (before ++ x :: after)) (fun room => toJsonAll room (before ++ x :: after)) e := by
  induction before with
  | nil =>
    rw [List.nil_append, funext (toJsonAll_cons x after), needs]
    exact (hx.bind _).mono (Nat.le_max_left _ _)
  | cons y before ih =>
    obtain ⟨j, hj⟩ := hb y List.mem_cons_self
    have hrest := ih fun z hz => hb z (List.mem_cons_of_mem _ hz)
    rw [List.cons_append, funext (toJsonAll_cons y _), needs]
    exact hj.refuses (hrest.map _)

theorem refuses_members {before rest : Entries} {e : Error}
    (hb : ∀ m ∈ before, (∃ name, m.1.jsonName = .ok name) ∧ ∃ j, Writes m.2.need (fun room => m.2.toJson room) j)
    (hrest : Refuses (entryNeeds rest) (fun room => toJsonMembers room rest) e) :
    Refuses (entryNeeds (before ++ rest)) (fun room => toJsonMembers room (before ++ rest)) e := by
  induction before with
  | nil => exact hrest
  | cons m before ih =>
    obtain ⟨k, v⟩ := m
    obtain ⟨⟨name, hname⟩, j, hj⟩ := hb (k, v) List.mem_cons_self
    have hrest := ih fun m hm => hb m (List.mem_cons_of_mem _ hm)
    rw [List.cons_append, funext (toJsonMembers_cons hname v _), entryNeeds]
    exact hj.refuses (hrest.map _)

theorem writes_before {before rest : Entries} (hs : ShortIntegers (.map (before ++ rest)))
    (hb : ∀ m ∈ before, IsName m.1 ∧ Encodable m.2) :
    ∀ m ∈ before, (∃ name, m.1.jsonName = .ok name) ∧ ∃ j, Writes m.2.need (fun room => m.2.toJson room) j := by
  intro m hm
  have hmem := List.mem_append_left rest hm
  obtain ⟨hk, hv⟩ := hb m hm
  exact ⟨hk.jsonName hs hmem, hv.writes (hs.member hmem)⟩

theorem refuses_value (e : Error) :
    Refuses 1 (fun room => (descend 1 room).bind fun _ => (.error e : Except Error Json)) e :=
  Refuses.descend (fun _ => .inl rfl) 1 (n := 0)

theorem FirstOffence.refuses {v : Value} {o : Offence} (h : FirstOffence v o) (hs : ShortIntegers v) :
    Refuses v.need (fun room => v.toJson room) o.error := by
  induction h with
  | bytes | scalar | oneOf => exact refuses_value _
  -- All that stands before the offence is written, so that nothing but the stack can fail earlier.
  | @item v x xs before after o hv hxs hb hx ih =>
    subst hxs
    have hbefore : ∀ y ∈ before, ∃ j, Writes y.need (fun room => y.toJson room) j :=
      fun y hy => (hb y hy).writes (hs.item hv (List.mem_append_left _ hy))
    have hx := ih (hs.item hv (List.mem_append_right _ List.mem_cons_self))
    rw [funext (toJson_items hv), need_items hv]
    exact ((refuses_items hbefore hx).map Json.list).descend _
  | @key es before after k v hes hb hk =>
    subst hes
    -- The key is settled before room is taken for its value.
    have hkey : Refuses (entryNeeds ((k, v) :: after)) (fun room => toJsonMembers room ((k, v) :: after))
        (.badKey k.kindName) := by
      intro room
      left
      change toJsonMembers room ((k, v) :: after) = _
      rw [toJsonMembers, jsonName_of_not_isName hk, Except.bind]
    rw [funext (toJson_map _), need]
    exact ((refuses_members (writes_before hs hb) hkey).map Json.object).descend 1
  | @member es before after k v o hes hb hk hv ih =>
    subst hes
    have hmem : (k, v) ∈ before ++ (k, v) :: after := List.mem_append_right _ List.mem_cons_self
    obtain ⟨name, hname⟩ := hk.jsonName hs hmem
    have hmember : Refuses (entryNeeds ((k, v) :: after)) (fun room => toJsonMembers room ((k, v) :: after))
        o.error := by
      rw [funext (toJsonMembers_cons hname v after), entryNeeds]
      exact ((ih (hs.member hmem)).bind _).mono (Nat.le_max_left _ _)
    rw [funext (toJson_map _), need]
    exact ((refuses_members (writes_before hs hb) hmember).map Json.object).descend 1

/-! ## Finding the first offence -/

theorem Encodable.of_map {es : Entries} (h : Encodable (.map es)) :
    ∀ e ∈ es, IsName e.1 ∧ Encodable e.2 := by
  cases h with
  | items hv => cases hv
  | map hk hv => exact fun e he => ⟨hk e he, hv e he⟩

end Value

open Value (Encodable FirstOffence ShortIntegers Writes Refuses)

namespace Column

end Column

end OrderStore
