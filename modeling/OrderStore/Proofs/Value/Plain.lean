import OrderStore.Json.Column
import OrderStore.Proofs.Except
import OrderStore.Proofs.Json.RoundTrip

namespace OrderStore

open Json (Readable)

namespace Value

inductive Plain : Value → Prop where
  | null : Plain .null
  | bool (b : Bool) : Plain (.bool b)
  | int (n : Int) : Plain (.int n)
  | text (t : Text) : Plain (.text t)
  | list {xs : List Value} (hx : ∀ x ∈ xs, Plain x) : Plain (.list xs)
  | map {es : Entries} (hk : ∀ e ∈ es, ∃ t, e.1 = .text t) (hn : (es.map Prod.fst).Nodup)
    (hv : ∀ e ∈ es, Plain e.2) : Plain (.map es)

theorem descend_ok {levels room rest : Nat} (h : descend levels room = .ok rest) : rest + levels = room := by
  rw [descend] at h
  split at h
  · cases h
    omega
  · cases h

theorem jsonInt_ok {n : Int} {j : Json} (h : jsonInt n = .ok j) : j = .int n ∧ Readable j := by
  unfold jsonInt at h
  split at h
  · cases h
  · rename_i hl
    injection h with h
    subst h
    exact ⟨rfl, .int (Nat.le_of_not_lt hl)⟩

theorem toJson_items_ok {levels room : Nat} {xs : List Value} {j : Json}
    (h : ((descend levels room).bind fun room => (toJsonAll room xs).map Json.list) = .ok j) :
    ∃ rest js, rest + levels = room ∧ toJsonAll rest xs = .ok js ∧ j = .list js := by
  obtain ⟨rest, hrest, h⟩ := bind_eq_ok.mp h
  obtain ⟨js, hjs, rfl⟩ := map_eq_ok.mp h
  exact ⟨rest, js, descend_ok hrest, hjs, rfl⟩

theorem toJson_map_ok {room : Nat} {es : Entries} {j : Json} (h : (Value.map es).toJson room = .ok j) :
    ∃ rest ms, rest + 1 = room ∧ toJsonMembers rest es = .ok ms ∧ j = .object ms := by
  rw [toJson] at h
  obtain ⟨rest, hrest, h⟩ := bind_eq_ok.mp h
  obtain ⟨ms, hms, rfl⟩ := map_eq_ok.mp h
  exact ⟨rest, ms, descend_ok hrest, hms, rfl⟩

theorem depth_le_of_text {levels room : Nat} {t : Text} {j : Json}
    (h : ((descend levels room).map fun _ => Json.text t) = .ok j) : j.depth ≤ room := by
  obtain ⟨-, -, rfl⟩ := map_eq_ok.mp h
  exact Nat.zero_le _

mutual

theorem depth_le_of_toJson {room : Nat} (v : Value) {j : Json} (h : v.toJson room = .ok j) : j.depth ≤ room := by
  cases v with
  | null | bool | float | text =>
    cases h
    exact Nat.zero_le _
  | int n =>
    obtain ⟨rfl, -⟩ := jsonInt_ok h
    exact Nat.zero_le _
  | decimal | moment | date => exact depth_le_of_text h
  | list xs =>
    obtain ⟨rest, js, rfl, hjs, rfl⟩ := toJson_items_ok h
    exact Nat.succ_le_succ (depths_le_of_toJsonAll xs hjs)
  | tuple xs =>
    obtain ⟨rest, js, rfl, hjs, rfl⟩ := toJson_items_ok h
    exact Nat.succ_le_succ (depths_le_of_toJsonAll xs hjs)
  | set xs =>
    obtain ⟨rest, js, rfl, hjs, rfl⟩ := toJson_items_ok h
    exact Nat.succ_le_succ (Nat.le_succ_of_le (depths_le_of_toJsonAll xs hjs))
  | map es =>
    obtain ⟨rest, ms, rfl, hms, rfl⟩ := toJson_map_ok h
    exact Nat.succ_le_succ (memberDepths_le_of_toJsonMembers es hms)
  | bytes | scalar | oneOf =>
    obtain ⟨_, -, h⟩ := bind_eq_ok.mp h
    cases h

theorem depths_le_of_toJsonAll {room : Nat} (xs : List Value) {js : List Json} (h : toJsonAll room xs = .ok js) :
    Json.depths js ≤ room := by
  cases xs with
  | nil =>
    cases h
    exact Nat.zero_le _
  | cons x xs =>
    obtain ⟨j, hj, h⟩ := bind_eq_ok.mp h
    obtain ⟨js, hjs, rfl⟩ := map_eq_ok.mp h
    exact Nat.max_le.mpr ⟨depth_le_of_toJson x hj, depths_le_of_toJsonAll xs hjs⟩

theorem memberDepths_le_of_toJsonMembers {room : Nat} (es : Entries) {ms : List (Text × Json)}
    (h : toJsonMembers room es = .ok ms) : Json.memberDepths ms ≤ room := by
  match es, h with
  | [], h =>
    cases h
    exact Nat.zero_le _
  | (k, v) :: es, h =>
    obtain ⟨name, -, h⟩ := bind_eq_ok.mp h
    obtain ⟨j, hj, h⟩ := bind_eq_ok.mp h
    obtain ⟨ms, hms, rfl⟩ := map_eq_ok.mp h
    exact Nat.max_le.mpr ⟨depth_le_of_toJson v hj, memberDepths_le_of_toJsonMembers es hms⟩

end

theorem toJsonAll_ok {f : Value → Value} {room : Nat} {xs : List Value} {js : List Json}
    (h : toJsonAll room xs = .ok js)
    (hx : ∀ x ∈ xs, ∀ {room j}, x.toJson room = .ok j → Readable j ∧ j.toValue = f x) :
    (∀ j ∈ js, Readable j) ∧ Json.toValues js = xs.map f := by
  induction xs generalizing js with
  | nil =>
    cases h
    exact ⟨fun j hj => absurd hj List.not_mem_nil, rfl⟩
  | cons x xs ih =>
    rw [toJsonAll] at h
    obtain ⟨j, hj, h⟩ := bind_eq_ok.mp h
    obtain ⟨js, hjs, rfl⟩ := map_eq_ok.mp h
    obtain ⟨hread, hvalue⟩ := hx x List.mem_cons_self hj
    obtain ⟨hreads, hvalues⟩ := ih hjs fun y hy => hx y (List.mem_cons_of_mem _ hy)
    refine ⟨List.forall_mem_cons.mpr ⟨hread, hreads⟩, ?_⟩
    rw [Json.toValues, hvalue, hvalues, List.map_cons]

theorem toJsonMembers_ok {f : Value → Value} {room : Nat} {es : Entries} {ms : List (Text × Json)}
    (h : toJsonMembers room es = .ok ms) (hk : ∀ e ∈ es, ∃ t, e.1 = .text t)
    (hv : ∀ e ∈ es, ∀ {room j}, e.2.toJson room = .ok j → Readable j ∧ j.toValue = f e.2) :
    (∀ m ∈ ms, Readable m.2) ∧ Json.toEntries ms = es.map (fun e => (e.1, f e.2)) ∧
      ms.map (fun m => .text m.1) = es.map Prod.fst := by
  induction es generalizing ms with
  | nil =>
    cases h
    exact ⟨fun m hm => absurd hm List.not_mem_nil, rfl, rfl⟩
  | cons e es ih =>
    obtain ⟨k, v⟩ := e
    obtain ⟨name, hname⟩ := hk (k, v) List.mem_cons_self
    obtain rfl : k = .text name := hname
    rw [toJsonMembers, jsonName, Except.bind] at h
    obtain ⟨j, hj, h⟩ := bind_eq_ok.mp h
    obtain ⟨ms, hms, rfl⟩ := map_eq_ok.mp h
    obtain ⟨hread, hvalue⟩ := hv (.text name, v) List.mem_cons_self hj
    obtain ⟨hreads, hentries, hnames⟩ := ih hms (fun e he => hk e (List.mem_cons_of_mem _ he))
      fun e he => hv e (List.mem_cons_of_mem _ he)
    refine ⟨List.forall_mem_cons.mpr ⟨hread, hreads⟩, ?_, ?_⟩
    · rw [Json.toEntries, hvalue, hentries, List.map_cons]
    · rw [List.map_cons, hnames, List.map_cons]

theorem readable_object {f : Value → Value} {room : Nat} {es : Entries} {ms : List (Text × Json)}
    (h : toJsonMembers room es = .ok ms) (hk : ∀ e ∈ es, ∃ t, e.1 = .text t) (hn : (es.map Prod.fst).Nodup)
    (hv : ∀ e ∈ es, ∀ {room j}, e.2.toJson room = .ok j → Readable j ∧ j.toValue = f e.2) :
    Readable (.object ms) ∧ Json.toEntries ms = es.map fun e => (e.1, f e.2) := by
  obtain ⟨hreads, hentries, hnames⟩ := toJsonMembers_ok h hk hv
  have hdistinct : (ms.map Prod.fst).Nodup := by
    rw [← hnames] at hn
    apply List.pairwise_map.mpr
    apply (List.pairwise_map.mp hn).imp
    intro a b hab h
    exact hab (congrArg Value.text h)
  exact ⟨.object hreads hdistinct, hentries⟩

theorem Plain.toJson_ok {v : Value} (hv : Plain v) {room : Nat} {j : Json} (h : v.toJson room = .ok j) :
    Readable j ∧ j.toValue = v := by
  induction hv generalizing room j with
  | null =>
    cases h
    exact ⟨.null, rfl⟩
  | bool b =>
    cases h
    exact ⟨.bool b, rfl⟩
  | int n =>
    obtain ⟨rfl, hread⟩ := jsonInt_ok h
    exact ⟨hread, rfl⟩
  | text t =>
    cases h
    exact ⟨.text t, rfl⟩
  | @list xs hx ih =>
    obtain ⟨rest, js, -, hjs, rfl⟩ := toJson_items_ok h
    obtain ⟨hreads, hvalues⟩ := toJsonAll_ok (f := id) hjs ih
    rw [List.map_id] at hvalues
    exact ⟨.list hreads, congrArg Value.list hvalues⟩
  | @map es hk hn hv ih =>
    obtain ⟨rest, ms, -, hms, rfl⟩ := toJson_map_ok h
    obtain ⟨hread, hentries⟩ := readable_object (f := id) hms hk hn ih
    exact ⟨hread, congrArg Value.map (hentries.trans (List.map_id' es))⟩

end Value

namespace Column

theorem encode_map (room : Nat) (es : Value.Entries) :
    encodeWithin room (.map es) = ((Value.map es).toJson room).map Json.written := by
  rw [encodeWithin, Value.toEntries_map, Except.bind]

theorem encodeEntries_ok {es : Value.Entries} {t : Text} (h : encodeEntries es = .ok t) :
    ∃ room ms, Value.toJsonMembers room es = .ok ms ∧ (Value.map es).toJson Json.maxDepth = .ok (.object ms) ∧
      (Json.object ms).depth ≤ Json.maxDepth ∧ t = (Json.object ms).written := by
  rw [encodeEntries, encode, encode_map] at h
  obtain ⟨j, hj, rfl⟩ := map_eq_ok.mp h
  obtain ⟨room, ms, -, hms, rfl⟩ := Value.toJson_map_ok hj
  exact ⟨room, ms, hms, hj, Value.depth_le_of_toJson _ hj, rfl⟩

theorem decode_written {ms : List (Text × Json)} (h : Readable (.object ms))
    (hd : (Json.object ms).depth ≤ Json.maxDepth) :
    decode (.text (Json.object ms).written) = .ok ⟨Json.toEntries ms, false⟩ := by
  obtain ⟨c, cs, hcs, -⟩ := Json.codes_eq_cons h.legible
  have hne : (Json.object ms).written.isEmpty = false := by
    rw [Text.isEmpty, Json.written, hcs]
    rfl
  rw [decode, hne, Json.read_written h hd]
  rfl

theorem decode_encodeEntries {es : Value.Entries} {t : Text} (hes : Value.Plain (.map es))
    (h : encodeEntries es = .ok t) : decode (.text t) = .ok ⟨es, false⟩ := by
  obtain ⟨-, ms, -, hjson, hd, rfl⟩ := encodeEntries_ok h
  obtain ⟨hread, hvalue⟩ := hes.toJson_ok hjson
  rw [Json.toValue, Value.map.injEq] at hvalue
  rw [decode_written hread hd, hvalue]

end Column

end OrderStore
