import OrderStore.Proofs.Query.Calls
import OrderStore.Proofs.Sql.Conjunction

namespace OrderStore

open Sql

namespace Filters

variable {es : Value.Entries} {v : Value}

/-- A filter map as it was given, or resolved any number of times. -/
inductive Form (es : Value.Entries) : Value → Prop where
  | raw : Form es (.map es)
  | resolved {v : Value} {fs : Filters} (hv : Form es v) (hfs : ofValue v = .ok fs) : Form es fs.toValue

theorem ofEntries_resolved (es : Value.Entries) : ofEntries (ofEntries es).toEntries = ofEntries es :=
  ofEntries_toEntries (Assoc.nodup_keys_ofList _)

theorem Form.ofValue_eq (h : Form es v) : ofValue v = .ok (ofEntries es) := by
  induction h with
  | raw => exact ofValue_map es
  | resolved _ hfs ih =>
    obtain rfl := Except.ok.inj (ih.symm.trans hfs)
    rw [toValue, ofValue_map, ofEntries_resolved]

theorem keys_ofEntries (es : Value.Entries) :
    (ofEntries es).map Prod.fst = (es.map fun e => e.1.keyText).eraseDups := by
  rw [ofEntries, Assoc.keys_ofList, List.map_map]
  rfl

end Filters

namespace Refinement

variable {now : WallClock} {side : Side} {r : Refinement}

theorem writes_assign (now : WallClock) (side : Side) (v : Value) (q : Query) (r : Refinement) :
    r.writes now (assign side.criterion v q) = r.writes now q := by
  cases side <;> cases r <;> rfl

theorem widened_assign (side : Side) (v : Value) (q : Query) (r : Refinement) :
    r.widened (assign side.criterion v q) = r.widened q := by
  cases side <;> cases r <;> rfl

theorem not_mem_widened (q : Query) (h : side.criterion ∉ r.criteria) :
    side.criterion ∉ (r.widened q).criteria := by
  cases r with
  | createdAfter | createdBefore | updatedAfter | updatedBefore | amountMin | amountMax =>
    cases side <;> simp [widened, criteria, Side.criterion]
  | _ => exact h

end Refinement

namespace Query

variable {side : Side} {es : Value.Entries} {v : Value} {fields : Named} {now : WallClock} {q p : Query}
  {r : Refinement} {x : Call} {xs : List Call}

theorem refine_assign (v : Value) (q : Query) (h : side.criterion ∉ r.criteria) :
    refine now (assign side.criterion v q) r = (q.refine now r).map (assign side.criterion v) := by
  rw [← Refinement.refine_widened now q, ← Refinement.refine_widened now (assign side.criterion v q),
    Refinement.widened_assign, Query.refine, Query.refine, Refinement.writes_assign]
  cases hws : (r.widened q).writes now q with
  | error e => rfl
  | ok ws =>
    have hnew : side.criterion ∉ ws.map Prod.fst := by
      rw [Refinement.onlyWrites_widened now q r ws hws]
      exact Refinement.not_mem_widened q h
    exact congrArg Except.ok (assignAll_assign _ _ hnew)

theorem apply_assign (v : Value) (q : Query) (h : side.criterion ∉ x.refinement.criteria) :
    apply (assign side.criterion v q) x = assign side.criterion v (q.apply x) := by
  rw [apply, apply, refine_assign v q h]
  cases q.refine x.now x.refinement <;> rfl

theorem follow_assign (v : Value) (q : Query) (h : ∀ x ∈ xs, side.criterion ∉ x.refinement.criteria) :
    follow (assign side.criterion v q) xs = assign side.criterion v (q.follow xs) := by
  induction xs generalizing q with
  | nil => rfl
  | cons x xs ih =>
    rw [follow_cons, apply_assign v q (h x List.mem_cons_self)]
    exact ih (q.apply x) fun y hy => h y (List.mem_cons_of_mem x hy)

theorem given_cons (c : Criterion) (v : Value) (fields : Named) :
    given ((c.name, v) :: fields) = assign c v (given fields) := by
  funext d
  by_cases h : d = c
  · subst h
    rw [assign_same, given, Named.get?_cons_of_eq (e := (d.name, v)) rfl]
    rfl
  · rw [assign_other _ _ h, given, Named.get?_cons_of_ne fun hname => h (Criterion.name_injective hname.symm)]
    rfl

theorem resolveMaps_assign {fs gs : Filters} (hv : Filters.ofValue v = .ok fs)
    (hq : Filters.ofValue (q side.criterion) = .ok gs) :
    resolveMaps (assign side.criterion v q) = q.resolveMaps.map (assign side.criterion fs.toValue) := by
  cases side with
  | relations =>
    rw [Side.criterion] at hq
    rw [resolveMaps, resolveMaps, Side.criterion, assign_same, assign_other _ _ (by decide), hv, hq]
    cases Filters.ofValue (q .indexedFields) with
    | error e => rfl
    | ok ix =>
      have hwrites : assignAll [(Criterion.relations, fs.toValue), (.indexedFields, ix.toValue)]
          (assign .relations v q) = assign .relations fs.toValue
            (assignAll [(.relations, gs.toValue), (.indexedFields, ix.toValue)] q) := by
        simp only [assignAll_cons, assignAll_nil]
        rw [assign_assign, assign_comm fs.toValue ix.toValue _ (by decide), assign_assign]
      exact congrArg Except.ok hwrites
  | indexed =>
    rw [Side.criterion] at hq
    rw [resolveMaps, resolveMaps, Side.criterion, assign_same, assign_other _ _ (by decide), hv, hq]
    cases Filters.ofValue (q .relations) with
    | error e => rfl
    | ok rs =>
      have hwrites : assignAll [(Criterion.relations, rs.toValue), (.indexedFields, fs.toValue)]
          (assign .indexedFields v q) = assign .indexedFields fs.toValue
            (assignAll [(.relations, rs.toValue), (.indexedFields, gs.toValue)] q) := by
        simp only [assignAll_cons, assignAll_nil]
        rw [assign_assign, assign_comm rs.toValue v _ (by decide), assign_assign]
      exact congrArg Except.ok hwrites

theorem make_cons (hv : Filters.Form es v) (hfields : side.criterion.name ∉ fields.map Prod.fst) :
    make ((side.criterion.name, v) :: fields) = (make fields).map (filtered side es) := by
  have hknown : (∀ e ∈ (side.criterion.name, v) :: fields, ∃ c : Criterion, c.name = e.1) ↔
      ∀ e ∈ fields, ∃ c : Criterion, c.name = e.1 := by
    rw [List.forall_mem_cons]
    exact and_iff_right ⟨side.criterion, rfl⟩
  by_cases h : ∀ e ∈ fields, ∃ c : Criterion, c.name = e.1
  · have hdefault : Filters.ofValue (given fields side.criterion) = .ok [] := by
      rw [given, Named.get?_eq_none hfields]
      cases side <;> rfl
    rw [make_of_known (hknown.mpr h), make_of_known h, given_cons, resolveMaps_assign hv.ofValue_eq hdefault]
    rfl
  · rw [make_of_unknown (fun h' => h (hknown.mp h')), make_of_unknown h]
    rfl

theorem refine_form (hv : Filters.Form es v) (now : WallClock) (side : Side) (q : Query) :
    q.refine now (side.refinement v) = .ok (filtered side es q) := by
  cases side with
  | relations | indexed =>
    rw [Query.refine, Side.refinement, Refinement.writes, Refinement.writeFilters, hv.ofValue_eq]
    rfl

theorem filters_filtered (side : Side) (es : Value.Entries) (q : Query) :
    (filtered side es q).filters side.criterion = Filters.ofEntries es := by
  rw [filters, filtered, assign_same]
  exact Filters.ofEntries_resolved es

/-- The queries with the given criteria, one filter map, and some calls besides. The map is given when the
query is made, or by a call between the others. -/
inductive Given (side : Side) (es : Value.Entries) (fields : Named) : List Call → Query → Prop where
  | made {v : Value} {q : Query} {xs : List Call} (hv : Filters.Form es v)
    (hq : make ((side.criterion.name, v) :: fields) = .ok q) : Given side es fields xs (q.follow xs)
  | called {v : Value} {now : WallClock} {q p : Query} {before after : List Call} (hv : Filters.Form es v)
    (hq : make fields = .ok q) (hp : (q.follow before).refine now (side.refinement v) = .ok p) :
    Given side es fields (before ++ after) (p.follow after)

theorem Given.eq_filtered (h : Given side es fields xs q) (hfields : side.criterion.name ∉ fields.map Prod.fst)
    (hxs : ∀ x ∈ xs, side.criterion ∉ x.refinement.criteria) :
    ∃ b, make fields = .ok b ∧ q = filtered side es (b.follow xs) := by
  cases h with
  | made hv hq =>
    rw [make_cons hv hfields] at hq
    obtain ⟨b, hb, rfl⟩ := map_eq_ok.mp hq
    exact ⟨b, hb, follow_assign _ b hxs⟩
  | @called v now b p before after hv hb hp =>
    rw [refine_form hv] at hp
    cases hp
    refine ⟨b, hb, ?_⟩
    rw [follow_append]
    exact follow_assign _ _ fun x hx => hxs x (List.mem_append_right before hx)

theorem Resolved.follow (hq : q.Resolved) (xs : List Call) : (q.follow xs).Resolved := by
  induction xs generalizing q with
  | nil => exact hq
  | cons x xs ih =>
    apply ih
    rw [apply]
    split
    · rename_i hp
      exact hq.refine hp
    · exact hq

theorem Given.resolved (h : Given side es fields xs q) : q.Resolved := by
  cases h with
  | made _ hq => exact (resolved_of_make hq).follow xs
  | called _ hq hp => exact (((resolved_of_make hq).follow _).refine hp).follow _

/-- A filter map is resolved to filters that are resolved to themselves: one for each text of a key, in the
order in which the texts come first, made of the last entry with that text. Every query takes the map in any
of its forms, when it is made and later, and is then refined as if it were built anew each time. So the
filters of its search are always the same, and so is the search, wherever the map was given and in whatever
form. -/
theorem filter_maps_resolved_once (side : Side) (es : Value.Entries) :
    (∃ fs, Filters.ofValue (.map es) = .ok fs ∧ Filters.ofValue fs.toValue = .ok fs ∧
      fs.map Prod.fst = (es.map fun e => e.1.keyText).eraseDups ∧ (fs.map Prod.fst).Nodup ∧
      ∀ key filter, (key, filter) ∈ fs ↔
        ∃ e, es.Counts e ∧ e.1.keyText = key ∧ Filter.ofValue e.2 = filter) ∧
    ∀ (fields : Named) (xs : List Call), side.criterion.name ∉ fields.map Prod.fst →
      (∀ x ∈ xs, side.criterion ∉ x.refinement.criteria) →
      (∀ v, Filters.Form es v →
        make ((side.criterion.name, v) :: fields) = (make fields).map (filtered side es) ∧
        ∀ now (q : Query), q.refine now (side.refinement v) = .ok (filtered side es q)) ∧
      ∀ q, Given side es fields xs q →
        q.filters side.criterion = Filters.ofEntries es ∧
        (∀ now r, q.refine now r = ((r.widened q).writes now q).bind q.rebuild) ∧
        ∀ p, Given side es fields xs p → q = p ∧ ∀ tables, Search.ofQuery tables q = Search.ofQuery tables p := by
  constructor
  · refine ⟨Filters.ofEntries es, Filters.ofValue_map es, ?_, Filters.keys_ofEntries es,
      Assoc.nodup_keys_ofList _, ?_⟩
    · exact (Filters.Form.resolved .raw (Filters.ofValue_map es)).ofValue_eq
    · intro key filter
      simp only [Filters.mem_ofEntries, Prod.mk.injEq]
      exact exists_congr fun e => and_comm
  · intro fields xs hfields hxs
    refine ⟨fun v hv => ⟨make_cons hv hfields, fun now q => refine_form hv now side q⟩, ?_⟩
    intro q hq
    obtain ⟨b, hb, hqb⟩ := hq.eq_filtered hfields hxs
    refine ⟨?_, hq.resolved.refine_eq_rebuild, ?_⟩
    · rw [hqb]
      exact filters_filtered side es _
    · intro p hp
      obtain ⟨b', hb', hpb⟩ := hp.eq_filtered hfields hxs
      obtain rfl := Except.ok.inj (hb.symm.trans hb')
      have hqp : q = p := hqb.trans hpb.symm
      exact ⟨hqp, fun tables => by rw [hqp]⟩

theorem filter_maps_resolved_once_between :
    let now : WallClock := .ofTimestamp ⟨⟨2024, 1, 31, by decide⟩, .midnight⟩
    let es : Value.Entries := [(.int 1, .text "a"), (.text "tag", .oneOf [.text "new"]),
      (.text "1", .list [.text "b", .null])]
    let gift : Call := ⟨now, .keyword (.text "gift")⟩
    let channel : Call := ⟨now, .indexedFields (.map [(.text "channel", .text "app")])⟩
    let fields : Named := [("limit", .int 5)]
    let chosen : Filters := [("1", .oneOf [.text "b"]), ("tag", .oneOf [.text "new"])]
    ("relations" : Text) ∉ fields.map Prod.fst ∧
      (∀ x ∈ [gift, channel], Criterion.relations ∉ x.refinement.criteria) ∧
      ∃ b q p fs, make fields = .ok b ∧ make (("relations", .map es) :: fields) = .ok q ∧
        Filters.ofValue (.map es) = .ok fs ∧
        (b.follow [gift]).refine now (.relations fs.toValue) = .ok p ∧
        (q.follow [gift, channel]).filters .relations = chosen ∧
        ∀ tables, Search.ofQuery tables (q.follow [gift, channel]) =
          Search.ofQuery tables (p.follow [channel]) := by
  intro now es gift channel fields chosen
  have hfields : ("relations" : Text) ∉ fields.map Prod.fst := by decide
  have hcalls : ∀ x ∈ [gift, channel], Criterion.relations ∉ x.refinement.criteria := by
    intro x hx
    rcases List.mem_pair.mp hx with rfl | rfl <;> decide
  obtain ⟨⟨fs, hfs, -⟩, halike⟩ := filter_maps_resolved_once .relations es
  obtain ⟨htaken, hgiven⟩ := halike fields [gift, channel] hfields hcalls
  have hresolved : Filters.Form es fs.toValue := .resolved .raw hfs
  have hknown : ∀ e ∈ fields, ∃ c : Criterion, c.name = e.1 := List.forall_mem_singleton.mpr ⟨.limit, rfl⟩
  obtain ⟨b, hb⟩ : ∃ b, make fields = .ok b := ⟨_, (make_of_known hknown).trans rfl⟩
  have hq : make (("relations", .map es) :: fields) = .ok (filtered .relations es b) := by
    have hmake := (htaken _ .raw).1
    rw [hb] at hmake
    exact hmake
  have hp := (htaken _ hresolved).2 now (b.follow [gift])
  obtain ⟨hfilters, -, hsame⟩ := hgiven _ (.made .raw hq)
  have hchosen : Filters.ofEntries es = chosen := rfl
  refine ⟨hfields, hcalls, b, _, _, fs, hb, hq, hfs, hp, hfilters.trans hchosen, ?_⟩
  have hcalled : Given .relations es fields ([gift] ++ [channel]) _ := .called hresolved hb hp
  exact (hsame _ hcalled).2

end Query

end OrderStore
