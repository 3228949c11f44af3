/-!
Association lists in insertion order. Writing a key that is present keeps its place and its first
spelling; a new key goes to the end.
-/

namespace OrderStore.Assoc

variable {κ ν : Type}

def put (same : κ → κ → Bool) (key : κ) (value : ν) : List (κ × ν) → List (κ × ν)
  | [] => [(key, value)]
  | (k, v) :: es => if same k key then (k, value) :: es else (k, v) :: put same key value es

def ofList (same : κ → κ → Bool) (es : List (κ × ν)) : List (κ × ν) :=
  es.foldl (fun acc e => put same e.1 e.2 acc) []

def get? (same : κ → κ → Bool) (key : κ) : List (κ × ν) → Option ν
  | [] => none
  | (k, v) :: es => if same k key then some v else get? same key es

theorem put_of_new {same : κ → κ → Bool} {key : κ} (value : ν) {es : List (κ × ν)}
    (h : ∀ e ∈ es, same e.1 key = false) : put same key value es = es ++ [(key, value)] := by
  induction es with
  | nil => rfl
  | cons e es ih =>
    rw [put, h e List.mem_cons_self, ih fun x hx => h x (List.mem_cons_of_mem _ hx)]
    rfl

theorem foldl_put_of_pairwise {same : κ → κ → Bool} {acc es : List (κ × ν)}
    (h : (acc ++ es).Pairwise fun a b => same a.1 b.1 = false) :
    es.foldl (fun acc e => put same e.1 e.2 acc) acc = acc ++ es := by
  induction es generalizing acc with
  | nil => exact (List.append_nil acc).symm
  | cons e es ih =>
    have hnew : ∀ a ∈ acc, same a.1 e.1 = false := by
      intro a ha
      exact (List.pairwise_append.mp h).2.2 a ha e List.mem_cons_self
    rw [List.foldl_cons, put_of_new e.2 hnew, ih (by simpa using h)]
    simp

theorem ofList_of_pairwise {same : κ → κ → Bool} {es : List (κ × ν)}
    (h : es.Pairwise fun a b => same a.1 b.1 = false) : ofList same es = es :=
  foldl_put_of_pairwise h

theorem ofList_concat (same : κ → κ → Bool) (es : List (κ × ν)) (e : κ × ν) :
    ofList same (es ++ [e]) = put same e.1 e.2 (ofList same es) := by
  rw [ofList, List.foldl_append]
  rfl

theorem get?_put [DecidableEq κ] (key key' : κ) (value : ν) (es : List (κ × ν)) :
    get? (fun a b => decide (a = b)) key' (put (fun a b => decide (a = b)) key value es) =
      if key = key' then some value else get? (fun a b => decide (a = b)) key' es := by
  induction es with
  | nil => simp [put, get?]
  | cons e es ih =>
    obtain ⟨k, v⟩ := e
    by_cases hk : k = key
    · subst hk
      by_cases h : k = key' <;> simp [put, get?, h]
    · by_cases h : k = key'
      · subst h
        simp [put, get?, hk, Ne.symm hk]
      · simp [put, get?, hk, h, ih]

end OrderStore.Assoc
