namespace ScmPlugins

structure OrderedMap (β : Type) where
  entries : List (String × β)
  nodup : (entries.map (·.1)).Nodup
  deriving DecidableEq

namespace OrderedMap

variable {β : Type}

def put (k : String) (v : β) : List (String × β) → List (String × β)
  | [] => [(k, v)]
  | (l, w) :: r => if l = k then (k, v) :: r else (l, w) :: put k v r

theorem map_fst_put (k : String) (v : β) (es : List (String × β)) :
    (put k v es).map (·.1) =
      if k ∈ es.map (·.1) then es.map (·.1) else es.map (·.1) ++ [k] := by
  induction es with
  | nil => simp [put]
  | cons e r ih =>
    by_cases h : e.1 = k
    · simp [put, h]
    · have h' : ¬k = e.1 := fun h' => h h'.symm
      simp only [put, h, if_false, List.map_cons, ih, List.mem_cons, h', false_or]
      split <;> simp

theorem nodup_put (k : String) (v : β) {es : List (String × β)} (h : (es.map (·.1)).Nodup) :
    ((put k v es).map (·.1)).Nodup := by
  rw [map_fst_put]
  split
  · exact h
  · rename_i hk
    rw [List.nodup_append]
    refine ⟨h, by simp, ?_⟩
    intro a ha b hb hab
    simp at hb
    exact hk (hb ▸ hab ▸ ha)

def find (k : String) : List (String × β) → Option β
  | [] => none
  | (l, w) :: r => if l = k then some w else find k r

theorem find_put (k l : String) (v : β) (es : List (String × β)) :
    find l (put k v es) = if l = k then some v else find l es := by
  fun_induction put k v es with
  | case1 => simp [find, eq_comm]
  | case2 w r => by_cases h : k = l <;> simp [find, h, eq_comm]
  | case3 m w r h ih =>
    by_cases h' : m = l
    · subst h'; simp [find, h]
    · simp [find, h', ih]

theorem find_isSome_iff {k : String} {es : List (String × β)} :
    (find k es).isSome ↔ k ∈ es.map (·.1) := by
  fun_induction find k es with
  | case1 => simp
  | case2 => simp
  | case3 l w r h ih => simpa [Ne.symm h] using ih

theorem find_eq_some_iff {k : String} {v : β} {es : List (String × β)}
    (h : (es.map (·.1)).Nodup) : find k es = some v ↔ (k, v) ∈ es := by
  fun_induction find k es with
  | case1 => simp
  | case2 w r =>
    have : (k, v) ∉ r := fun hv => (List.nodup_cons.1 h).1 (List.mem_map_of_mem (f := (·.1)) hv)
    simp [this, eq_comm]
  | case3 l w r hl ih => simp [ih (List.nodup_cons.1 h).2, Ne.symm hl]

theorem find_filter (k l : String) (es : List (String × β)) :
    find l (es.filter (·.1 != k)) = if l = k then none else find l es := by
  induction es with
  | nil => simp [find]
  | cons e r ih =>
    by_cases h : e.1 = k <;> by_cases h' : e.1 = l <;> simp_all [find]

def swap (k : String) (v : β) : List (String × β) → Option β × List (String × β)
  | [] => (none, [(k, v)])
  | (l, w) :: r =>
    if l = k then (some w, (k, v) :: r)
    else
      let (old, r) := swap k v r
      (old, (l, w) :: r)

theorem swap_eq (k : String) (v : β) (es : List (String × β)) :
    swap k v es = (find k es, put k v es) := by
  fun_induction put k v es with
  | case1 => rfl
  | case2 w r => simp [swap, find]
  | case3 l w r h ih => simp [swap, find, h, ih]

def empty : OrderedMap β := ⟨[], by simp⟩

instance : EmptyCollection (OrderedMap β) := ⟨empty⟩

instance : Inhabited (OrderedMap β) := ⟨empty⟩

def insert (m : OrderedMap β) (k : String) (v : β) : OrderedMap β :=
  ⟨put k v m.entries, nodup_put k v m.nodup⟩

def exchange (m : OrderedMap β) (k : String) (v : β) : Option β × OrderedMap β :=
  match swapped : swap k v m.entries with
  | (old, es) =>
    (old, ⟨es, by
      rw [swap_eq] at swapped
      exact (Prod.mk.inj swapped).2 ▸ nodup_put k v m.nodup⟩)

def get? (m : OrderedMap β) (k : String) : Option β := find k m.entries

def contains (m : OrderedMap β) (k : String) : Bool := (m.get? k).isSome

def keys (m : OrderedMap β) : List String := m.entries.map (·.1)

def size (m : OrderedMap β) : Nat := m.entries.length

def isEmpty (m : OrderedMap β) : Bool := m.entries.isEmpty

def erase (m : OrderedMap β) (k : String) : OrderedMap β :=
  ⟨m.entries.filter (·.1 != k), m.nodup.sublist (List.filter_sublist.map _)⟩

def ofList (es : List (String × β)) : OrderedMap β :=
  es.foldl (fun m e => m.insert e.1 e.2) ∅

@[ext] theorem ext {m n : OrderedMap β} (h : m.entries = n.entries) : m = n := by
  cases m; cases n; simpa using h

@[simp] theorem entries_empty : (∅ : OrderedMap β).entries = [] := rfl

theorem exchange_eq (m : OrderedMap β) (k : String) (v : β) :
    m.exchange k v = (m.get? k, m.insert k v) := by
  unfold exchange
  split
  rename_i old es swapped
  rw [swap_eq] at swapped
  obtain ⟨rfl, rfl⟩ := Prod.mk.inj swapped
  rfl

theorem get?_insert (m : OrderedMap β) (k l : String) (v : β) :
    (m.insert k v).get? l = if l = k then some v else m.get? l := find_put k l v m.entries

theorem keys_insert (m : OrderedMap β) (k : String) (v : β) :
    (m.insert k v).keys = if k ∈ m.keys then m.keys else m.keys ++ [k] :=
  map_fst_put k v m.entries

theorem get?_eq_some_iff {m : OrderedMap β} {k : String} {v : β} :
    m.get? k = some v ↔ (k, v) ∈ m.entries := find_eq_some_iff m.nodup

theorem get?_isSome_iff {m : OrderedMap β} {k : String} : (m.get? k).isSome ↔ k ∈ m.keys :=
  find_isSome_iff

theorem get?_erase (m : OrderedMap β) (k l : String) :
    (m.erase k).get? l = if l = k then none else m.get? l := find_filter k l m.entries

theorem foldl_insert (m : OrderedMap β) (es : List (String × β))
    (h : ((m.entries ++ es).map (·.1)).Nodup) :
    (es.foldl (fun m e => m.insert e.1 e.2) m).entries = m.entries ++ es := by
  induction es generalizing m with
  | nil => simp
  | cons e r ih =>
    have put_fresh : ∀ {fs : List (String × β)}, e.1 ∉ fs.map (·.1) →
        put e.1 e.2 fs = fs ++ [e] := by
      intro fs hfs
      induction fs with
      | nil => simp [put]
      | cons f t iht =>
        simp only [List.map_cons, List.mem_cons, not_or] at hfs
        simp [put, Ne.symm hfs.1, iht hfs.2]
    have he : (m.insert e.1 e.2).entries = m.entries ++ [e] := by
      refine put_fresh fun hm => ?_
      rw [List.map_append, List.nodup_append] at h
      exact h.2.2 _ hm _ (by simp) rfl
    rw [List.foldl_cons, ih _ (by rw [he]; simpa using h), he]
    simp

theorem entries_ofList {es : List (String × β)} (h : (es.map (·.1)).Nodup) :
    (ofList es).entries = es := by
  simpa [ofList] using foldl_insert ∅ es (by simpa using h)

end OrderedMap

end ScmPlugins
