import Mathlib.Data.List.Basic

/-!
Finite maps as association lists, newest binding first. `put` removes the old
binding of its key, so a map built by `put` and `erase` binds each key once.
This stands for a Go `map` wherever iteration order does not matter.
-/
namespace KeyMap

variable {κ ν : Type} [DecidableEq κ]

abbrev Map (κ ν : Type) := List (κ × ν)

def get (m : Map κ ν) (k : κ) : Option ν := (m.find? (fun p => p.1 = k)).map Prod.snd

def erase (m : Map κ ν) (k : κ) : Map κ ν := m.filter (fun p => !decide (p.1 = k))

def put (m : Map κ ν) (k : κ) (v : ν) : Map κ ν := (k, v) :: erase m k

def keys (m : Map κ ν) : List κ := m.map Prod.fst

@[simp] theorem get_nil (k : κ) : get ([] : Map κ ν) k = none := rfl

theorem get_cons (k k' : κ) (v : ν) (m : Map κ ν) :
    get ((k', v) :: m) k = if k' = k then some v else get m k := by
  by_cases h : k' = k <;> simp [get, h]

theorem erase_cons (m : Map κ ν) (k k' : κ) (v : ν) :
    erase ((k', v) :: m) k = if k' = k then erase m k else (k', v) :: erase m k := by
  by_cases h : k' = k <;> simp [erase, h]

theorem get_erase_ne (m : Map κ ν) {k k' : κ} (h : k' ≠ k) :
    get (erase m k') k = get m k := by
  induction m with
  | nil => rfl
  | cons p m ih =>
    obtain ⟨a, v⟩ := p
    rw [erase_cons]
    by_cases ha : a = k'
    · subst ha
      rw [if_pos rfl, ih, get_cons, if_neg h]
    · rw [if_neg ha, get_cons, get_cons, ih]

@[simp] theorem get_erase_self (m : Map κ ν) (k : κ) : get (erase m k) k = none := by
  induction m with
  | nil => rfl
  | cons p m ih =>
    obtain ⟨a, v⟩ := p
    rw [erase_cons]
    by_cases ha : a = k
    · rw [if_pos ha, ih]
    · rw [if_neg ha, get_cons, if_neg ha, ih]

theorem get_of_get_erase {m : Map κ ν} {k k' : κ} {v : ν} (h : get (erase m k) k' = some v) :
    get m k' = some v := by
  by_cases same : k = k'
  · subst same
    simp at h
  · rwa [get_erase_ne m same] at h

@[simp] theorem get_put_self (m : Map κ ν) (k : κ) (v : ν) : get (put m k v) k = some v := by
  simp [put, get_cons]

theorem get_put_ne (m : Map κ ν) {k k' : κ} (v : ν) (h : k' ≠ k) :
    get (put m k' v) k = get m k := by
  rw [put, get_cons, if_neg h, get_erase_ne m h]

theorem get_put (m : Map κ ν) (k k' : κ) (v : ν) :
    get (put m k' v) k = if k' = k then some v else get m k := by
  by_cases h : k' = k
  · subst h
    simp
  · rw [get_put_ne m v h, if_neg h]

theorem get_eq_none_of_not_mem {m : Map κ ν} {k : κ} (absent : k ∉ keys m) : get m k = none := by
  simp only [get, Option.map_eq_none_iff, List.find?_eq_none]
  intro p member same
  exact absent (List.mem_map.mpr ⟨p, member, by simpa using same⟩)

theorem erase_of_not_mem {m : Map κ ν} {k : κ} (absent : k ∉ keys m) : erase m k = m := by
  unfold erase
  rw [List.filter_eq_self]
  intro p member
  have other : p.1 ≠ k := fun same => absent (List.mem_map.mpr ⟨p, member, same⟩)
  simpa using other

theorem put_of_not_mem {m : Map κ ν} {k : κ} (v : ν) (absent : k ∉ keys m) :
    put m k v = (k, v) :: m := by
  rw [put, erase_of_not_mem absent]

@[simp] theorem keys_put (m : Map κ ν) (k : κ) (v : ν) : keys (put m k v) = k :: keys (erase m k) := rfl

theorem mem_erase {m : Map κ ν} {k : κ} {p : κ × ν} : p ∈ erase m k ↔ p ∈ m ∧ p.1 ≠ k := by
  simp [erase, List.mem_filter]

omit [DecidableEq κ] in
theorem mem_keys {m : Map κ ν} {k : κ} : k ∈ keys m ↔ ∃ v, (k, v) ∈ m := by
  simp [keys]

theorem mem_keys_erase {m : Map κ ν} {k k' : κ} : k' ∈ keys (erase m k) ↔ k' ∈ keys m ∧ k' ≠ k := by
  simp only [mem_keys, mem_erase]
  constructor
  · rintro ⟨v, member, other⟩
    exact ⟨⟨v, member⟩, other⟩
  · rintro ⟨⟨v, member⟩, other⟩
    exact ⟨v, member, other⟩

omit [DecidableEq κ] in
theorem keys_filter_sublist (m : Map κ ν) (p : κ × ν → Bool) : List.Sublist (keys (m.filter p)) (keys m) :=
  List.Sublist.map Prod.fst List.filter_sublist

omit [DecidableEq κ] in
/-- Changing every value keeps the keys. -/
@[simp] theorem keys_map_values {μ : Type} (m : Map κ ν) (f : κ × ν → μ) :
    keys (m.map fun e => (e.1, f e)) = keys m := by
  simp [keys, Function.comp_def]

theorem keys_erase_sublist (m : Map κ ν) (k : κ) : List.Sublist (keys (erase m k)) (keys m) :=
  keys_filter_sublist m _

theorem nodup_keys_put {m : Map κ ν} (distinct : (keys m).Nodup) (k : κ) (v : ν) :
    (keys (put m k v)).Nodup := by
  rw [keys_put, List.nodup_cons]
  exact ⟨fun member => (mem_keys_erase.mp member).2 rfl, distinct.sublist (keys_erase_sublist m k)⟩

theorem mem_of_get {m : Map κ ν} {k : κ} {v : ν} (found : get m k = some v) : (k, v) ∈ m := by
  unfold get at found
  obtain ⟨p, first, rfl⟩ := Option.map_eq_some_iff.mp found
  have same : p.1 = k := by simpa using List.find?_some first
  rw [← same]
  exact List.mem_of_find?_eq_some first

theorem get_of_mem {m : Map κ ν} (distinct : (keys m).Nodup) {k : κ} {v : ν} (member : (k, v) ∈ m) :
    get m k = some v := by
  induction m with
  | nil => cases member
  | cons p rest ih =>
    obtain ⟨k', v'⟩ := p
    rw [keys, List.map_cons, List.nodup_cons] at distinct
    rw [get_cons]
    rcases List.mem_cons.mp member with same | later
    · cases same
      simp
    · have inKeys : k ∈ keys rest := List.mem_map.mpr ⟨(k, v), later, rfl⟩
      have other : k' ≠ k := fun same => distinct.1 (by rw [same]; exact inKeys)
      rw [if_neg other]
      exact ih distinct.2 later

theorem get_isSome_iff {m : Map κ ν} {k : κ} : (get m k).isSome ↔ k ∈ keys m := by
  constructor
  · intro found
    obtain ⟨v, found⟩ := Option.isSome_iff_exists.mp found
    exact mem_keys.mpr ⟨v, mem_of_get found⟩
  · intro member
    cases found : get m k with
    | some v => rfl
    | none =>
      obtain ⟨v, member⟩ := mem_keys.mp member
      simp only [get, Option.map_eq_none_iff, List.find?_eq_none] at found
      exact absurd (by simp) (found _ member)

theorem erase_put_self (m : Map κ ν) (k : κ) (v : ν) : erase (put m k v) k = erase m k := by
  simp [put, erase, List.filter_filter]

section Fold
variable {α : Type} (key : α → κ) (val : α → ν)

theorem get_foldl_put_of_not_mem (xs : List α) (m : Map κ ν) {k : κ} (absent : k ∉ xs.map key) :
    get (xs.foldl (fun m x => put m (key x) (val x)) m) k = get m k := by
  induction xs generalizing m with
  | nil => rfl
  | cons x xs ih =>
    simp only [List.map_cons, List.mem_cons, not_or] at absent
    rw [List.foldl_cons, ih _ absent.2, get_put_ne m _ (fun same => absent.1 same.symm)]

theorem get_foldl_put_of_mem (xs : List α) (m : Map κ ν) {x : α} (distinct : (xs.map key).Nodup)
    (member : x ∈ xs) : get (xs.foldl (fun m x => put m (key x) (val x)) m) (key x) = some (val x) := by
  induction xs generalizing m with
  | nil => cases member
  | cons y ys ih =>
    rw [List.map_cons, List.nodup_cons] at distinct
    rw [List.foldl_cons]
    rcases List.mem_cons.mp member with rfl | later
    · rw [get_foldl_put_of_not_mem key val ys _ distinct.1, get_put_self]
    · exact ih _ distinct.2 later

end Fold

theorem get_map_pair (ks : List κ) (f : κ → ν) (k : κ) :
    get (ks.map fun k => (k, f k)) k = if k ∈ ks then some (f k) else none := by
  induction ks with
  | nil => rfl
  | cons k' ks ih =>
    rw [List.map_cons, get_cons, ih]
    by_cases same : k' = k
    · subst same
      simp
    · simp [same, Ne.symm same]

theorem get_map_values {μ : Type} (m : Map κ ν) (f : κ × ν → μ) (k : κ) :
    get (m.map fun e => (e.1, f e)) k = (get m k).map fun v => f (k, v) := by
  induction m with
  | nil => rfl
  | cons e m ih =>
    obtain ⟨k', v⟩ := e
    rw [List.map_cons, get_cons, get_cons, ih]
    by_cases same : k' = k
    · subst same
      simp
    · simp [same]

theorem get_filterMap_keyed {μ : Type} (m : Map κ ν) (f : κ → Option μ) (k : κ) :
    get (m.filterMap fun e => (f e.1).map fun w => (e.1, w)) k = if k ∈ keys m then f k else none := by
  induction m with
  | nil => rfl
  | cons e m ih =>
    obtain ⟨k', v⟩ := e
    rw [List.filterMap_cons]
    by_cases same : k' = k
    · subst same
      cases found : f k' with
      | none => simp [found, ih]
      | some w => simp [get_cons, keys]
    · have other : k ∈ keys ((k', v) :: m) ↔ k ∈ keys m := by simp [keys, Ne.symm same]
      cases found : f k' with
      | none => simp [ih, other]
      | some w => simp [get_cons, same, ih, other]

theorem get_filter_of_drop (m : Map κ ν) (p : κ × ν → Bool) {k : κ} (drop : ∀ v, p (k, v) = false) :
    get (m.filter p) k = none := by
  induction m with
  | nil => rfl
  | cons e m ih =>
    obtain ⟨k', v⟩ := e
    rw [List.filter_cons]
    split
    · rename_i kept
      have other : k' ≠ k := by
        rintro rfl
        rw [drop v] at kept
        cases kept
      rw [get_cons, if_neg other, ih]
    · exact ih

theorem get_filter_of_keep (m : Map κ ν) (p : κ × ν → Bool) {k : κ} (keep : ∀ v, p (k, v) = true) :
    get (m.filter p) k = get m k := by
  induction m with
  | nil => rfl
  | cons e m ih =>
    obtain ⟨k', v⟩ := e
    rw [List.filter_cons, get_cons]
    split
    · rw [get_cons, ih]
    · rename_i dropped
      have other : k' ≠ k := by
        rintro rfl
        exact dropped (keep v)
      rw [ih, if_neg other]

/-! ### Renaming the keys -/

theorem get_append (m m' : Map κ ν) (k : κ) : get (m ++ m') k = (get m k).or (get m' k) := by
  induction m with
  | nil => rfl
  | cons e m ih =>
    obtain ⟨k', v⟩ := e
    rw [List.cons_append, get_cons, get_cons, ih]
    split <;> rfl

section Rename
variable {μ : Type} [DecidableEq μ] {f : κ → μ}

theorem get_map_keys (m : Map κ ν) (injective : Function.Injective f) (k : κ) :
    get (m.map fun e => (f e.1, e.2)) (f k) = get m k := by
  induction m with
  | nil => rfl
  | cons e m ih =>
    obtain ⟨k', v⟩ := e
    rw [List.map_cons, get_cons, get_cons, ih]
    by_cases same : k' = k
    · rw [if_pos (congrArg f same), if_pos same]
    · rw [if_neg (fun renamed => same (injective renamed)), if_neg same]

omit [DecidableEq κ] in
theorem get_map_keys_of_ne (m : Map κ ν) {key : μ} (outside : ∀ k, f k ≠ key) :
    get (m.map fun e => (f e.1, e.2)) key = none := by
  induction m with
  | nil => rfl
  | cons e m ih => rw [List.map_cons, get_cons, if_neg (outside e.1), ih]

end Rename

end KeyMap
