namespace VolumeExport

/-- Dictionaries with text keys, held in the order of the keys, so that two dictionaries with the
same contents are equal. -/
structure Dict (α : Type) where
  toList : List (String × α)
  sorted : toList.Pairwise (fun a b => a.1 < b.1)
  deriving DecidableEq, Repr

namespace Dict

variable {α β : Type}

/-- The value of the first entry with the key. -/
def look (key : String) : List (String × α) → Option α
  | [] => none
  | (k, v) :: xs => if k = key then some v else look key xs

/-- Puts an entry in its place among sorted ones. -/
def place (key : String) (value : α) : List (String × α) → List (String × α)
  | [] => [(key, value)]
  | (k, v) :: xs =>
    if key < k then (key, value) :: (k, v) :: xs
    else if key = k then (key, value) :: xs
    else (k, v) :: place key value xs

theorem lt_of_not {a b : String} (h : ¬a < b) (h' : a ≠ b) : b < a := by
  rcases String.le_total a b with hab | hab
  · exact absurd (String.le_antisymm hab (String.not_lt.1 h)) h'
  · exact (String.not_le.1 fun hba => h' (String.le_antisymm hba hab))

theorem mem_place {key : String} {value : α} {xs : List (String × α)} {p : String × α}
    (h : p ∈ place key value xs) : p = (key, value) ∨ p ∈ xs := by
  induction xs with
  | nil => simpa [place] using h
  | cons x xs ih =>
    simp only [place] at h
    split at h
    · simpa using h
    · split at h
      · rcases List.mem_cons.1 h with h | h
        · exact .inl h
        · exact .inr (List.mem_cons_of_mem _ h)
      · rcases List.mem_cons.1 h with h | h
        · exact .inr (h ▸ List.mem_cons_self)
        · exact (ih h).imp_right (List.mem_cons_of_mem _)

theorem place_sorted (key : String) (value : α) {xs : List (String × α)}
    (h : xs.Pairwise fun a b => a.1 < b.1) :
    (place key value xs).Pairwise fun a b => a.1 < b.1 := by
  induction xs with
  | nil => simp [place]
  | cons x xs ih =>
    have hx := List.pairwise_cons.1 h
    simp only [place]
    split
    · next hk =>
      refine List.pairwise_cons.2 ⟨fun p hp => ?_, h⟩
      rcases List.mem_cons.1 hp with rfl | hp
      · exact hk
      · exact String.lt_trans hk (hx.1 p hp)
    · next hk =>
      split
      · next he =>
        subst he
        exact List.pairwise_cons.2 ⟨hx.1, hx.2⟩
      · next he =>
        refine List.pairwise_cons.2 ⟨fun p hp => ?_, ih hx.2⟩
        rcases mem_place hp with rfl | hp
        · exact lt_of_not hk he
        · exact hx.1 p hp

def empty : Dict α := ⟨[], .nil⟩

instance : EmptyCollection (Dict α) := ⟨empty⟩

instance : Inhabited (Dict α) := ⟨empty⟩

def get? (d : Dict α) (key : String) : Option α := look key d.toList

def contains (d : Dict α) (key : String) : Bool := (d.get? key).isSome

def insert (d : Dict α) (key : String) (value : α) : Dict α :=
  ⟨place key value d.toList, place_sorted key value d.sorted⟩

def erase (d : Dict α) (key : String) : Dict α :=
  ⟨d.toList.filter (·.1 ≠ key), d.sorted.filter _⟩

def isEmpty (d : Dict α) : Bool := d.toList.isEmpty

def keys (d : Dict α) : List String := d.toList.map (·.1)

/-- Of several entries with one key the last counts. -/
def ofList (xs : List (String × α)) : Dict α := xs.foldl (fun d p => d.insert p.1 p.2) ∅

def map (f : α → β) (d : Dict α) : Dict β :=
  ⟨d.toList.map fun p => (p.1, f p.2), by
    rw [List.pairwise_map]
    exact d.sorted⟩

theorem look_place (key : String) (value : α) (xs : List (String × α)) (k : String) :
    look k (place key value xs) = if key = k then some value else look k xs := by
  induction xs with
  | nil => rfl
  | cons x xs ih =>
    simp only [place]
    split
    · rfl
    · split
      · next he =>
        subst he
        simp only [look]
        split <;> rfl
      · next he =>
        simp only [look, ih]
        grind

theorem look_filter (key : String) (xs : List (String × α)) (k : String) :
    look k (xs.filter (·.1 ≠ key)) = if key = k then none else look k xs := by
  induction xs with
  | nil => simp [look]
  | cons x xs ih =>
    simp only [List.filter_cons, look]
    split <;> simp only [look, ih] <;> grind

theorem look_eq_some_iff {xs : List (String × α)} (h : xs.Pairwise fun a b => a.1 < b.1)
    {key : String} {value : α} : look key xs = some value ↔ (key, value) ∈ xs := by
  induction xs with
  | nil => simp [look]
  | cons x xs ih =>
    have hx := List.pairwise_cons.1 h
    simp only [look, List.mem_cons]
    split
    · next he =>
      constructor
      · rintro ⟨⟩
        exact .inl (by rw [← he])
      · rintro (h | h)
        · rw [← h]
        · exact absurd (he ▸ hx.1 _ h) (String.lt_irrefl _)
    · next he =>
      rw [ih hx.2]
      constructor
      · exact .inr
      · rintro (h | h)
        · exact absurd (by rw [← h]) he
        · exact h

@[simp] theorem get?_empty (key : String) : (∅ : Dict α).get? key = none := rfl

theorem get?_insert (d : Dict α) (key : String) (value : α) (k : String) :
    (d.insert key value).get? k = if key = k then some value else d.get? k :=
  look_place key value d.toList k

theorem get?_erase (d : Dict α) (key k : String) :
    (d.erase key).get? k = if key = k then none else d.get? k :=
  look_filter key d.toList k

theorem get?_eq_some_iff {d : Dict α} {key : String} {value : α} :
    d.get? key = some value ↔ (key, value) ∈ d.toList :=
  look_eq_some_iff d.sorted

theorem get?_foldl_insert {xs : List (String × α)} {key : String} (h : key ∉ xs.map (·.1))
    (d : Dict α) : (xs.foldl (fun d p => d.insert p.1 p.2) d).get? key = d.get? key := by
  induction xs generalizing d with
  | nil => rfl
  | cons x xs ih =>
    rw [List.map_cons, List.mem_cons, not_or] at h
    rw [List.foldl_cons, ih h.2, get?_insert, if_neg (Ne.symm h.1)]

/-- Of entries with distinct keys each is found. -/
theorem get?_ofList {xs : List (String × α)} (h : (xs.map (·.1)).Nodup) {key : String} {value : α}
    (hmem : (key, value) ∈ xs) : (ofList xs).get? key = some value := by
  rw [ofList]
  generalize (∅ : Dict α) = d
  induction xs generalizing d with
  | nil => cases hmem
  | cons x xs ih =>
    rw [List.map_cons, List.nodup_cons] at h
    rw [List.foldl_cons]
    rcases List.mem_cons.1 hmem with rfl | hmem
    · rw [get?_foldl_insert h.1, get?_insert, if_pos rfl]
    · exact ih h.2 hmem _

/-- Sorted lists with the same members are equal. -/
theorem eq_of_mem_iff {xs ys : List (String × α)} (hx : xs.Pairwise fun a b => a.1 < b.1)
    (hy : ys.Pairwise fun a b => a.1 < b.1) (h : ∀ p, p ∈ xs ↔ p ∈ ys) : xs = ys := by
  induction xs generalizing ys with
  | nil =>
    cases ys with
    | nil => rfl
    | cons y ys => exact absurd ((h y).2 List.mem_cons_self) List.not_mem_nil
  | cons x xs ih =>
    cases ys with
    | nil => exact absurd ((h x).1 List.mem_cons_self) List.not_mem_nil
    | cons y ys =>
      have hx' := List.pairwise_cons.1 hx
      have hy' := List.pairwise_cons.1 hy
      have hxy : x = y := by
        rcases List.mem_cons.1 ((h x).1 List.mem_cons_self) with e | m
        · exact e
        · rcases List.mem_cons.1 ((h y).2 List.mem_cons_self) with e | m'
          · exact e.symm
          · exact absurd (String.lt_trans (hy'.1 _ m) (hx'.1 _ m')) (String.lt_irrefl _)
      subst hxy
      congr 1
      refine ih hx'.2 hy'.2 fun p => ?_
      constructor
      · intro m
        rcases List.mem_cons.1 ((h p).1 (List.mem_cons_of_mem _ m)) with e | m'
        · exact absurd (e ▸ hx'.1 _ m) (String.lt_irrefl _)
        · exact m'
      · intro m
        rcases List.mem_cons.1 ((h p).2 (List.mem_cons_of_mem _ m)) with e | m'
        · exact absurd (e ▸ hy'.1 _ m) (String.lt_irrefl _)
        · exact m'

theorem ext_get? {d e : Dict α} (h : ∀ key, d.get? key = e.get? key) : d = e := by
  have : d.toList = e.toList := by
    refine eq_of_mem_iff d.sorted e.sorted fun p => ?_
    rw [← get?_eq_some_iff, ← get?_eq_some_iff, h]
  cases d
  cases e
  simpa using this

theorem nodup_keys (d : Dict α) : d.keys.Nodup := by
  refine List.pairwise_map.2 (d.sorted.imp ?_)
  intro a b hlt heq
  rw [heq] at hlt
  exact String.lt_irrefl b.1 hlt

theorem ofList_toList (d : Dict α) : ofList d.toList = d := by
  apply ext_get?
  intro key
  cases hget : d.get? key with
  | some value => exact get?_ofList d.nodup_keys (get?_eq_some_iff.1 hget)
  | none =>
    refine get?_foldl_insert (fun hmem => ?_) ∅
    obtain ⟨p, hp, rfl⟩ := List.mem_map.1 hmem
    rw [get?_eq_some_iff.2 hp] at hget
    cases hget

end Dict

end VolumeExport
