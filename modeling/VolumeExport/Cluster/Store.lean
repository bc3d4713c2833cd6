import VolumeExport.Cluster.Call

namespace VolumeExport

/-- The objects of a cluster, each under a key of its own, in the order in which the keys came. -/
structure Store where
  entries : List (Key × Object)
  distinct : (entries.map (·.1)).Nodup
  deriving DecidableEq, Repr

namespace Store

/-- The object of the first entry with a key. -/
def look (k : Key) : List (Key × Object) → Option Object
  | [] => none
  | (l, o) :: es => if l = k then some o else look k es

/-- Replaces the object of a key, or adds one at the end. -/
def place (k : Key) (o : Object) : List (Key × Object) → List (Key × Object)
  | [] => [(k, o)]
  | (l, p) :: es => if l = k then (l, o) :: es else (l, p) :: place k o es

theorem mem_keys_place {k l : Key} {o : Object} {es : List (Key × Object)} :
    l ∈ (place k o es).map (·.1) ↔ l = k ∨ l ∈ es.map (·.1) := by
  induction es with
  | nil => simp [place]
  | cons e es ih =>
    simp only [place]
    split
    · next h => simp [h]
    · simp only [List.map_cons, List.mem_cons, ih]
      grind

theorem place_distinct (k : Key) (o : Object) {es : List (Key × Object)}
    (h : (es.map (·.1)).Nodup) : ((place k o es).map (·.1)).Nodup := by
  induction es with
  | nil => simp [place]
  | cons e es ih =>
    simp only [List.map_cons, List.nodup_cons] at h
    simp only [place]
    split
    · next hk => simpa [hk] using h
    · next hk =>
      simp only [List.map_cons, List.nodup_cons, mem_keys_place]
      exact ⟨fun m => m.elim (fun e => hk e) h.1, ih h.2⟩

def empty : Store := ⟨[], .nil⟩

instance : EmptyCollection Store := ⟨empty⟩

def get? (s : Store) (k : Key) : Option Object := look k s.entries

def contains (s : Store) (k : Key) : Bool := (s.get? k).isSome

/-- An object that is there already keeps its place. -/
def put (s : Store) (k : Key) (o : Object) : Store :=
  ⟨place k o s.entries, place_distinct k o s.distinct⟩

def erase (s : Store) (k : Key) : Store :=
  ⟨s.entries.filter (·.1 ≠ k), (List.filter_sublist.map _).nodup s.distinct⟩

/-- The objects of a kind, in one namespace or in all. -/
def objects (s : Store) (r : Resource) (namespaceName : Option String) : List Object :=
  (s.entries.filter fun e =>
    e.1.resource = r && (namespaceName.isNone || e.1.namespaceName = namespaceName)).map (·.2)

theorem look_place (k l : Key) (o : Object) (es : List (Key × Object)) :
    look l (place k o es) = if k = l then some o else look l es := by
  induction es with
  | nil => rfl
  | cons e es ih =>
    simp only [place]
    split
    · next h =>
      subst h
      simp only [look]
      split <;> rfl
    · next h =>
      simp only [look, ih]
      grind

theorem look_filter (k l : Key) (es : List (Key × Object)) :
    look l (es.filter (·.1 ≠ k)) = if k = l then none else look l es := by
  induction es with
  | nil => simp [look]
  | cons e es ih =>
    simp only [List.filter_cons, look]
    split <;> simp only [look, ih] <;> grind

theorem look_eq_some_iff {es : List (Key × Object)} (h : (es.map (·.1)).Nodup) {k : Key}
    {o : Object} : look k es = some o ↔ (k, o) ∈ es := by
  induction es with
  | nil => simp [look]
  | cons e es ih =>
    rw [List.map_cons, List.nodup_cons] at h
    rw [look, List.mem_cons]
    split
    · next hk =>
      subst hk
      constructor
      · rintro ⟨⟩
        exact .inl rfl
      · rintro (he | he)
        · exact congrArg some (congrArg Prod.snd he).symm
        · exact absurd (List.mem_map_of_mem he) h.1
    · next hk =>
      rw [ih h.2]
      exact ⟨.inr, fun he => he.resolve_left fun heq => hk (congrArg Prod.fst heq.symm)⟩

theorem get?_eq_some_iff {s : Store} {k : Key} {o : Object} :
    s.get? k = some o ↔ (k, o) ∈ s.entries :=
  look_eq_some_iff s.distinct

/-- The objects of a namespace are those that are found in it. -/
theorem mem_objects {s : Store} {r : Resource} {ns : String} {o : Object} :
    o ∈ s.objects r (some ns) ↔ ∃ name, s.get? ⟨r, some ns, name⟩ = some o := by
  simp only [objects, List.mem_map, List.mem_filter, get?_eq_some_iff]
  constructor
  · rintro ⟨⟨⟨t, n, name⟩, o⟩, ⟨hmem, hkey⟩, rfl⟩
    obtain ⟨rfl, rfl⟩ : t = r ∧ n = some ns := by simpa using hkey
    exact ⟨name, hmem⟩
  · rintro ⟨name, hmem⟩
    exact ⟨_, ⟨hmem, by simp⟩, rfl⟩

@[simp] theorem get?_empty (k : Key) : (∅ : Store).get? k = none := rfl

theorem get?_put (s : Store) (k l : Key) (o : Object) :
    (s.put k o).get? l = if k = l then some o else s.get? l :=
  look_place k l o s.entries

theorem get?_erase (s : Store) (k l : Key) :
    (s.erase k).get? l = if k = l then none else s.get? l :=
  look_filter k l s.entries

end Store

end VolumeExport
