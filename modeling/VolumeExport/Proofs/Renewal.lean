import Mathlib.Logic.Relation
import VolumeExport.Proofs.Course

namespace VolumeExport

theorem eq_of_toString {m n : Nat} (h : toString m = toString n) : m = n := by
  have hdigits : Nat.toDigits 10 m = Nat.toDigits 10 n := String.ofList_inj.1 h
  calc
    m = Nat.ofDigitChars 10 (Nat.toDigits 10 m) 0 :=
      (Nat.ofDigitChars_toDigits (by decide) (by decide)).symm
    _ = Nat.ofDigitChars 10 (Nat.toDigits 10 n) 0 := by rw [hdigits]
    _ = n := Nat.ofDigitChars_toDigits (by decide) (by decide)

/-- An object has an identity and the version of a write. -/
structure Object.Stamped (o : Object) (write : Nat) : Prop where
  uid : o.knownMetadata.uid.isSome
  version : o.knownMetadata.resourceVersion = some (toString write)

theorem Object.Stamped.eq {o o' : Object} {m n : Nat} (h : o.Stamped m) (h' : o'.Stamped n)
    (hversion : o'.knownMetadata.resourceVersion = o.knownMetadata.resourceVersion) : n = m := by
  rw [h.version, h'.version] at hversion
  exact eq_of_toString (Option.some.inj hversion)

namespace Cluster

theorem stamped_stamped (write : Nat) (o : Object) : (stamped write o).Stamped write := ⟨rfl, rfl⟩

/-- Every stored object was stored by some write. -/
def Sealed (c : Cluster) : Prop :=
  ∀ k o, c.store.get? k = some o → ∃ n, n ≤ c.writes ∧ o.Stamped n

/-- An object that was stored between two states of a cluster. -/
def Fresh (c c' : Cluster) (o : Object) : Prop := ∃ n, c.writes < n ∧ n ≤ c'.writes ∧ o.Stamped n

/-- A later state of a cluster: each object is one of those before, or was stored since. -/
structure Renews (c c' : Cluster) : Prop where
  writes : c.writes ≤ c'.writes
  found : ∀ k o, c'.store.get? k = some o → c.store.get? k = some o ∨ Fresh c c' o

variable {c c' c'' : Cluster} {k : Key} {o o' : Object}

theorem Renews.refl (c : Cluster) : Renews c c := ⟨Nat.le_refl _, fun _ _ h => .inl h⟩

theorem Fresh.mono (h : Fresh c c' o) (hwrites : c'.writes ≤ c''.writes) : Fresh c c'' o := by
  obtain ⟨n, hlt, hle, hstamped⟩ := h
  exact ⟨n, hlt, Nat.le_trans hle hwrites, hstamped⟩

theorem Renews.trans (h : Renews c c') (h' : Renews c' c'') : Renews c c'' := by
  refine ⟨Nat.le_trans h.writes h'.writes, fun k o ho => ?_⟩
  rcases h'.found k o ho with ho | hfresh
  · exact (h.found k o ho).imp_right fun hfresh => hfresh.mono h'.writes
  · obtain ⟨n, hlt, hle, hstamped⟩ := hfresh
    exact .inr ⟨n, Nat.lt_of_le_of_lt h.writes hlt, hle, hstamped⟩

theorem Sealed.renews (h : c.Sealed) (hrenews : Renews c c') : c'.Sealed := by
  intro k o ho
  rcases hrenews.found k o ho with ho | hfresh
  · obtain ⟨n, hle, hstamped⟩ := h k o ho
    exact ⟨n, Nat.le_trans hle hrenews.writes, hstamped⟩
  · obtain ⟨n, -, hle, hstamped⟩ := hfresh
    exact ⟨n, hle, hstamped⟩

/-- What is found again with the same version is the same. -/
theorem Renews.eq_of_version (h : Renews c c') (hsealed : c.Sealed) (ho : c.store.get? k = some o)
    (ho' : c'.store.get? k = some o')
    (hversion : o'.knownMetadata.resourceVersion = o.knownMetadata.resourceVersion) : o' = o := by
  rcases h.found k o' ho' with hold | hfresh
  · exact Option.some.inj (hold.symm.trans ho)
  · obtain ⟨m, hm, hstamped⟩ := hsealed k o ho
    obtain ⟨n, hlt, -, hstamped'⟩ := hfresh
    have heq : n = m := hstamped.eq hstamped' hversion
    omega

theorem Renews.put (h : Renews c c') (r : Resource) (o : Object) : Renews c (c'.put r o) := by
  have hlt : c.writes < c'.writes + 1 := Nat.lt_succ_of_le h.writes
  refine ⟨Nat.le_of_lt hlt, fun k o' ho' => ?_⟩
  rw [Cluster.put, Store.get?_put] at ho'
  split at ho'
  · cases ho'
    exact .inr ⟨c'.writes + 1, hlt, Nat.le_refl _, stamped_stamped _ o⟩
  · exact (h.found k o' ho').imp_right fun hfresh => hfresh.mono (Nat.le_succ _)

theorem Renews.erase (h : Renews c c') (k : Key) :
    Renews c { c' with store := c'.store.erase k } := by
  refine ⟨h.writes, fun l o ho => ?_⟩
  rw [Store.get?_erase] at ho
  split at ho
  · cases ho
  · exact h.found l o ho

theorem Renews.adjust (h : Renews c c') {f : Object → Object}
    (hf : ∀ o, (f o).knownMetadata = o.knownMetadata)
    (hk : ∀ o, c'.store.get? k = some o → Fresh c c' o) : Renews c (c'.adjust k f) := by
  rw [Cluster.adjust]
  split
  · next o ho =>
    refine ⟨h.writes, fun l o' ho' => ?_⟩
    rw [Store.get?_put] at ho'
    split at ho'
    · cases ho'
      obtain ⟨n, hlt, hle, hstamped⟩ := hk o ho
      refine .inr ⟨n, hlt, hle, ?_, ?_⟩
      · rw [hf]
        exact hstamped.uid
      · rw [hf]
        exact hstamped.version
    · exact h.found l o' ho'
  · exact h

theorem Renews.welcome (h : Renews c c') (hk : ∀ o, c'.store.get? k = some o → Fresh c c' o)
    (o : Object) : Renews c (c'.welcome k o) := by
  rw [Cluster.welcome]
  split
  · rw [bind]
    split
    · refine (h.put _ _).adjust (knownMetadata_bound _) fun o' ho' => ?_
      rw [Cluster.put, Store.get?_put] at ho'
      split at ho'
      · cases ho'
        exact ⟨c'.writes + 1, Nat.lt_succ_of_le h.writes, Nat.le_refl _, stamped_stamped _ _⟩
      · exact (hk o' ho').mono (Nat.le_succ _)
    · exact h
  · rw [assign]
    split
    · have h : Renews c { c' with addresses := c'.addresses + 1 } := ⟨h.writes, h.found⟩
      exact h.adjust (fun o => knownMetadata_setSpec o "clusterIP" _) hk
    · exact h
  · exact h

theorem renews_respond (c : Cluster) (call : Call) : Renews c (c.respond call).2 := by
  cases call with
  | read => exact .refl c
  | list => exact .refl c
  | create r ns body =>
    simp only [respond, create]
    split
    · exact .refl c
    · next m hm =>
      split
      · exact .refl c
      · refine ((Renews.refl c).put _ _).welcome (fun o ho => ?_) _
        have hkey : Key.ofMetadata r (homed r ns body).knownMetadata = .of r ns m.name := by
          rw [ofMetadata_homed, Object.knownMetadata, hm]
          rfl
        rw [Cluster.put, hkey, Store.get?_put, if_pos rfl] at ho
        cases ho
        exact ⟨c.writes + 1, Nat.lt_succ_self _, Nat.le_refl _, stamped_stamped _ _⟩
  | replace r ns name body =>
    simp only [respond, replace]
    split
    · exact .refl c
    · split
      · exact (Renews.refl c).put _ _
      · exact .refl c
  | delete r ns name =>
    simp only [respond, delete]
    split
    · exact (Renews.refl c).erase _
    · exact .refl c

theorem sealed_empty : empty.Sealed := fun _ _ h => nomatch h

end Cluster

namespace Site

def storing (w : Site) (r : Resource) (o : Object) : Site where
  cluster := w.cluster.put r o
  tracker := w.tracker
  keyed := w.keyed.put r o

/-- What others may write: they store and remove any objects, or make any call. -/
inductive Write (w : Site) : Site → Prop
  | store (r : Resource) (o : Object) : Write w (w.storing r o)
  | remove (k : Key) : Write w (w.without k)
  | call (c : Call) : Write w (w.after c)
  | track (tracker : Tracker) : Write w (w.tracking tracker)

theorem Write.renews {w w' : Site} (h : Write w w') : w.cluster.Renews w'.cluster := by
  cases h with
  | store r o => exact (Cluster.Renews.refl _).put r o
  | remove k => exact (Cluster.Renews.refl _).erase k
  | call c => exact w.cluster.renews_respond c
  | track => exact .refl _

theorem sealed_holding (objects : List (Resource × Object)) : (holding objects).cluster.Sealed := by
  have hstored (c : Cluster) : c.Renews (objects.foldl (fun c p => c.put p.1 p.2) c) := by
    induction objects generalizing c with
    | nil => exact .refl c
    | cons p objects ih => exact ((Cluster.Renews.refl c).put p.1 p.2).trans (ih _)
  exact Cluster.sealed_empty.renews (hstored _)

end Site

/-- Others write before every answer, as often as they like; no call fails. -/
def Surroundings.writers : Surroundings := ⟨fun _ => False, Relation.ReflTransGen Site.Write⟩

theorem Site.renews_of_moves {w w' : Site} (h : Surroundings.writers.moves w w') :
    w.cluster.Renews w'.cluster := by
  induction h with
  | refl => exact .refl _
  | tail _ hwrite ih => exact ih.trans hwrite.renews

end VolumeExport
