import VolumeExport.Cluster.Server
import VolumeExport.Proofs.Evidence

namespace VolumeExport

def Call.Fits : Call → Prop
  | .replace r ns name body => Key.ofMetadata r body.knownMetadata = .of r ns name
  | _ => True

namespace Cluster

def metadata? (c : Cluster) (k : Key) : Option Metadata := (c.store.get? k).map Object.knownMetadata

def contains (c : Cluster) (k : Key) : Bool := c.store.contains k

variable {c : Cluster} {k l : Key} {r : Resource} {o : Object}

theorem isSome_metadata? (c : Cluster) (k : Key) : (c.metadata? k).isSome = c.contains k :=
  Option.isSome_map

theorem metadata?_eq_none : c.metadata? k = none ↔ c.contains k = false := by
  rw [← isSome_metadata?, Option.isSome_eq_false_iff, Option.isNone_iff_eq_none]

theorem get?_of_absent (h : c.contains k = false) : c.store.get? k = none :=
  Option.isNone_iff_eq_none.1 (Option.isSome_eq_false_iff.1 h)

theorem metadata?_put :
    (c.put r o).metadata? l =
      if Key.ofMetadata r o.knownMetadata = l then some (stamped (c.writes + 1) o).knownMetadata
      else c.metadata? l := by
  rw [metadata?, put, Store.get?_put]
  split <;> rfl

theorem metadata?_adjust {f : Object → Object}
    (hf : ∀ o, (f o).knownMetadata = o.knownMetadata) :
    (c.adjust k f).metadata? l = c.metadata? l := by
  rw [adjust]
  split
  · next o ho =>
    rw [metadata?, Store.get?_put]
    split
    · next h =>
      subst h
      rw [metadata?, ho, Option.map_some, Option.map_some, hf]
    · rfl
  · rfl

theorem knownMetadata_setSpec (o : Object) (name : String) (value : Json) :
    (o.setSpec name value).knownMetadata = o.knownMetadata := by
  rw [Object.knownMetadata, o.metadata_setSpec]
  rfl

theorem knownMetadata_bound (name : String) (o : Object) :
    (bound name o).knownMetadata = o.knownMetadata :=
  knownMetadata_setSpec o "volumeName" (.string name)

def boundKey (k : Key) : Key := .of .volume none (some (boundName (k.name.getD "None")))

theorem metadata?_bind :
    (c.bind k o).metadata? l = c.metadata? l ∨ l = boundKey k ∧ (c.bind k o).contains l := by
  rw [bind]
  split
  · have hput := (metadata?_adjust (k := k) (l := l)
      (knownMetadata_bound (boundName (k.name.getD "None")))).trans
      (metadata?_put (c := c) (r := .volume) (o := boundVolume (boundName (k.name.getD "None"))
        (o.path? ["spec", "resources", "requests"])))
    by_cases hl : boundKey k = l
    · refine .inr ⟨hl.symm, ?_⟩
      rw [← isSome_metadata?]
      exact (congrArg Option.isSome (hput.trans (if_pos hl))).trans rfl
    · exact .inl (hput.trans (if_neg hl))
  · exact .inl rfl

theorem metadata?_welcome :
    (c.welcome k o).metadata? l = c.metadata? l ∨
      k.resource = .claim ∧ l = boundKey k ∧ (c.welcome k o).contains l := by
  rw [welcome]
  split
  · next hclaim => exact metadata?_bind.imp_right fun h => ⟨hclaim, h⟩
  · rw [assign]
    split
    · exact .inl (metadata?_adjust fun o => knownMetadata_setSpec o "clusterIP" _)
    · exact .inl rfl
  · exact .inl rfl

def labels? (c : Cluster) (k : Key) : Option (Option (Dict (Option String))) :=
  (c.metadata? k).map Metadata.labels

theorem isSome_labels? (c : Cluster) (k : Key) : (c.labels? k).isSome = c.contains k := by
  rw [labels?, Option.isSome_map, isSome_metadata?]

/-- What a call with its answer may leave of the object of a key. -/
inductive Effect (c : Cluster) (l : Key) :
    (call : Call) → Except ApiError call.Result → Option Metadata → Prop
  | same {call x} : Effect c l call x (c.metadata? l)
  | created {r ns body o m} : l = .of r ns body.knownMetadata.name → c.metadata? l = none →
      m.labels = body.knownMetadata.labels → Effect c l (.create r ns body) (.ok o) (some m)
  | replaced {r ns name body o m} : l = .ofMetadata r body.knownMetadata →
      c.contains (.of r ns name) → m.labels = body.knownMetadata.labels →
      Effect c l (.replace r ns name body) (.ok o) (some m)
  | deleted {r ns name} : l = .of r ns name → Effect c l (.delete r ns name) (.ok ()) none
  | bound {ns body o m} : l.resource = .volume →
      Effect c l (.create .claim ns body) (.ok o) (some m)

theorem ofMetadata_homed (r : Resource) (ns : Option String) (o : Object) :
    Key.ofMetadata r (homed r ns o).knownMetadata = .of r ns o.knownMetadata.name := by
  rw [homed]
  split
  · rfl
  · next h => simp [Key.ofMetadata, Key.of, h]

theorem labels_homed (r : Resource) (ns : Option String) (o : Object) :
    (homed r ns o).knownMetadata.labels = o.knownMetadata.labels := by
  rw [homed]
  split <;> rfl

theorem effect_create (c : Cluster) (r : Resource) (ns : Option String) (body : Object) (l : Key) :
    Effect c l (.create r ns body) (c.create r ns body).1 ((c.create r ns body).2.metadata? l) := by
  rw [create]
  cases hbody : body.metadata with
  | none => exact .same
  | some m =>
    have hm : body.knownMetadata = m := by rw [Object.knownMetadata, hbody, Option.getD_some]
    dsimp only
    split
    · exact .same
    · next habsent =>
      rcases metadata?_welcome (c := c.put r (homed r ns body)) (k := .of r ns m.name) (l := l)
        (o := homed r ns body) with h | ⟨hclaim, hl, hthere⟩
      · dsimp only
        rw [h, metadata?_put]
        split
        · next hkey =>
          rw [ofMetadata_homed] at hkey
          refine .created hkey.symm ?_ (labels_homed r ns body)
          rw [metadata?_eq_none, ← hkey, hm]
          exact Bool.eq_false_iff.2 habsent
        · exact .same
      · obtain ⟨n, hn⟩ := Option.isSome_iff_exists.1 ((isSome_metadata? _ _).trans hthere)
        obtain rfl : r = .claim := hclaim
        dsimp only
        rw [hn]
        exact .bound (by rw [hl]; rfl)

theorem effect_replace (c : Cluster) (r : Resource) (ns name : Option String) (body : Object)
    (l : Key) :
    Effect c l (.replace r ns name body) (c.replace r (.of r ns name) body).1
      ((c.replace r (.of r ns name) body).2.metadata? l) := by
  rw [replace]
  cases ho : c.store.get? (.of r ns name) with
  | none => exact .same
  | some o =>
    dsimp only
    split
    · dsimp only
      rw [metadata?_put]
      split
      · next hkey => exact .replaced hkey.symm (Option.isSome_iff_exists.2 ⟨o, ho⟩) rfl
      · exact .same
    · exact .same

theorem effect_delete (c : Cluster) (r : Resource) (ns name : Option String) (l : Key) :
    Effect c l (.delete r ns name) (c.delete (.of r ns name)).1
      ((c.delete (.of r ns name)).2.metadata? l) := by
  rw [delete]
  split
  · by_cases hl : Key.of r ns name = l
    · have hgone : (Cluster.mk (c.store.erase (.of r ns name)) c.writes c.addresses c.binds
          c.assigns c.failing).metadata? l = none := by
        rw [metadata?, Store.get?_erase, if_pos hl, Option.map_none]
      rw [hgone]
      exact .deleted hl.symm
    · have hsame : (Cluster.mk (c.store.erase (.of r ns name)) c.writes c.addresses c.binds
          c.assigns c.failing).metadata? l = c.metadata? l := by
        rw [metadata?, Store.get?_erase, if_neg hl, metadata?]
      rw [hsame]
      exact .same
  · exact .same

theorem effect_respond (c : Cluster) (call : Call) (l : Key) :
    Effect c l call (c.respond call).1 ((c.respond call).2.metadata? l) := by
  cases call with
  | read => exact .same
  | list => exact .same
  | create r ns body => exact effect_create c r ns body l
  | replace r ns name body => exact effect_replace c r ns name body l
  | delete r ns name => exact effect_delete c r ns name l

theorem absent_of_create {ns : Option String} {body : Object}
    (h : (c.create r ns body).1 = .ok o) :
    c.contains (.of r ns body.knownMetadata.name) = false := by
  rw [create] at h
  cases hbody : body.metadata with
  | none =>
    rw [hbody] at h
    cases h
  | some m =>
    rw [hbody] at h
    dsimp only at h
    split at h
    · cases h
    · next habsent =>
      rw [Object.knownMetadata, hbody, Option.getD_some]
      exact Bool.eq_false_iff.2 habsent

theorem contains_welcome (h : c.contains l) : (c.welcome k o).contains l := by
  rcases metadata?_welcome (c := c) (k := k) (l := l) (o := o) with hl | ⟨-, -, hthere⟩
  · rw [← isSome_metadata?, hl, isSome_metadata?]
    exact h
  · exact hthere

theorem contains_put_self : (c.put r o).contains (.ofMetadata r o.knownMetadata) := by
  rw [← isSome_metadata?, metadata?_put, if_pos rfl]
  rfl

/-- What an answer shows of the object that a call is about is so. -/
theorem shows_respond {call : Call} {b : Bool} (hfits : call.Fits) (hk : call.key? = some k)
    (h : call.shows (c.respond call).1 = some b) : (c.respond call).2.contains k = b := by
  cases call with
  | list => cases hk
  | read r ns name =>
    cases hk
    simp only [respond, read] at h ⊢
    cases ho : c.store.get? (.of r ns name) with
    | none =>
      rw [ho] at h
      cases h
      exact congrArg Option.isSome ho
    | some o =>
      rw [ho] at h
      cases h
      exact congrArg Option.isSome ho
  | delete r ns name =>
    cases hk
    simp only [respond, delete] at h ⊢
    split at h
    · next hthere =>
      cases h
      rw [if_pos hthere, ← isSome_metadata?, metadata?, Store.get?_erase, if_pos rfl]
      rfl
    · next habsent =>
      cases h
      rw [if_neg habsent]
      exact Bool.eq_false_iff.2 habsent
  | replace r ns name body =>
    cases hk
    simp only [respond, replace] at h ⊢
    cases ho : c.store.get? (.of r ns name) with
    | none =>
      rw [ho] at h
      cases h
      exact congrArg Option.isSome ho
    | some o =>
      rw [ho] at h
      dsimp only at h ⊢
      split at h
      · next hversion =>
        cases h
        rw [if_pos hversion, ← hfits]
        exact contains_put_self
      · cases h
  | create r ns body =>
    cases hk
    simp only [respond, create] at h ⊢
    cases hbody : body.metadata with
    | none =>
      rw [hbody] at h
      cases h
    | some m =>
      have hm : body.knownMetadata = m := by rw [Object.knownMetadata, hbody, Option.getD_some]
      rw [hbody] at h
      dsimp only at h ⊢
      rw [hm]
      split at h
      · next hthere =>
        cases h
        rw [if_pos hthere]
        exact hthere
      · next habsent =>
        cases h
        rw [if_neg habsent]
        apply contains_welcome
        rw [← hm, ← ofMetadata_homed]
        exact contains_put_self

/-- Every object lies under the key that its own metadata name. -/
def Keyed (c : Cluster) : Prop := ∀ k m, c.metadata? k = some m → Key.ofMetadata k.resource m = k

theorem Keyed.put (h : c.Keyed) (r : Resource) (o : Object) : (c.put r o).Keyed := by
  intro k m hm
  rw [metadata?_put] at hm
  split at hm
  · next hkey =>
    subst hkey
    cases hm
    rfl
  · exact h k m hm

theorem keyed_empty : empty.Keyed := fun _ _ h => nomatch h

theorem Keyed.adjust (h : c.Keyed) (k : Key) {f : Object → Object}
    (hf : ∀ o, (f o).knownMetadata = o.knownMetadata) : (c.adjust k f).Keyed := by
  intro l m hm
  rw [metadata?_adjust hf] at hm
  exact h l m hm

theorem Keyed.welcome (h : c.Keyed) (k : Key) (o : Object) : (c.welcome k o).Keyed := by
  rw [Cluster.welcome]
  split
  · rw [bind]
    split
    · exact (h.put _ _).adjust k (knownMetadata_bound _)
    · exact h
  · rw [assign]
    split
    · exact Keyed.adjust (c := { c with addresses := c.addresses + 1 }) h k
        fun o => knownMetadata_setSpec o "clusterIP" _
    · exact h
  · exact h

theorem Keyed.erase (h : c.Keyed) (k : Key) : Keyed { c with store := c.store.erase k } := by
  intro l m hm
  rw [metadata?, Store.get?_erase] at hm
  split at hm
  · cases hm
  · exact h l m hm

theorem Keyed.respond (h : c.Keyed) (call : Call) : (c.respond call).2.Keyed := by
  cases call with
  | read => exact h
  | list => exact h
  | create r ns body =>
    simp only [Cluster.respond, create]
    split
    · exact h
    · split
      · exact h
      · exact (h.put _ _).welcome _ _
  | replace r ns name body =>
    simp only [Cluster.respond, replace]
    split
    · exact h
    · split
      · exact h.put _ _
      · exact h
  | delete r ns name =>
    simp only [Cluster.respond, delete]
    split
    · exact h.erase _
    · exact h

end Cluster

end VolumeExport
