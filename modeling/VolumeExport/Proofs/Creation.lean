import VolumeExport.Proofs.Steps

namespace VolumeExport

open VolumeExport.Action (either)

namespace Object

variable {o o' : Object}

theorem path?_congr (h : o'.rest = o.rest) (name : String) (names : List String) :
    o'.path? (name :: names) = o.path? (name :: names) := by
  rw [path?, path?, h]

theorem hasSpec_congr (h : o'.rest = o.rest) : o'.hasSpec = o.hasSpec :=
  congrArg Option.isSome (path?_congr h "spec" [])

theorem hasSpec_of_text? {name value : String} (h : o.text? ["spec", name] = some value) :
    o.hasSpec := by
  rw [text?, path?] at h
  rw [hasSpec, path?]
  cases hspec : Dict.look "spec" o.rest with
  | none =>
    rw [hspec] at h
    cases h
  | some j => rfl

theorem setSpec_congr (h : o'.rest = o.rest) (name : String) (value : Json) :
    (o'.setSpec name value).rest = (o.setSpec name value).rest := by
  rw [setSpec, setSpec, path?_congr h]
  split
  · rw [set, set, h]
  · exact h

end Object

namespace Cluster

variable {c c' : Cluster} {r : Resource} {k l : Key} {o o' : Object}

/-- What a new object is given when it is there: a claim is bound, a service gets an address. -/
def settled (c : Cluster) (r : Resource) (name : String) (o : Object) : Object :=
  match r with
  | .claim =>
    if c.binds && (o.path? ["spec", "resources"]).isSome then bound (boundName name) o else o
  | .service =>
    if c.assigns && o.hasSpec then o.setSpec "clusterIP" (.string (addressText (c.addresses + 1)))
    else o
  | _ => o

theorem metadata_settled (name : String) : (c.settled r name o).metadata = o.metadata := by
  rw [settled.eq_def]
  split
  · split
    · exact o.metadata_setSpec "volumeName" _
    · rfl
  · split
    · exact o.metadata_setSpec "clusterIP" _
    · rfl
  · rfl

theorem knownMetadata_settled (name : String) :
    (c.settled r name o).knownMetadata = o.knownMetadata := by
  rw [Object.knownMetadata, metadata_settled, Object.knownMetadata]

theorem settled_congr (h : o'.rest = o.rest) (name : String) :
    (c.settled r name o').rest = (c.settled r name o).rest := by
  rw [settled.eq_def, settled.eq_def]
  split
  · rw [Object.path?_congr h]
    split
    · rw [bound, bound, Object.set, Object.set, Object.setSpec_congr h]
    · exact h
  · rw [Object.hasSpec_congr h]
    split
    · exact Object.setSpec_congr h ..
    · exact h
  · exact h

theorem settled_made {hooks : Hooks} {target : Hook.Target} (h : Object.Made hooks target o o')
    (name : String) :
    Object.Made hooks target (c.settled r name o) (c.settled r name o') where
  rest := settled_congr h.rest name
  same := by
    rw [metadata_settled, knownMetadata_settled]
    exact h.same
  annotations := by
    rw [knownMetadata_settled, knownMetadata_settled]
    exact h.annotations
  finalizers := by
    rw [knownMetadata_settled, knownMetadata_settled]
    exact h.finalizers

theorem SameWays.settled_eq (h : c.SameWays c') (name : String) :
    c'.settled r name o = c.settled r name o := by
  rw [settled.eq_def, settled.eq_def, h.binds, h.assigns, h.addresses]

theorem get?_adjust (f : Object → Object) :
    (c.adjust k f).store.get? l = if k = l then (c.store.get? l).map f else c.store.get? l := by
  rw [adjust]
  split
  · next o ho =>
    rw [Store.get?_put]
    split
    · next hl => rw [← hl, ho, Option.map_some]
    · rfl
  · next hnone =>
    split
    · next hl => rw [← hl, hnone, Option.map_none]
    · rfl

theorem boundKey_ne (h : k.resource = .claim) : boundKey k ≠ k := by
  rintro hk
  rw [← hk] at h
  cases h

theorem get?_welcome_self (h : c.store.get? k = some o') (hrest : o'.rest = o.rest) :
    (c.welcome k o).store.get? k = some (c.settled k.resource (k.name.getD "None") o') := by
  obtain ⟨r, ns, name⟩ := k
  cases r with
  | claim =>
    simp only [welcome, bind, settled, Object.path?_congr hrest]
    split
    · have hput : (c.put .volume (boundVolume (boundName (name.getD "None"))
          (o.path? ["spec", "resources", "requests"]))).store.get? ⟨.claim, ns, name⟩ = some o' :=
        ((Store.get?_put ..).trans (if_neg (boundKey_ne rfl))).trans h
      rw [get?_adjust, if_pos rfl, hput, Option.map_some]
    · exact h
  | service =>
    simp only [welcome, assign, settled, Object.hasSpec_congr hrest]
    split
    · rw [get?_adjust, if_pos rfl, h, Option.map_some]
    · exact h
  | _ => exact h

/-- Apart from the new object itself, what is made for it depends on no metadata. -/
theorem get?_welcome_congr (hl : k ≠ l) (hbinds : c'.binds = c.binds) (hwrites : c'.writes = c.writes)
    (hget : c'.store.get? l = c.store.get? l) (hrest : o'.rest = o.rest) :
    (c'.welcome k o').store.get? l = (c.welcome k o).store.get? l := by
  rw [welcome, welcome]
  split
  · rw [bind, bind, hbinds, Object.path?_congr hrest, Object.path?_congr hrest]
    split
    · rw [get?_adjust, get?_adjust, if_neg hl, if_neg hl, put, put, Store.get?_put, Store.get?_put,
        hget, hwrites]
    · exact hget
  · have hadjust (d : Cluster) (p : Object) : (d.assign k p).store.get? l = d.store.get? l := by
      rw [assign]
      split
      · rw [get?_adjust, if_neg hl]
      · rfl
    rw [hadjust, hadjust, hget]
  · exact hget

theorem get?_welcome_of_ne (hl : k ≠ l) (hbound : k.resource = .claim → c.binds → boundKey k ≠ l) :
    (c.welcome k o).store.get? l = c.store.get? l := by
  rw [welcome]
  split
  · next hclaim =>
    rw [bind]
    split
    · next hbinds =>
      have hne := hbound hclaim (Bool.and_eq_true_iff.1 hbinds).1
      rw [get?_adjust, if_neg hl]
      exact (Store.get?_put ..).trans (if_neg hne)
    · rfl
  · rw [assign]
    split
    · rw [get?_adjust, if_neg hl]
    · rfl
  · rfl

variable {ns : Option String} {body body' : Object} {m : Metadata}

theorem create_of_absent (hm : body.metadata = some m) (h : c.contains (.of r ns m.name) = false) :
    (c.create r ns body).2 =
      (c.put r (homed r ns body)).welcome (.of r ns m.name) (homed r ns body) := by
  rw [create, hm]
  exact congrArg Prod.snd (if_neg (Bool.eq_false_iff.1 h))

theorem ok_of_absent (hm : body.metadata = some m) (h : c.contains (.of r ns m.name) = false) :
    ∃ created, (c.create r ns body).1 = .ok created := by
  rw [create, hm]
  exact ⟨_, congrArg Prod.fst (if_neg (Bool.eq_false_iff.1 h))⟩

theorem rest_homed : (homed r ns body).rest = body.rest := by
  rw [homed]
  split
  · rfl
  · rfl

theorem key_homed (hm : body.metadata = some m) :
    Key.ofMetadata r (homed r ns body).knownMetadata = .of r ns m.name := by
  rw [ofMetadata_homed, Object.knownMetadata, hm, Option.getD_some]

theorem get?_create_self (hm : body.metadata = some m)
    (h : c.contains (.of r ns m.name) = false) :
    (c.create r ns body).2.store.get? (.of r ns m.name) =
      some (c.settled r (m.name.getD "None") (stamped (c.writes + 1) (homed r ns body))) := by
  have hput : (c.put r (homed r ns body)).store.get? (.of r ns m.name) =
      some (stamped (c.writes + 1) (homed r ns body)) := by
    rw [put, key_homed hm, Store.get?_put, if_pos rfl]
  have hrest : (stamped (c.writes + 1) (homed r ns body)).rest = (homed r ns body).rest := rfl
  have hways : c.SameWays (c.put r (homed r ns body)) := ⟨rfl, rfl, rfl⟩
  rw [create_of_absent hm h, get?_welcome_self hput hrest, hways.settled_eq]
  rfl

theorem contains_create_bound (hm : body.metadata = some m)
    (h : c.contains (.of .claim ns m.name) = false) (hbinds : c.binds)
    (hresources : (body.path? ["spec", "resources"]).isSome) :
    (c.create .claim ns body).2.contains (boundKey (.of .claim ns m.name)) := by
  have hbind : (c.put .claim (homed .claim ns body)).binds &&
      ((homed .claim ns body).path? ["spec", "resources"]).isSome := by
    rw [Object.path?_congr rest_homed, hresources, Bool.and_true]
    exact hbinds
  rw [create_of_absent hm h]
  change (((c.put .claim (homed .claim ns body)).bind _ _).store.get? _).isSome
  rw [bind, if_pos hbind, get?_adjust, if_neg (boundKey_ne rfl).symm, put, Store.get?_put]
  exact congrArg Option.isSome (if_pos rfl)

theorem get?_put_homed (hm : body.metadata = some m) (hl : Key.of r ns m.name ≠ l) :
    (c.put r (homed r ns body)).store.get? l = c.store.get? l := by
  rw [put, key_homed hm, Store.get?_put, if_neg hl]

theorem get?_create_of_ne (hm : body.metadata = some m)
    (h : c.contains (.of r ns m.name) = false) (hl : Key.of r ns m.name ≠ l)
    (hbound : r = .claim → c.binds → boundKey (.of r ns m.name) ≠ l) :
    (c.create r ns body).2.store.get? l = c.store.get? l := by
  have hbound' : (Key.of r ns m.name).resource = .claim → (c.put r (homed r ns body)).binds →
      boundKey (.of r ns m.name) ≠ l := hbound
  rw [create_of_absent hm h, get?_welcome_of_ne hl hbound', get?_put_homed hm hl]

/-- Apart from the created object itself, what a creation leaves depends on no metadata. -/
theorem get?_create_congr {m' : Metadata} (hm : body.metadata = some m)
    (hm' : body'.metadata = some m') (hname : m'.name = m.name) (hrest : body'.rest = body.rest)
    (h : c.contains (.of r ns m.name) = false) (hl : Key.of r ns m.name ≠ l) :
    (c.create r ns body').2.store.get? l = (c.create r ns body).2.store.get? l := by
  have hl' : Key.of r ns m'.name ≠ l := hname ▸ hl
  have hput : (c.put r (homed r ns body')).store.get? l = (c.put r (homed r ns body)).store.get? l := by
    rw [get?_put_homed hm hl, get?_put_homed hm' hl']
  have hhomed : (homed r ns body').rest = (homed r ns body).rest := by
    rw [rest_homed, rest_homed, hrest]
  rw [create_of_absent hm h, create_of_absent hm' (hname ▸ h), hname]
  have hbinds : (c.put r (homed r ns body')).binds = (c.put r (homed r ns body)).binds := rfl
  have hwrites : (c.put r (homed r ns body')).writes = (c.put r (homed r ns body)).writes := rfl
  exact get?_welcome_congr hl hbinds hwrites hput hhomed

theorem sameWays_create (hr : r ≠ .service) (hm : body.metadata = some m)
    (h : c.contains (.of r ns m.name) = false) : c.SameWays (c.create r ns body).2 := by
  rw [create_of_absent hm h]
  have hadjust (d : Cluster) (k : Key) (f : Object → Object) : d.SameWays (d.adjust k f) := by
    rw [adjust]
    split
    · exact ⟨rfl, rfl, rfl⟩
    · exact ⟨rfl, rfl, rfl⟩
  cases r with
  | service => exact absurd rfl hr
  | claim =>
    simp only [welcome, Key.of, bind]
    split
    · obtain ⟨haddresses, hbinds, hassigns⟩ := hadjust ((c.put .claim (homed .claim ns body)).put
        .volume (boundVolume (boundName (m.name.getD "None"))
          ((homed .claim ns body).path? ["spec", "resources", "requests"])))
        ⟨.claim, ns, m.name⟩ (bound (boundName (m.name.getD "None")))
      exact ⟨haddresses, hbinds, hassigns⟩
    · exact ⟨rfl, rfl, rfl⟩
  | _ => exact ⟨rfl, rfl, rfl⟩

end Cluster

namespace Access

variable {w : Site} {r : Resource} {ns : Option String} {body : Object} {m : Metadata}

theorem leads_create (hm : body.metadata = some m)
    (h : w.cluster.contains (.of r ns m.name) = false) :
    (create r ns body).Leads
      (either (fun _ v => v = w.after (.create r ns body)) fun _ v => v = w) w := by
  apply Action.leads_ask
  intro x v hx
  rcases hx with ⟨rfl, rfl⟩ | ⟨e, he, rfl, rfl⟩
  · obtain ⟨created, hcreated⟩ := Cluster.ok_of_absent hm h
    rw [Cluster.respond, hcreated]
    exact Action.leads_pure (x := some created) rfl
  · apply Action.leads_ite
    · intro hconflict
      exact absurd hconflict (Bool.eq_false_iff.1 he.not_isConflict)
    · exact fun _ => Action.leads_fail rfl

theorem yields_create (hm : body.metadata = some m)
    (h : w.cluster.contains (.of r ns m.name) = false) :
    (create r ns body).Yields (fun _ _ => True) w := by
  apply Action.ends_ask
  intro x v hx
  obtain ⟨rfl, rfl⟩ := Site.eq_of_call hx
  obtain ⟨created, hcreated⟩ := Cluster.ok_of_absent hm h
  rw [Cluster.respond, hcreated]
  exact Action.yields_pure (x := some created) trivial

end Access

end VolumeExport
