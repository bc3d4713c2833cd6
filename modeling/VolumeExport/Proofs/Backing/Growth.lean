import VolumeExport.Proofs.Creation

namespace VolumeExport.Backing

open Hook (Target)

def blueprint (s : Setup) (volume : String) (plan : Plan) : Resource → Object
  | .claim => Manifest.claim s.settings.serverNamespace volume plan
  | .server => Manifest.server s.settings volume plan.config
  | _ => Manifest.service s.settings.serverNamespace volume

def partTarget : Resource → Target
  | .claim => .backendClaim
  | .server => .server
  | _ => .service

theorem blueprint_metadata (s : Setup) (volume : String) (plan : Plan) (r : Resource) :
    ∃ m, (blueprint s volume plan r).metadata = some m ∧ m.name = some (Name.backing volume) ∧
      m.namespaceName = some s.settings.serverNamespace := by
  cases r with
  | claim => exact ⟨_, rfl, rfl, rfl⟩
  | server => exact ⟨_, rfl, rfl, rfl⟩
  | _ => exact ⟨_, rfl, rfl, rfl⟩

variable {s : Setup} {volume : String} {plan : Plan} {r : Resource} {w v v' : Site} {body : Object}
  {now : Except Instant.Fault Instant}

theorem made_of_hooked (hr : r.isNamespaced)
    (h : hooked s.hooks (partTarget r) .create r now (blueprint s volume plan r) = .ok body)
    (write : Nat) :
    Object.Made s.hooks (partTarget r) (blueprint s volume plan r)
      (Cluster.stamped write (Cluster.homed r (some s.settings.serverNamespace) body)) := by
  obtain ⟨hrest, -, t, hbody⟩ := hooked_eq h
  obtain ⟨m, hm, -, hns⟩ := blueprint_metadata s volume plan r
  obtain ⟨a, f, heq⟩ := s.hooks.performAll_eq (partTarget r) .create t m
  have hknown : (blueprint s volume plan r).knownMetadata = m := by
    rw [Object.knownMetadata, hm, Option.getD_some]
  have hhomed : (Cluster.homed r (some s.settings.serverNamespace) body).knownMetadata =
      s.hooks.performAll (partTarget r) .create t m := by
    have hhome : (Cluster.homed r (some s.settings.serverNamespace) body).knownMetadata =
        { body.knownMetadata with namespaceName := some s.settings.serverNamespace } := by
      rw [Cluster.homed, if_pos hr]
      rfl
    rw [hhome, hbody, hknown, heq, ← hns]
  refine ⟨⟨Cluster.rest_homed.trans hrest, ?_, t, ?_⟩, ?_⟩
  · rw [Cluster.stamped, Object.modifyMetadata, hhomed, heq, hknown]
    exact ⟨_, _, a, f, rfl⟩
  · rw [hknown, ← hhomed]
    rfl
  · rw [hknown]
    exact (congrArg Metadata.finalizers hhomed).trans (Hooks.finalizers_performAll rfl)

/-- A part is as it was, or it was missing and has been made. -/
def Part (s : Setup) (volume : String) (plan : Plan) (r : Resource) (w v : Site) : Prop :=
  v.cluster.store.get? (key s.settings.serverNamespace r volume) =
      w.cluster.store.get? (key s.settings.serverNamespace r volume) ∨
    w.cluster.store.get? (key s.settings.serverNamespace r volume) = none ∧
      ∃ o, v.cluster.store.get? (key s.settings.serverNamespace r volume) = some o ∧
        Object.Made s.hooks (partTarget r)
          (w.cluster.settled r (Name.backing volume) (blueprint s volume plan r)) o

/-- The parts of two backings are there and are the same, but for identities, versions and times. -/
def Twins (s : Setup) (volume : String) (r : Resource) (v v' : Site) : Prop :=
  ∃ o o', v.cluster.store.get? (key s.settings.serverNamespace r volume) = some o ∧
    v'.cluster.store.get? (key s.settings.serverNamespace r volume) = some o' ∧
    o.Akin (s.hooks.Timed (partTarget r) .create) (fun m m' => m'.finalizers = m.finalizers) o'

theorem Part.twins (h : Part s volume plan r w v) (h' : Part s volume plan r w v')
    (hv : v.cluster.Sealed)
    (hthere : v.cluster.contains (key s.settings.serverNamespace r volume))
    (hthere' : v'.cluster.contains (key s.settings.serverNamespace r volume)) :
    Twins s volume r v v' := by
  obtain ⟨o, ho⟩ := Option.isSome_iff_exists.1 hthere
  obtain ⟨o', ho'⟩ := Option.isSome_iff_exists.1 hthere'
  refine ⟨o, o', ho, ho', ?_⟩
  rcases h with hsame | ⟨hnone, p, hp, hmade⟩
  · rcases h' with hsame' | ⟨hnone', -⟩
    · obtain rfl : o' = o :=
        Option.some.inj (ho'.symm.trans (hsame'.trans (hsame.symm.trans ho)))
      obtain ⟨_, -, hstamped⟩ := hv _ o' ho
      exact .refl hstamped.uid fun _ => rfl
    · cases ho.symm.trans (hsame.trans hnone')
  · rcases h' with hsame' | ⟨-, p', hp', hmade'⟩
    · cases ho'.symm.trans (hsame'.trans hnone)
    · obtain rfl : o = p := Option.some.inj (ho.symm.trans hp)
      obtain rfl : o' = p' := Option.some.inj (ho'.symm.trans hp')
      exact hmade.akin hmade'

/-- A part is found, or it is made. -/
inductive Ensures (s : Setup) (volume : String) (plan : Plan) (r : Resource) (w : Site) :
    Site → Prop
  | found : w.cluster.contains (key s.settings.serverNamespace r volume) →
      Ensures s volume plan r w w
  | made {now : Except Instant.Fault Instant} {body : Object} :
      w.cluster.contains (key s.settings.serverNamespace r volume) = false →
      hooked s.hooks (partTarget r) .create r now (blueprint s volume plan r) = .ok body →
      Ensures s volume plan r w (w.after (.create r (some s.settings.serverNamespace) body))

theorem metadata_of_hooked (hr : r.isNamespaced)
    (h : hooked s.hooks (partTarget r) .create r now (blueprint s volume plan r) = .ok body) :
    ∃ m, body.metadata = some m ∧ m.name = some (Name.backing volume) ∧
      Key.of r (some s.settings.serverNamespace) m.name =
        key s.settings.serverNamespace r volume := by
  obtain ⟨-, hsome, -⟩ := hooked_eq h
  obtain ⟨m, hm, hname, -⟩ := blueprint_metadata s volume plan r
  obtain ⟨m', hm'⟩ := Option.isSome_iff_exists.1 (hsome (congrArg Option.isSome hm))
  have hname' : m'.name = some (Name.backing volume) := by
    have heq := (hooked_remarks h).name_eq
    rw [Object.knownMetadata, Object.knownMetadata, hm, hm'] at heq
    exact heq.trans hname
  exact ⟨m', hm', hname', by rw [hname', of_backing hr]⟩

theorem made_of_create (hr : r.isNamespaced)
    (habsent : w.cluster.contains (key s.settings.serverNamespace r volume) = false)
    (h : hooked s.hooks (partTarget r) .create r now (blueprint s volume plan r) = .ok body) :
    ∃ o, (w.after (.create r (some s.settings.serverNamespace) body)).cluster.store.get?
        (key s.settings.serverNamespace r volume) = some o ∧
      Object.Made s.hooks (partTarget r)
        (w.cluster.settled r (Name.backing volume) (blueprint s volume plan r)) o := by
  obtain ⟨m, hm, hname, hkey⟩ := metadata_of_hooked hr h
  have hself := Cluster.get?_create_self hm (hkey ▸ habsent)
  rw [hkey, hname] at hself
  exact ⟨_, hself, Cluster.settled_made (made_of_hooked hr h (w.cluster.writes + 1)) _⟩

namespace Ensures

theorem isSealed (h : Ensures s volume plan r w v) (hw : w.cluster.Sealed) : v.cluster.Sealed := by
  cases h with
  | found => exact hw
  | made => exact hw.renews (w.cluster.renews_respond _)

theorem part (hr : r.isNamespaced) (h : Ensures s volume plan r w v) :
    Part s volume plan r w v := by
  cases h with
  | found => exact .inl rfl
  | made habsent hbody =>
    exact .inr ⟨Cluster.get?_of_absent habsent, made_of_create hr habsent hbody⟩

theorem there (hr : r.isNamespaced) (h : Ensures s volume plan r w v) :
    v.cluster.contains (key s.settings.serverNamespace r volume) := by
  cases h with
  | found hthere => exact hthere
  | made habsent hbody =>
    obtain ⟨o, ho, -⟩ := made_of_create hr habsent hbody
    exact congrArg Option.isSome ho

theorem others (hr : r.isNamespaced) (h : Ensures s volume plan r w v) {k : Key}
    (hk : key s.settings.serverNamespace r volume ≠ k)
    (hvolume : r = .claim → k.resource ≠ .volume) :
    v.cluster.store.get? k = w.cluster.store.get? k := by
  cases h with
  | found => rfl
  | made habsent hbody =>
    obtain ⟨m, hm, -, hkey⟩ := metadata_of_hooked hr hbody
    apply Cluster.get?_create_of_ne hm (hkey ▸ habsent) (hkey ▸ hk)
    rintro hclaim - rfl
    exact hvolume hclaim rfl

theorem keeps_there (hr : r.isNamespaced) (h : Ensures s volume plan r w v) {t : Resource}
    (ht : t.isNamespaced)
    (hthere : w.cluster.contains (key s.settings.serverNamespace t volume)) :
    v.cluster.contains (key s.settings.serverNamespace t volume) := by
  by_cases hrt : r = t
  · subst hrt
    exact h.there hr
  · have hother : v.cluster.store.get? (key s.settings.serverNamespace t volume) =
        w.cluster.store.get? (key s.settings.serverNamespace t volume) :=
      h.others hr (key_ne hrt) fun _ => key_not_volume ht
    exact (congrArg Option.isSome hother).trans hthere

theorem volume_eq (hr : r.isNamespaced) (hclaim : r ≠ .claim) (h : Ensures s volume plan r w v)
    (name : String) :
    v.cluster.store.get? (volumeKey name) = w.cluster.store.get? (volumeKey name) :=
  h.others hr (volumeKey_ne hr).symm fun hc => absurd hc hclaim

theorem hooked (hr : r.isNamespaced) (hclaim : r ≠ .claim) (h : Ensures s volume plan r v v')
    (hhooked : Hooked s .create volume w v) : Hooked s .create volume w v' := by
  intro name hname
  rw [h.volume_eq hr hclaim]
  exact hhooked name hname

/-- Wherever a part is made from the same site, all else comes out the same. -/
theorem others_eq (hr : r.isNamespaced) (h : Ensures s volume plan r w v)
    (h' : Ensures s volume plan r w v') {k : Key}
    (hk : key s.settings.serverNamespace r volume ≠ k) :
    v'.cluster.store.get? k = v.cluster.store.get? k := by
  cases h with
  | found hthere =>
    cases h' with
    | found => rfl
    | made habsent => cases hthere.symm.trans habsent
  | made habsent hbody =>
    cases h' with
    | found hthere => cases hthere.symm.trans habsent
    | made _ hbody' =>
      obtain ⟨m, hm, hname, hkey⟩ := metadata_of_hooked hr hbody
      obtain ⟨m', hm', hname', -⟩ := metadata_of_hooked hr hbody'
      have hrest := (hooked_remarks hbody').1.trans (hooked_remarks hbody).1.symm
      exact Cluster.get?_create_congr hm hm' (hname'.trans hname.symm) hrest (hkey ▸ habsent)
        (hkey ▸ hk)

theorem ways (hr : r.isNamespaced) (hservice : r ≠ .service) (h : Ensures s volume plan r w v) :
    w.cluster.SameWays v.cluster := by
  cases h with
  | found => exact ⟨rfl, rfl, rfl⟩
  | made habsent hbody =>
    obtain ⟨m, hm, -, hkey⟩ := metadata_of_hooked hr hbody
    exact Cluster.sameWays_create hservice hm (hkey ▸ habsent)

theorem twins (hr : r.isNamespaced) (hw : w.cluster.Sealed) (h : Ensures s volume plan r w v)
    (h' : Ensures s volume plan r w v') : Twins s volume r v v' :=
  (h.part hr).twins (h'.part hr) (h.isSealed hw) (h.there hr) (h'.there hr)

end Ensures

/-- A site whose backing of a volume has grown since its claim was there. -/
structure Grown (s : Setup) (volume : String) (plan : Plan) (w v : Site) : Prop where
  isSealed : v.cluster.Sealed
  claim : v.cluster.store.get? (key s.settings.serverNamespace .claim volume) =
    w.cluster.store.get? (key s.settings.serverNamespace .claim volume)
  parts : ∀ r : Resource, r.isNamespaced → Part s volume plan r w v
  /-- No address is given out but to the service. -/
  ways : v.cluster.store.get? (key s.settings.serverNamespace .service volume) =
      w.cluster.store.get? (key s.settings.serverNamespace .service volume) →
    w.cluster.SameWays v.cluster
  storage : Hooked s .create volume w v ∨ Unhooked s volume w v
  others : ∀ k, Aside w s.settings.serverNamespace volume k →
    v.cluster.store.get? k = w.cluster.store.get? k

namespace Grown

theorem start (hw : w.cluster.Sealed) : Grown s volume plan w w where
  isSealed := hw
  claim := rfl
  parts _ _ := .inl rfl
  ways _ := ⟨rfl, rfl, rfl⟩
  storage := .inr fun _ _ => rfl
  others _ _ := rfl

theorem settled_eq (h : Grown s volume plan w v) (hr : r.isNamespaced) (hclaim : r ≠ .claim)
    (hsame : v.cluster.store.get? (key s.settings.serverNamespace r volume) =
      w.cluster.store.get? (key s.settings.serverNamespace r volume)) (o : Object) :
    v.cluster.settled r (Name.backing volume) o = w.cluster.settled r (Name.backing volume) o := by
  cases r with
  | claim => exact absurd rfl hclaim
  | server => rfl
  | service => exact (h.ways hsame).settled_eq _
  | _ => cases hr

theorem part_ensured (h : Grown s volume plan w v) (hr : r.isNamespaced) (hclaim : r ≠ .claim)
    (he : Ensures s volume plan r v v') : Part s volume plan r w v' := by
  cases he with
  | found => exact h.parts r hr
  | made habsent hbody =>
    have hnone := Cluster.get?_of_absent habsent
    obtain ⟨o, ho, hmade⟩ := made_of_create hr habsent hbody
    rcases h.parts r hr with hsame | ⟨-, p, hp, -⟩
    · rw [h.settled_eq hr hclaim hsame] at hmade
      exact .inr ⟨hsame.symm.trans hnone, o, ho, hmade⟩
    · cases hp.symm.trans hnone

theorem ways_ensured (h : Grown s volume plan w v) (he : Ensures s volume plan .service v v')
    (hsame : v'.cluster.store.get? (key s.settings.serverNamespace .service volume) =
      w.cluster.store.get? (key s.settings.serverNamespace .service volume)) :
    w.cluster.SameWays v'.cluster := by
  cases he with
  | found => exact h.ways hsame
  | made habsent hbody =>
    have hnone := Cluster.get?_of_absent habsent
    obtain ⟨o, ho, -⟩ := made_of_create rfl habsent hbody
    rcases h.parts .service rfl with hsame' | ⟨-, p, hp, -⟩
    · cases ho.symm.trans (hsame.trans (hsame'.symm.trans hnone))
    · cases hp.symm.trans hnone

theorem part (h : Grown s volume plan w v) (hr : r.isNamespaced) (hclaim : r ≠ .claim)
    (he : Ensures s volume plan r v v') : Grown s volume plan w v' := by
  have hother {t : Resource} (ht : t ≠ r) :
      v'.cluster.store.get? (key s.settings.serverNamespace t volume) =
        v.cluster.store.get? (key s.settings.serverNamespace t volume) :=
    he.others hr (key_ne (Ne.symm ht)) fun hc => absurd hc hclaim
  refine ⟨he.isSealed h.isSealed, (hother (Ne.symm hclaim)).trans h.claim, fun t ht => ?_,
    fun hsame => ?_, ?_, fun k hk => ?_⟩
  · by_cases htr : t = r
    · rw [htr]
      exact h.part_ensured hr hclaim he
    · rw [Part, hother htr]
      exact h.parts t ht
  · by_cases hservice : r = .service
    · subst hservice
      exact h.ways_ensured he hsame
    · exact (h.ways ((hother (Ne.symm hservice)).symm.trans hsame)).trans (he.ways hr hservice)
  · refine h.storage.imp (he.hooked hr hclaim) fun hsame name hname => ?_
    rw [he.volume_eq hr hclaim]
    exact hsame name hname
  · exact (he.others hr (hk.1 r hr).symm fun hc => absurd hc hclaim).trans (h.others k hk)

theorem hook_storage (h : Grown s volume plan w v) {name : String}
    (hname : storage? w s.settings.serverNamespace volume = some name)
    (hdresses : v.Dresses s.hooks .backendVolume .create (volumeKey name) v') :
    Grown s volume plan w v' ∧ Hooked s .create volume w v' := by
  have hhooked := hooked_of_dresses h.storage hname hdresses
  have hpart {r : Resource} (hr : r.isNamespaced) :
      v'.cluster.store.get? (key s.settings.serverNamespace r volume) =
        v.cluster.store.get? (key s.settings.serverNamespace r volume) :=
    hdresses.only.others _ (volumeKey_ne hr).symm
  refine ⟨⟨h.isSealed.renews hdresses.only.renews, (hpart rfl).trans h.claim, fun r hr => ?_,
    fun hsame => ?_, .inl hhooked, fun k hk => ?_⟩, hhooked⟩
  · rw [Part, hpart hr]
    exact h.parts r hr
  · exact (h.ways ((hpart rfl).symm.trans hsame)).trans hdresses.only.ways
  · exact (hdresses.only.others k (hk.2 name hname)).trans (h.others k hk)

theorem storage?_eq (h : Grown s volume plan w v) :
    storage? v s.settings.serverNamespace volume = storage? w s.settings.serverNamespace volume := by
  rw [storage?, storage?, h.claim]

theorem hook (h : Grown s volume plan w v) {claim : Object}
    (hclaim : v.cluster.store.get? (key s.settings.serverNamespace .claim volume) = some claim)
    (hafter : (bound? claim = none ∧ v' = v) ∨ ∃ name, bound? claim = some name ∧
      v.Dresses s.hooks .backendVolume .create (volumeKey name) v') :
    Grown s volume plan w v' ∧ Hooked s .create volume w v' := by
  have hstorage : storage? w s.settings.serverNamespace volume = bound? claim := by
    rw [← h.storage?_eq, storage?, hclaim]
    rfl
  rcases hafter with ⟨hnone, rfl⟩ | ⟨name, hname, hdresses⟩
  · refine ⟨h, fun name hname => ?_⟩
    rw [hstorage, hnone] at hname
    cases hname
  · exact h.hook_storage (hstorage.trans hname) hdresses

/-- A server and a service are made as they would have been before the claim was there. -/
theorem part_since (h : Grown s volume plan v v') (hclaim : Ensures s volume plan .claim w v)
    (hr : r.isNamespaced) : Part s volume plan r w v' := by
  by_cases hrc : r = .claim
  · subst hrc
    rw [Part, h.claim]
    exact hclaim.part rfl
  · have hsame : v.cluster.store.get? (key s.settings.serverNamespace r volume) =
        w.cluster.store.get? (key s.settings.serverNamespace r volume) :=
      hclaim.others rfl (key_ne (Ne.symm hrc)) fun _ => key_not_volume hr
    have hways := hclaim.ways rfl (by decide)
    have hpart := h.parts r hr
    rw [Part, hsame, hways.settled_eq] at hpart
    exact hpart

end Grown

def exported? (s : Setup) (volume : String) (w : Site) : Option String :=
  if s.settings.useClusterIP then
    (w.cluster.store.get? (key s.settings.serverNamespace .service volume)).bind fun service =>
      (service.text? ["spec", "clusterIP"]).filter (· ≠ "")
  else some (serviceAddress s.settings.serverNamespace (Name.backing volume))

theorem Twins.exported?_eq (h : Twins s volume .service v v') :
    exported? s volume v' = exported? s volume v := by
  obtain ⟨o, o', ho, ho', hakin⟩ := h
  rw [exported?, exported?, ho, ho', Option.bind_some, Option.bind_some, Object.text?, Object.text?,
    Object.path?_congr hakin.rest]

theorem Twins.storage?_eq (h : Twins s volume .claim v v') :
    storage? v' s.settings.serverNamespace volume =
      storage? v s.settings.serverNamespace volume := by
  obtain ⟨o, o', ho, ho', hakin⟩ := h
  rw [storage?, storage?, ho, ho']
  exact bound?_congr hakin.rest

/-- A backing of a volume that is complete, from a site where its claim was found or made. -/
structure Complete (s : Setup) (volume : String) (plan : Plan) (w w₀ v : Site) (address : String) :
    Prop where
  begun : Ensures s volume plan .claim w w₀
  grown : Grown s volume plan w₀ v
  hooked : Hooked s .create volume w₀ v
  there : ∀ r : Resource, r.isNamespaced →
    v.cluster.contains (key s.settings.serverNamespace r volume)
  exported : exported? s volume v = some address
  bound : ∃ claim, isBound claim ∧
    v.cluster.store.get? (key s.settings.serverNamespace .claim volume) = some claim

/-- Sites that differ at most in a backing, and there at most in identities, versions, times, and
the order of the storage's finalizers. -/
structure Same (s : Setup) (volume : String) (v v' : Site) : Prop where
  parts : ∀ r : Resource, r.isNamespaced → Twins s volume r v v'
  storage : ∀ name, storage? v s.settings.serverNamespace volume = some name →
    Option.Rel (Object.Akin (s.hooks.Timed .backendVolume .create) Metadata.SameFinalizers)
      (v.cluster.store.get? (volumeKey name)) (v'.cluster.store.get? (volumeKey name))
  others : ∀ k, Aside v s.settings.serverNamespace volume k →
    v'.cluster.store.get? k = v.cluster.store.get? k

section

variable {w₀ w₀' : Site} {a a' : String}

/-- The last steps of making a backing: the claim is bound, its storage is hooked, and a service is
ensured. -/
theorem Grown.complete {v₁ v₂ : Site} {claim : Object} (h : Grown s volume plan w₀ v)
    (hbegun : Ensures s volume plan .claim w w₀)
    (hserver : v.cluster.contains (key s.settings.serverNamespace .server volume))
    (hbound : isBound claim)
    (hclaim : v.cluster.store.get? (key s.settings.serverNamespace .claim volume) = some claim)
    (hstorage : (bound? claim = none ∧ v₁ = v) ∨ ∃ name, bound? claim = some name ∧
      v.Dresses s.hooks .backendVolume .create (volumeKey name) v₁)
    (hservice : Ensures s volume plan .service v₁ v₂) (hexported : exported? s volume v₂ = some a) :
    Complete s volume plan w w₀ v₂ a := by
  obtain ⟨h₁, hhooked⟩ := h.hook hclaim hstorage
  have h₂ := h₁.part rfl (by decide) hservice
  have hserver₁ : v₁.cluster.contains (key s.settings.serverNamespace .server volume) := by
    rcases hstorage with ⟨-, rfl⟩ | ⟨name, -, hdresses⟩
    · exact hserver
    · exact (congrArg Option.isSome (hdresses.only.others _ (volumeKey_ne rfl).symm)).trans hserver
  refine ⟨hbegun, h₂, hservice.hooked rfl (by decide) hhooked, fun r hr => ?_, hexported, claim,
    hbound, h₂.claim.trans (h.claim.symm.trans hclaim)⟩
  cases r with
  | claim => exact (congrArg Option.isSome h₂.claim).trans (hbegun.there rfl)
  | server => exact hservice.keeps_there rfl rfl hserver₁
  | service => exact hservice.there rfl
  | _ => cases hr

theorem Complete.twins (h : Complete s volume plan w w₀ v a)
    (h' : Complete s volume plan w w₀' v' a') (hr : r.isNamespaced) : Twins s volume r v v' :=
  (h.grown.part_since h.begun hr).twins (h'.grown.part_since h'.begun hr) h.grown.isSealed
    (h.there r hr) (h'.there r hr)

theorem Complete.claim_of_begun (h : Complete s volume plan w w₀ v a) (hw : w.cluster.Sealed)
    (hbegun : Ensures s volume plan .claim w w₀') :
    ∃ claim, isBound claim ∧
      w₀'.cluster.store.get? (key s.settings.serverNamespace .claim volume) = some claim := by
  obtain ⟨claim, hbound, hclaim⟩ := h.bound
  obtain ⟨o, o', ho, ho', hakin⟩ := h.begun.twins rfl hw hbegun
  obtain rfl : claim = o := Option.some.inj (hclaim.symm.trans (h.grown.claim.trans ho))
  refine ⟨o', ?_, ho'⟩
  rw [isBound, Object.text?, Object.path?_congr hakin.rest]
  exact hbound

/-- Wherever else a backing grows, its service tells the same address. -/
theorem Complete.exported_of_grown (h : Complete s volume plan w w₀ v a)
    (hbegun : Ensures s volume plan .claim w w₀') (hgrown : Grown s volume plan w₀' v')
    (hservice : v'.cluster.contains (key s.settings.serverNamespace .service volume)) :
    exported? s volume v' = some a := by
  have htwins := (h.grown.part_since h.begun rfl).twins (hgrown.part_since hbegun rfl)
    h.grown.isSealed (h.there .service rfl) hservice
  exact htwins.exported?_eq.trans h.exported

/-- Backings that are complete, from the same site, are the same. -/
theorem Complete.same (h : Complete s volume plan w w₀ v a)
    (h' : Complete s volume plan w w₀' v' a') : a' = a ∧ Same s volume v v' := by
  have haddress : some a' = some a := by
    rw [← h.exported, ← h'.exported]
    exact (h.twins h' rfl).exported?_eq
  have hstorage := h.grown.storage?_eq
  have hstorage' : storage? v s.settings.serverNamespace volume =
      storage? w₀' s.settings.serverNamespace volume :=
    (h.twins h' rfl).storage?_eq.symm.trans h'.grown.storage?_eq
  have hbegun {k : Key} (hk : key s.settings.serverNamespace .claim volume ≠ k) :
      w₀'.cluster.store.get? k = w₀.cluster.store.get? k :=
    h.begun.others_eq rfl h'.begun hk
  refine ⟨Option.some.inj haddress, fun r hr => h.twins h' hr, fun name hname => ?_,
    fun k hk => ?_⟩
  · have hdressed := h.hooked name (hstorage.symm.trans hname)
    have hdressed' := h'.hooked name (hstorage'.symm.trans hname)
    rw [hbegun (volumeKey_ne rfl).symm] at hdressed'
    exact Object.akin_of_dressed hdressed hdressed'
  · have haside : Aside w₀ s.settings.serverNamespace volume k :=
      ⟨hk.1, fun name hname => hk.2 name (hstorage.trans hname)⟩
    have haside' : Aside w₀' s.settings.serverNamespace volume k :=
      ⟨hk.1, fun name hname => hk.2 name (hstorage'.trans hname)⟩
    calc
      v'.cluster.store.get? k = w₀'.cluster.store.get? k := h'.grown.others k haside'
      _ = w₀.cluster.store.get? k := hbegun (hk.1 .claim rfl).symm
      _ = v.cluster.store.get? k := (h.grown.others k haside).symm

end

end VolumeExport.Backing
