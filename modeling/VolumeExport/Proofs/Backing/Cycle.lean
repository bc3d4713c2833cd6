import VolumeExport.Proofs.Backing.Ready
import VolumeExport.Proofs.Backing.Retreat

namespace VolumeExport

namespace Access

variable {w : Site} {r : Resource} {ns name : Option String}

theorem yields_modify_of_absent
    {change : Except Instant.Fault Instant → Object → Except Fault Object}
    (h : w.cluster.store.get? (.of r ns name) = none) :
    (modify r ns name change).Yields (fun m w' => m.object = none ∧ w' = w) w := by
  apply Action.yields_rounds
  intro x w' hx
  obtain ⟨rfl, rfl⟩ := Site.eq_of_call hx
  rw [Cluster.respond, Cluster.read, h]
  exact Action.yields_pure (x := (.inr ⟨none, 0⟩ : Nat ⊕ Modified)) ⟨_, rfl, rfl, rfl⟩

theorem yields_modify_hooked {hooks : Hooks} {target : Hook.Target} {event : Hook.Event}
    (hw : w.cluster.Sealed) (hkind : r.kind = target.kind) :
    (modify r ns name (Backing.hooked hooks target event r)).Yields
      (fun _ w' => w.Dresses hooks target event (.of r ns name) w') w := by
  apply Action.Yields.mono (Action.Yields.leads
    (yields_modify fun t o => Backing.hooked_ok hooks target event hkind t o)
    (leads_modify_hooked hw))
  exact fun _ _ hm => hm.2

theorem yields_delete_after :
    (delete r ns name).Yields (fun _ w' => w' = w.after (.delete r ns name)) w := by
  apply Action.ends_ask
  intro x w' hx
  obtain ⟨rfl, rfl⟩ := Site.eq_of_call hx
  rw [Cluster.respond]
  cases hthere : w.cluster.contains (.of r ns name) with
  | true =>
    rw [Cluster.delete_of_contains hthere]
    exact Action.yields_pure (x := true) rfl
  | false =>
    rw [Cluster.delete_of_absent hthere]
    exact Action.yields_pure (x := false) rfl

end Access

namespace Backing

variable {s : Setup} {volume : String} {plan : Plan} {w w' : Site}

/-- The backing of a volume was taken down and is gone. -/
structure Vacated (s : Setup) (volume : String) (w w' : Site) : Prop where
  tracker : w'.tracker = w.tracker
  leaving : Leaving s volume w w'
  gone : ∀ r : Resource, r.isNamespaced →
    w'.cluster.store.get? (key s.settings.serverNamespace r volume) = none

/-- When the claim is gone, the storage that it was bound to has been hooked. -/
theorem Vacated.hooked (h : Vacated s volume w w') : Hooked s .delete volume w w' := by
  rcases h.leaving.storage with hhooked | ⟨⟨o, ho⟩, -⟩
  · exact hhooked
  · rw [h.gone .claim rfl] at ho
    cases ho

theorem yields_vacated (hw : w.cluster.Sealed) :
    (delete s volume).Yields (fun _ w' => Vacated s volume w w') w := by
  apply Action.Ends.mono (Prog.Ends.leads yields_delete (leads_delete (.start hw)))
  intro r w' hr
  cases r with
  | ok => exact ⟨hr.1.touched.tracker, hr.2.1, hr.2.2⟩
  | error e => exact hr.1

theorem aside_key {ns u v : String} {r : Resource} (hr : r.isNamespaced) (huv : u ≠ v) :
    Aside w ns u (key ns r v) :=
  ⟨fun _ _ hk => huv (key_inj.1 hk).2.symm, fun _ _ => (volumeKey_ne hr).symm⟩

def Vacant (s : Setup) (volume : String) (w : Site) : Prop :=
  ∀ r : Resource, r.isNamespaced →
    w.cluster.store.get? (key s.settings.serverNamespace r volume) = none

theorem Vacant.of_cluster (h : Vacant s volume w) (hcluster : w'.cluster = w.cluster) :
    Vacant s volume w' := by
  intro r hr
  rw [hcluster]
  exact h r hr

theorem yields_remove_of_absent {target : Hook.Target} {r : Resource} (hr : r.isNamespaced)
    (h : w.cluster.store.get? (key s.settings.serverNamespace r volume) = none) :
    (remove s target r (Name.backing volume)).Yields (fun _ w' => w' = w) w := by
  rw [← of_backing hr] at h
  apply Action.ends_ite
  · intro _
    apply Action.Yields.bind (Access.yields_modify_of_absent h)
    rintro ⟨_, n⟩ _ ⟨rfl, rfl⟩
    exact Action.yields_pure rfl
  · intro _
    apply Action.Yields.bind Access.yields_get
    rintro found _ ⟨rfl, rfl⟩
    rw [h]
    exact Action.yields_pure rfl

/-- Where there is no backing, taking it down changes nothing. -/
theorem Vacant.yields_delete (h : Vacant s volume w) :
    (delete s volume).Yields (fun _ w' => w' = w) w := by
  apply Action.Yields.bind (yields_during (yields_remove_of_absent rfl (h .service rfl)))
  rintro _ _ rfl
  apply Action.Yields.bind (yields_during (yields_remove_of_absent rfl (h .server rfl)))
  rintro _ w' rfl
  refine Action.Yields.bind (M := fun _ w'' => w'' = w')
    (yields_during (Action.Yields.bind Access.yields_get ?_)) ?_
  · rintro found _ ⟨rfl, rfl⟩
    rw [of_backing rfl, h .claim rfl]
    exact Action.yields_pure rfl
  · rintro _ _ rfl
    exact yields_during (yields_remove_of_absent rfl (h .claim rfl))

theorem volumeKey_inj {u v : String} : volumeKey u = volumeKey v ↔ u = v := by
  simp [volumeKey, Key.of]

def storageName (volume : String) : String := Cluster.boundName (Name.backing volume)

/-- The backing of a volume was made where there was none. -/
structure Built (s : Setup) (volume : String) (w w' : Site) : Prop where
  isSealed : w'.cluster.Sealed
  storage : storage? w' s.settings.serverNamespace volume = some (storageName volume)
  there : w'.cluster.contains (volumeKey (storageName volume))
  others : ∀ k, (∀ r : Resource, r.isNamespaced → k ≠ key s.settings.serverNamespace r volume) →
    k ≠ volumeKey (storageName volume) → w'.cluster.store.get? k = w.cluster.store.get? k

theorem Built.of_cluster {v : Site} (h : Built s volume v w') (hcluster : v.cluster = w.cluster) :
    Built s volume w w' := by
  refine ⟨h.isSealed, h.storage, h.there, fun k hparts hk => ?_⟩
  rw [← hcluster]
  exact h.others k hparts hk

theorem bound?_settled {c : Cluster} (hbinds : c.binds) :
    bound? (c.settled .claim (Name.backing volume) (blueprint s volume plan .claim)) =
      some (storageName volume) := by
  have hne : storageName volume ≠ "" := by
    intro h
    have hlength := congrArg String.length h
    simp [storageName, Cluster.boundName] at hlength
  rw [blueprint, Cluster.settled_claim hbinds, bound?, Cluster.text?_bound_volumeName rfl,
    Option.filter_some]
  exact if_pos (decide_eq_true hne)

theorem Ensures.built {w₀ : Site} (h : Ensures s volume plan .claim w w₀) (hbinds : w.cluster.binds)
    (hvacant : Vacant s volume w) :
    storage? w₀ s.settings.serverNamespace volume = some (storageName volume) ∧
      w₀.cluster.contains (volumeKey (storageName volume)) ∧
      ∀ k, k ≠ key s.settings.serverNamespace .claim volume → k ≠ volumeKey (storageName volume) →
        w₀.cluster.store.get? k = w.cluster.store.get? k := by
  cases h with
  | found hthere =>
    have habsent := congrArg Option.isSome (hvacant .claim rfl)
    cases hthere.symm.trans habsent
  | @made now body habsent hbody =>
    obtain ⟨o, ho, hmade⟩ := made_of_create rfl habsent hbody
    obtain ⟨m, hm, -, hkey⟩ := metadata_of_hooked rfl hbody
    refine ⟨?_, ?_, fun k hk hstorage => ?_⟩
    · rw [storage?, ho, Option.bind_some, bound?_congr hmade.rest, bound?_settled hbinds]
    · have hresources : (body.path? ["spec", "resources"]).isSome := by
        rw [Object.path?_congr (hooked_eq hbody).1]
        exact Cluster.isSome_resources ..
      have hthere := Cluster.contains_create_bound hm (hkey ▸ habsent) hbinds hresources
      rwa [hkey] at hthere
    · apply Cluster.get?_create_of_ne hm (hkey ▸ habsent) (hkey ▸ hk.symm)
      rintro - - rfl
      rw [hkey] at hstorage
      exact hstorage rfl

theorem Vacant.ready (h : Vacant s volume w) (hbinds : w.cluster.binds)
    (hassigns : w.cluster.assigns) : Ready s volume w := by
  refine ⟨hbinds, hassigns, fun claim hclaim => ?_, fun service hservice => ?_⟩
  · cases (h .claim rfl).symm.trans hclaim
  · cases (h .service rfl).symm.trans hservice

theorem Vacant.yields_create (h : Vacant s volume w) (hw : w.cluster.Sealed)
    (hbinds : w.cluster.binds) (hassigns : w.cluster.assigns) :
    (create s volume plan).Yields (fun _ w' => Built s volume w w') w := by
  apply ((h.ready hbinds hassigns).able.yields hw).mono
  rintro a w' ⟨w₀, hcomplete⟩
  obtain ⟨hstorage, hthere, hothers⟩ := hcomplete.begun.built hbinds h
  have hgrown := hcomplete.grown
  have hkept := Object.isSome_of_dressed (hcomplete.hooked _ hstorage)
  refine ⟨hgrown.isSealed, hgrown.storage?_eq.trans hstorage, hkept.trans hthere,
    fun k hparts hk => ?_⟩
  have haside : Aside w₀ s.settings.serverNamespace volume k := by
    refine ⟨hparts, fun name hname => ?_⟩
    rw [hstorage] at hname
    cases hname
    exact hk
  exact (hgrown.others k haside).trans (hothers k (hparts .claim rfl) hk)

end Backing

end VolumeExport
