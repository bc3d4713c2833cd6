import VolumeExport.Proofs.Backing.Removal
import VolumeExport.Proofs.Collector
import VolumeExport.Proofs.Lineage

namespace VolumeExport

theorem Manifest.get?_claimLabels {v : String} {owner : Owner} {key : String}
    {value : Option String} (h : (key, value) ∈ [
      (Name.casTypeLabel, some Name.casTypeKernel), (Name.volumeLabel, some v),
      (Name.ownerNameLabel, owner.name), (Name.ownerNamespaceLabel, owner.namespaceName),
      (Name.ownerUidLabel, owner.uid)]) : (claimLabels v owner).get? key = some value :=
  Dict.get?_ofList (by simp only [List.map]; decide) h

namespace Collector

open Backing (key Cleared)
open Lineage (Owned Upheld inTurn)

theorem owner?_of_labels {claim : Object} {v : String} {owner : Owner}
    (h : claim.knownMetadata.labels = some (Manifest.claimLabels v owner)) :
    owner? claim = some owner := by
  have hname : (Manifest.claimLabels v owner).get? Name.ownerNameLabel = some owner.name :=
    Manifest.get?_claimLabels (by simp)
  have hnamespace : (Manifest.claimLabels v owner).get? Name.ownerNamespaceLabel =
      some owner.namespaceName := Manifest.get?_claimLabels (by simp)
  have huid : (Manifest.claimLabels v owner).get? Name.ownerUidLabel = some owner.uid :=
    Manifest.get?_claimLabels (by simp)
  simp [owner?, h, hname, hnamespace, huid]

theorem selects_claimLabels (v : String) (owner : Owner) :
    Selector.selects selector (Manifest.claimLabels v owner) := by
  have hterms : Selector.terms selector =
      [.equals Name.casTypeLabel.toList Name.casTypeKernel.toList] := rfl
  have hget : (Manifest.claimLabels v owner).get? Name.casTypeLabel =
      some (some Name.casTypeKernel) := Manifest.get?_claimLabels List.mem_cons_self
  simp [Selector.selects, hterms, Selector.Term.holds, hget]

/-- The owner of a backing claim is there, and no later claim of its name. -/
def Alive (c : Cluster) (owner : Owner) : Prop :=
  ∃ m, c.metadata? (.of .claim owner.namespaceName owner.name) = some m ∧ m.uid = owner.uid

/-- A backing is needed: its volume is tracked, its owner is there or its volume is. -/
def Needed (w : Site) (v : String) (owner : Owner) : Prop :=
  w.tracker.contains v ∨ Alive w.cluster owner ∨ w.cluster.contains (.of .volume none v)

/-- The backing of a volume is needed by the owner that its claim was made for. -/
def Settled (s : Setup) (history : List (Happening Operation)) (w : Site) (v : String) : Prop :=
  ∃ owner, Owned s v owner w.cluster history ∧ Needed w v owner

/-- A claim tells the owner of the backing claim that is stored under its name, if there is one. -/
def Current (s : Setup) (history : List (Happening Operation)) (w : Site) (claim : Object) : Prop :=
  ∀ v, claim.knownMetadata.name = some (Name.backing v) → v ≠ "" ∧ ∃ owner,
    claim.knownMetadata.labels = some (Manifest.claimLabels v owner) ∧
      (w.cluster.contains (key s.settings.serverNamespace .claim v) →
        Owned s v owner w.cluster history)

variable {s : Setup} {history : List (Happening Operation)} {w w' : Site} {v : String}
  {claim : Object}

theorem alive_of_isOwner {owner : Owner}
    (h : isOwner owner (w.cluster.store.get? (.of .claim owner.namespaceName owner.name))) :
    Alive w.cluster owner := by
  obtain ⟨o, ho, huid⟩ := (Option.any_eq_true _ _).1 h
  exact ⟨o.knownMetadata, congrArg (Option.map Object.knownMetadata) ho, of_decide_eq_true huid⟩

theorem yields_staleVolume? {owner : Owner}
    (hname : claim.knownMetadata.name = some (Name.backing v)) (hv : v ≠ "")
    (hlabels : claim.knownMetadata.labels = some (Manifest.claimLabels v owner)) :
    (staleVolume? claim).Yields
      (fun found w' => w' = w ∧ (found = none ∧ Needed w v owner ∨ found = some v)) w := by
  rw [staleVolume?, hname]
  dsimp only
  rw [Name.volumeOf?_eq_some.2 rfl, Option.filter_some, if_pos (decide_eq_true hv)]
  apply Action.ends_ask
  intro (tracked : Bool) w' hw
  obtain ⟨htracked, rfl⟩ : tracked = w.tracker.contains v ∧ w' = w := hw.1
  apply Action.ends_ite
  · intro h
    exact Action.yields_pure ⟨rfl, .inl ⟨rfl, .inl (htracked.symm.trans h)⟩⟩
  intro _
  rw [owner?_of_labels hlabels]
  apply Action.Yields.bind Access.yields_get
  intro found w' hafter
  obtain ⟨hfound, rfl⟩ := hafter
  apply Action.ends_ite
  · intro howner
    exact Action.yields_pure ⟨rfl, .inl ⟨rfl, .inr (.inl (alive_of_isOwner (hfound ▸ howner)))⟩⟩
  · intro _
    apply Action.Yields.bind Access.yields_get
    intro volume w' hafter
    obtain ⟨hvolume, rfl⟩ := hafter
    cases volume with
    | none => exact Action.yields_pure ⟨rfl, .inr rfl⟩
    | some o =>
      exact Action.yields_pure ⟨rfl, .inl ⟨rfl, .inr (.inr (congrArg Option.isSome hvolume.symm))⟩⟩

theorem ends_staleVolume? (hname : ∀ v, claim.knownMetadata.name = some (Name.backing v) → v = "") :
    (staleVolume? claim).Ends (fun r w' => w' = w ∧ ∀ v, r ≠ .ok (some v)) w := by
  rw [staleVolume?]
  cases hn : claim.knownMetadata.name with
  | none => exact Action.ends_fail ⟨rfl, fun _ h => by cases h⟩
  | some name =>
    dsimp only
    cases hvolume : (Name.volumeOf? name).filter (· ≠ "") with
    | none => exact Action.ends_pure ⟨rfl, fun _ h => by cases h⟩
    | some volume =>
      obtain ⟨hvolume, hne⟩ := Option.filter_eq_some_iff.1 hvolume
      rw [Name.volumeOf?_eq_some.1 hvolume] at hn
      exact absurd (hname volume hn) (of_decide_eq_true hne)

/-- What is left when a listed claim was collected: either the backing is needed and nothing has
changed, or the backing is gone. -/
def Collected (s : Setup) (claim : Object) (w w' : Site) : Prop :=
  (w' = w ∧ ∀ v, claim.knownMetadata.name = some (Name.backing v) →
    ∃ owner, claim.knownMetadata.labels = some (Manifest.claimLabels v owner) ∧ Needed w v owner) ∨
  ∃ v, claim.knownMetadata.name = some (Name.backing v) ∧ Cleared s.settings.serverNamespace v w w'

theorem ends_collect (hcurrent : Current s history w claim) :
    (collect s claim).Ends (fun _ w' => Collected s claim w w') w := by
  by_cases hname : ∃ v, claim.knownMetadata.name = some (Name.backing v)
  · obtain ⟨v, hname⟩ := hname
    obtain ⟨hv, owner, hlabels, -⟩ := hcurrent v hname
    have hkept (hneeded : Needed w v owner) : Collected s claim w w := by
      refine .inl ⟨rfl, fun u hu => ?_⟩
      obtain rfl := Name.backing_inj.1 (Option.some.inj (hname.symm.trans hu))
      exact ⟨owner, hlabels, hneeded⟩
    apply Action.Yields.bind (yields_staleVolume? hname hv hlabels)
    intro found w hafter
    obtain ⟨rfl, ⟨rfl, hneeded⟩ | rfl⟩ := hafter
    · exact Action.ends_pure (hkept hneeded)
    · apply Action.ends_ask
      intro (tracked : Bool) w' hw
      obtain ⟨htracked, rfl⟩ : tracked = w.tracker.contains v ∧ w' = w := hw.1
      apply Action.ends_ite
      · intro h
        exact Action.ends_pure (hkept (.inl (htracked.symm.trans h)))
      intro _
      apply Action.Yields.bind Action.yields_log
      rintro _ w' rfl
      apply Action.Yields.bind Backing.yields_delete
      intro _ w' hcleared
      exact Action.ends_pure (.inr ⟨v, hname, hcleared⟩)
  · apply Action.Ends.bind (ends_staleVolume? fun v hv => absurd ⟨v, hv⟩ hname)
    · intro found w' hafter
      obtain ⟨rfl, hfound⟩ := hafter
      cases found with
      | none => exact Action.ends_pure (.inl ⟨rfl, fun v hv => absurd ⟨v, hv⟩ hname⟩)
      | some v => exact absurd rfl (hfound v)
    · intro e w' hafter
      obtain ⟨rfl, -⟩ := hafter
      exact .inl ⟨rfl, fun v hv => absurd ⟨v, hv⟩ hname⟩

section

variable {u : String} (h : Cleared s.settings.serverNamespace u w w')

include h

theorem labels?_of_cleared (hv : v ≠ u) (r : Resource) (hr : r.isNamespaced) :
    w'.cluster.labels? (key s.settings.serverNamespace r v) =
      w.cluster.labels? (key s.settings.serverNamespace r v) := by
  apply congrArg (Option.map Metadata.labels) (h.touched.others _ _)
  rintro (hk | ⟨t, -, hk⟩)
  · rw [show r = .volume from hk] at hr
    cases hr
  · exact hv (Backing.key_inj.1 hk).2

theorem owned_of_cleared {owner : Owner} (hv : v ≠ u) (howned : Owned s v owner w.cluster history) :
    Owned s v owner w'.cluster history :=
  howned.congr (labels?_of_cleared h hv .claim rfl) rfl

theorem upheld_of_cleared (hupheld : Upheld s v w.cluster history) :
    Upheld s v w'.cluster history := by
  by_cases hv : v = u
  · subst hv
    refine ⟨fun {r t} hbase hthere => ?_, fun hthere => ?_⟩
    · rw [h.gone r (Lineage.isNamespaced_of_base hbase).1] at hthere
      cases hthere
    · rw [h.gone .claim rfl] at hthere
      cases hthere
  · exact hupheld.congr (labels?_of_cleared h hv) rfl

theorem needed_of_cleared {owner : Owner}
    (howner : owner.namespaceName ≠ some s.settings.serverNamespace) (hneeded : Needed w v owner) :
    Needed w' v owner := by
  have hforeign : ¬Backing.Concerned s.settings.serverNamespace u
      (.of .claim owner.namespaceName owner.name) := by
    rintro (hk | ⟨t, -, hk⟩)
    · cases hk
    · exact howner (congrArg Key.namespaceName hk)
  rcases hneeded with htracked | ⟨m, hm, huid⟩ | hvolume
  · rw [← h.touched.tracker] at htracked
    exact .inl htracked
  · exact .inr (.inl ⟨m, (h.touched.others _ hforeign).trans hm, huid⟩)
  · exact .inr (.inr ((h.touched.volumes _ rfl).trans hvolume))

theorem settled_of_cleared (hv : v ≠ u) (hsettled : Settled s history w v) :
    Settled s history w' v := by
  obtain ⟨owner, howned, hneeded⟩ := hsettled
  obtain ⟨o, -, hsound, hmakes⟩ := howned.made
  exact ⟨owner, owned_of_cleared h hv howned,
    needed_of_cleared h (hsound v owner hmakes).2 hneeded⟩

theorem current_of_cleared (hcurrent : Current s history w claim) : Current s history w' claim := by
  intro v hname
  obtain ⟨hv, owner, hlabels, howned⟩ := hcurrent v hname
  refine ⟨hv, owner, hlabels, fun hthere => ?_⟩
  by_cases hvu : v = u
  · subst hvu
    rw [h.gone .claim rfl] at hthere
    cases hthere
  · rw [Lineage.contains_congr (labels?_of_cleared h hvu .claim rfl)] at hthere
    exact owned_of_cleared h hvu (howned hthere)

end

/-- Where a sweep stands: the claims that are still to be collected tell their owners, and every
backing that may not be needed has its claim among them. -/
structure Pending (s : Setup) (history : List (Happening Operation)) (claims : List Object)
    (w : Site) : Prop where
  upheld : ∀ v, Upheld s v w.cluster history
  current : ∀ claim ∈ claims, Current s history w claim
  settled : ∀ v, w.cluster.contains (key s.settings.serverNamespace .claim v) →
    Settled s history w v ∨ ∃ claim ∈ claims, claim.knownMetadata.name = some (Name.backing v)

theorem Pending.collected {claims : List Object} (h : Pending s history (claim :: claims) w)
    (hcollected : Collected s claim w w') : Pending s history claims w' := by
  obtain ⟨hclaim, hclaims⟩ := List.forall_mem_cons.1 h.current
  rcases hcollected with ⟨rfl, hneeded⟩ | ⟨u, hname, hcleared⟩
  · refine ⟨h.upheld, hclaims, fun v hthere => ?_⟩
    rcases h.settled v hthere with hsettled | ⟨c, hc, hv⟩
    · exact .inl hsettled
    rcases List.mem_cons.1 hc with rfl | hc
    · obtain ⟨-, owner, hlabels, howned⟩ := hclaim v hv
      obtain ⟨owner', hlabels', hneeded⟩ := hneeded v hv
      obtain rfl : owner = owner' :=
        Option.some.inj ((owner?_of_labels hlabels).symm.trans (owner?_of_labels hlabels'))
      exact .inl ⟨owner, howned hthere, hneeded⟩
    · exact .inr ⟨c, hc, hv⟩
  · refine ⟨fun v => upheld_of_cleared hcleared (h.upheld v),
      fun c hc => current_of_cleared hcleared (hclaims c hc), fun v hthere => ?_⟩
    have hvu : v ≠ u := by
      rintro rfl
      rw [hcleared.gone .claim rfl] at hthere
      cases hthere
    rw [Lineage.contains_congr (labels?_of_cleared hcleared hvu .claim rfl)] at hthere
    rcases h.settled v hthere with hsettled | ⟨c, hc, hv⟩
    · exact .inl (settled_of_cleared hcleared hvu hsettled)
    rcases List.mem_cons.1 hc with rfl | hc
    · exact absurd (Name.backing_inj.1 (Option.some.inj (hv.symm.trans hname))) hvu
    · exact .inr ⟨c, hc, hv⟩

theorem Collected.tracker_eq (h : Collected s claim w w') : w'.tracker = w.tracker := by
  rcases h with ⟨rfl, -⟩ | ⟨_, -, hcleared⟩
  · rfl
  · exact hcleared.touched.tracker

/-- When all claims were collected, every backing that is left is needed. -/
theorem yields_collectAll {claims : List Object} (h : Pending s history claims w) :
    (collectAll s claims).Yields
      (fun _ w' => w'.tracker = w.tracker ∧ Pending s history [] w') w := by
  induction claims generalizing w with
  | nil => exact Action.yields_pure ⟨rfl, h⟩
  | cons claim claims ih =>
    have hrest {w' : Site} (found : Option String) (hcollected : Collected s claim w w') :
        Action.Yields (fun _ w'' => w''.tracker = w.tracker ∧ Pending s history [] w'')
          (do return found.toList ++ (← collectAll s claims)) w' := by
      apply Action.Yields.bind (ih (h.collected hcollected))
      intro _ w'' hw
      exact Action.yields_pure ⟨hw.1.trans hcollected.tracker_eq, hw.2⟩
    apply Action.Yields.bind (ends_collect (h.current claim List.mem_cons_self)).outcome
    intro r w' hcollected
    cases r with
    | ok found => exact hrest found hcollected
    -- A fault is logged, and the next claim is collected.
    | error e =>
      apply Action.Yields.bind Action.yields_log
      rintro _ w' rfl
      exact hrest none hcollected

theorem pending_of_list (hupheld : ∀ v, Upheld s v w.cluster history) :
    Pending s history
      (w.cluster.list .claim (some s.settings.serverNamespace) (some selector)).items w := by
  have hlabels {claim : Object} {v : String}
      (hget : w.cluster.store.get? (key s.settings.serverNamespace .claim v) = some claim) :
      ∃ owner, claim.knownMetadata.labels = some (Manifest.claimLabels v owner) ∧
        Owned s v owner w.cluster history := by
    obtain ⟨owner, howned⟩ := (hupheld v).owner (congrArg Option.isSome hget)
    have hstored := howned.labels
    rw [Cluster.labels?, Cluster.metadata?, hget] at hstored
    exact ⟨owner, Option.some.inj hstored, howned⟩
  have hname {claim : Object} {name : Option String}
      (hget : w.cluster.store.get? ⟨.claim, some s.settings.serverNamespace, name⟩ = some claim) :
      claim.knownMetadata.name = name :=
    congrArg Key.name (w.keyed _ _ (congrArg (Option.map Object.knownMetadata) hget))
  refine ⟨hupheld, fun claim hclaim v hv => ?_, fun v hthere => .inr ?_⟩
  · obtain ⟨name, hget⟩ := Store.mem_objects.1 (List.mem_filter.1 hclaim).1
    obtain rfl := (hname hget).symm.trans hv
    obtain ⟨owner, hclaim, howned⟩ := hlabels hget
    obtain ⟨o, -, hsound, hmakes⟩ := howned.made
    exact ⟨(hsound v owner hmakes).1, owner, hclaim, fun _ => howned⟩
  · obtain ⟨claim, hget⟩ := Option.isSome_iff_exists.1 hthere
    obtain ⟨owner, hclaim, -⟩ := hlabels hget
    refine ⟨claim, List.mem_filter.2 ⟨Store.mem_objects.2 ⟨_, hget⟩, ?_⟩, hname hget⟩
    rw [hclaim]
    exact selects_claimLabels v owner

/-- A sweep comes to an end, and then every backing that is left is needed. -/
theorem yields_sweep (hupheld : ∀ v, Upheld s v w.cluster history) :
    (sweep s).Yields (fun _ w' => w'.tracker = w.tracker ∧ Pending s history [] w') w := by
  apply Action.Yields.bind (Action.Ends.outcome Access.yields_listAll)
  intro x w' hx
  cases x with
  | error e => exact hx.elim
  | ok claims =>
    obtain ⟨rfl, rfl⟩ := hx
    exact yields_collectAll (pending_of_list hupheld)

variable {p : Pool Operation}

/-- Wherever operations that run one after the other have failed, each service has its server, each
server its claim, and each claim the labels of the owner that it was made for; nothing is tracked
between operations that was not tracked at the start; and a sweep that nothing disturbs comes to an
end with no parts left but those of backings that are needed. -/
theorem needed_after_sweep (h : (inTurn s).Reach w p)
    (hbare : ∀ (r : Resource) v, r.isNamespaced →
      w.cluster.contains (key s.settings.serverNamespace r v) = false) :
    (∀ v,
      (p.site.cluster.contains (key s.settings.serverNamespace .service v) →
        p.site.cluster.contains (key s.settings.serverNamespace .server v)) ∧
      (p.site.cluster.contains (key s.settings.serverNamespace .server v) →
        p.site.cluster.contains (key s.settings.serverNamespace .claim v)) ∧
      (p.site.cluster.contains (key s.settings.serverNamespace .claim v) →
        ∃ owner, Owned s v owner p.site.cluster p.history)) ∧
    ((∀ o, p.threads o = none) → ∀ v, p.site.tracker.contains v → w.tracker.contains v) ∧
    ∀ tracker : Tracker, (sweep s).Yields
      (fun _ w' => w'.tracker = tracker ∧ ∀ (r : Resource) v, r.isNamespaced →
        w'.cluster.contains (key s.settings.serverNamespace r v) →
          w'.cluster.contains (key s.settings.serverNamespace .claim v) ∧
          ∃ owner, Owned s v owner w'.cluster p.history ∧ Needed w' v owner)
      (p.site.tracking tracker) := by
  have hupheld := Lineage.upheld h hbare
  refine ⟨fun v => ⟨(hupheld v).base rfl, (hupheld v).base rfl, (hupheld v).owner⟩,
    fun hidle v hv => ?_, fun tracker => ?_⟩
  · rcases Serial.tracked_by h hv with hstart | ⟨o, t, ht, -⟩
    · exact hstart
    · rw [hidle o] at ht
      cases ht
  · apply (yields_sweep (w := p.site.tracking tracker) hupheld).mono
    intro _ w' hafter
    obtain ⟨htracker, hw'⟩ := hafter
    refine ⟨htracker, fun r v hr hthere => ?_⟩
    have hclaim : w'.cluster.contains (key s.settings.serverNamespace .claim v) := by
      cases r with
      | claim => exact hthere
      | server => exact (hw'.upheld v).base rfl hthere
      | service => exact (hw'.upheld v).base rfl ((hw'.upheld v).base rfl hthere)
      | _ => cases hr
    refine ⟨hclaim, (hw'.settled v hclaim).resolve_right ?_⟩
    intro hafter
    obtain ⟨_, hmem, -⟩ := hafter
    cases hmem

theorem bare_site (r : Resource) (v : String) (hr : r.isNamespaced) :
    Sample.site.cluster.contains (key "nfs" r v) = false := by
  cases r with
  | claim => rfl
  | server => rfl
  | service => rfl
  | _ => cases hr

def halfway : Pool Operation :=
  ((Pool.start Sample.site).begin (.claimed Sample.claim)
    ((inTurn .plain).program (.claimed Sample.claim))).replies (.claimed Sample.claim) 14

theorem reach_halfway : (inTurn .plain).Reach Sample.site halfway := by
  apply ((Regime.Reach.start (R := inTurn .plain) (w := Sample.site)).begin
    (i := .claimed Sample.claim) rfl ⟨fun _ => rfl, _⟩).replies (.claimed Sample.claim) 14
  rintro v owner ⟨⟩
  exact ⟨by decide, by decide⟩

theorem needed_after_sweep_halfway :
    (∃ owner, Owned .plain "pvc-u1" owner halfway.site.cluster halfway.history) ∧
    (sweep .plain).Yields
      (fun _ w' => w'.tracker = .empty ∧ ∀ (r : Resource) v, r.isNamespaced →
        w'.cluster.contains (key "nfs" r v) →
          w'.cluster.contains (key "nfs" .claim v) ∧
          ∃ owner, Owned .plain v owner w'.cluster halfway.history ∧ Needed w' v owner)
      (halfway.site.tracking .empty) := by
  obtain ⟨hparts, -, hsweep⟩ := needed_after_sweep reach_halfway bare_site
  exact ⟨(hparts "pvc-u1").2.2 (by decide +kernel), hsweep .empty⟩

end Collector

end VolumeExport
