import VolumeExport.Proofs.Backing.Cycle
import VolumeExport.Proofs.Sweep

namespace VolumeExport

namespace Collector

open Backing (key volumeKey storage? Aside Hooked Vacated)

/-- The backings of some volumes were taken down and nothing else. -/
structure Reaped (s : Setup) (vs : List String) (w w' : Site) : Prop where
  isSealed : w'.cluster.Sealed
  tracker : w'.tracker = w.tracker
  gone : ∀ v ∈ vs, ∀ r : Resource, r.isNamespaced →
    w'.cluster.store.get? (key s.settings.serverNamespace r v) = none
  others : ∀ k, (∀ v ∈ vs, Aside w s.settings.serverNamespace v k) →
    w'.cluster.store.get? k = w.cluster.store.get? k
  storage : ∀ v ∈ vs, Hooked s .delete v w w'
  idle : vs = [] → w' = w

namespace Reaped

variable {s : Setup} {vs : List String} {u : String} {w w' w'' : Site}

theorem start (hw : w.cluster.Sealed) : Reaped s [] w w where
  isSealed := hw
  tracker := rfl
  gone := nofun
  others _ _ := rfl
  storage := nofun
  idle _ := rfl

theorem get?_key (h : Reaped s vs w w') {r : Resource} (hr : r.isNamespaced) (hu : u ∉ vs) :
    w'.cluster.store.get? (key s.settings.serverNamespace r u) =
      w.cluster.store.get? (key s.settings.serverNamespace r u) := by
  apply h.others
  intro v hv
  apply Backing.aside_key hr
  rintro rfl
  exact hu hv

theorem get?_volumeKey (h : Reaped s vs w w') (name : String) :
    w'.cluster.store.get? (volumeKey name) = w.cluster.store.get? (volumeKey name) ∨
      (∃ v ∈ vs, storage? w s.settings.serverNamespace v = some name) ∧
        Option.Rel (Object.Dressed s.hooks .backendVolume .delete)
          (w.cluster.store.get? (volumeKey name)) (w'.cluster.store.get? (volumeKey name)) := by
  by_cases hbound : ∃ v ∈ vs, storage? w s.settings.serverNamespace v = some name
  · obtain ⟨v, hv, hname⟩ := hbound
    exact .inr ⟨⟨v, hv, hname⟩, h.storage v hv name hname⟩
  · refine .inl (h.others _ fun v hv => ⟨fun _ hr => Backing.volumeKey_ne hr, ?_⟩)
    rintro name' hname' hk
    cases hk
    exact hbound ⟨v, hv, hname'⟩

theorem contains_volumeKey (h : Reaped s vs w w') (name : String) :
    w'.cluster.contains (volumeKey name) = w.cluster.contains (volumeKey name) := by
  rw [Cluster.contains, Cluster.contains, Store.contains, Store.contains]
  rcases h.get?_volumeKey name with hsame | ⟨-, hdressed⟩
  · rw [hsame]
  · exact Object.isSome_of_dressed hdressed

theorem add (h : Reaped s vs w w') (hu : u ∉ vs) (hvacated : Vacated s u w' w'') :
    Reaped s (vs ++ [u]) w w'' := by
  have hstorage : storage? w' s.settings.serverNamespace u =
      storage? w s.settings.serverNamespace u := by
    rw [storage?, storage?, h.get?_key rfl hu]
  have hstep (name : String) :
      Option.Rel (Object.Dressed s.hooks .backendVolume .delete)
        (w'.cluster.store.get? (volumeKey name)) (w''.cluster.store.get? (volumeKey name)) ∨
      w''.cluster.store.get? (volumeKey name) = w'.cluster.store.get? (volumeKey name) := by
    by_cases hname : storage? w' s.settings.serverNamespace u = some name
    · exact .inl (hvacated.hooked name hname)
    · refine .inr (hvacated.leaving.others _ ⟨fun _ hr => Backing.volumeKey_ne hr, ?_⟩)
      rintro name' hname' hk
      cases hk
      exact hname hname'
  refine ⟨hvacated.leaving.isSealed, hvacated.tracker.trans h.tracker, fun v hv r hr => ?_,
    fun k hk => ?_, fun v hv name hname => ?_, fun hnil => by cases List.append_eq_nil_iff.1 hnil |>.2⟩
  · rcases List.mem_append.1 hv with hv | hv
    · have huv : u ≠ v := by
        rintro rfl
        exact hu hv
      exact (hvacated.leaving.others _ (Backing.aside_key hr huv)).trans (h.gone v hv r hr)
    · obtain rfl := List.mem_singleton.1 hv
      exact hvacated.gone r hr
  · obtain ⟨hparts, hvolumes⟩ := hk u (List.mem_append_right _ List.mem_cons_self)
    have haside : Aside w' s.settings.serverNamespace u k :=
      ⟨hparts, fun name hname => hvolumes name (hstorage.symm.trans hname)⟩
    exact (hvacated.leaving.others k haside).trans
      (h.others k fun v hv => hk v (List.mem_append_left _ hv))
  · rcases List.mem_append.1 hv with hv | hv
    · have hbefore := h.storage v hv name hname
      rcases hstep name with hdressed | hsame
      · exact Object.dressed_trans hbefore hdressed
      · rwa [hsame]
    · obtain rfl := List.mem_singleton.1 hv
      have hafter := hvacated.hooked name (hstorage.trans hname)
      rcases h.get?_volumeKey name with hsame | ⟨-, hdressed⟩
      · rwa [hsame] at hafter
      · exact Object.dressed_trans hdressed hafter

end Reaped

def Marked (claim : Object) : Prop :=
  (claim.knownMetadata.labels.bind (·.get? Name.casTypeLabel)) = some (some Name.casTypeKernel)

/-- A claim is the one behind a volume and tells an owner for which nothing needs it. -/
def Unneeded (w : Site) (claim : Object) (v : String) : Prop :=
  claim.knownMetadata.name = some (Name.backing v) ∧ v ≠ "" ∧
    ∃ owner, owner? claim = some owner ∧ ¬Needed w v owner

/-- A backing that nothing needs: its claim tells an owner that is gone, and the volume is neither
tracked nor there. -/
def Orphan (s : Setup) (w : Site) (v : String) : Prop :=
  v ≠ "" ∧ ∃ claim owner,
    w.cluster.store.get? (key s.settings.serverNamespace .claim v) = some claim ∧ Marked claim ∧
      owner? claim = some owner ∧ ¬Needed w v owner

/-- No backing claim was made for another one. -/
def Unchained (s : Setup) (w : Site) : Prop :=
  ∀ v claim owner, w.cluster.store.get? (key s.settings.serverNamespace .claim v) = some claim →
    Marked claim → owner? claim = some owner →
      ∀ u, Key.of .claim owner.namespaceName owner.name ≠ key s.settings.serverNamespace .claim u

/-- Owners in other namespaces are no backing claims. -/
theorem unchained_of_namespace {s : Setup} {w : Site}
    (h : ∀ claim ∈ w.cluster.store.objects .claim (some s.settings.serverNamespace),
      (owner? claim).all fun owner => owner.namespaceName ≠ some s.settings.serverNamespace) :
    Unchained s w := by
  intro v claim owner hget _ howner u hk
  have hall := h claim (Store.mem_objects.2 ⟨_, hget⟩)
  rw [howner] at hall
  exact of_decide_eq_true hall (congrArg Key.namespaceName hk)

variable {s : Setup} {w w' : Site} {claim : Object} {v : String}

theorem selects_iff {labels : Option (Dict (Option String))} :
    Selector.selects selector (labels.getD ∅) ↔
      (labels.bind (·.get? Name.casTypeLabel)) = some (some Name.casTypeKernel) := by
  have hterms : Selector.terms selector =
      [.equals Name.casTypeLabel.toList Name.casTypeKernel.toList] := rfl
  rw [Selector.selects, hterms]
  cases labels with
  | none => simp [Selector.Term.holds]
  | some d =>
    cases hget : d.get? Name.casTypeLabel with
    | none => simp [Selector.Term.holds, hget]
    | some value => simp [Selector.Term.holds, hget]

theorem isOwner_of_alive {owner : Owner} (h : Alive w.cluster owner) :
    isOwner owner (w.cluster.store.get? (.of .claim owner.namespaceName owner.name)) := by
  obtain ⟨m, hm, huid⟩ := h
  obtain ⟨o, ho, rfl⟩ := Option.map_eq_some_iff.1 hm
  rw [ho]
  exact decide_eq_true huid

/-- A look at a claim finds its volume exactly if nothing needs the backing. -/
theorem ends_staleVolume?_iff :
    (staleVolume? claim).Ends
      (fun r w' => w' = w ∧ ∀ v, r = .ok (some v) ↔ Unneeded w claim v) w := by
  rw [staleVolume?]
  cases hname : claim.knownMetadata.name with
  | none =>
    refine Action.ends_fail ⟨rfl, fun v => iff_of_false ?_ fun h => ?_⟩
    · rintro ⟨⟩
    · cases hname.symm.trans h.1
  | some name =>
    dsimp only
    cases hvolume : (Name.volumeOf? name).filter (· ≠ "") with
    | none =>
      refine Action.ends_pure ⟨rfl, fun v => iff_of_false ?_ fun h => ?_⟩
      · rintro ⟨⟩
      · obtain ⟨hv, hne, -⟩ := h
        obtain rfl := Option.some.inj (hname.symm.trans hv)
        rw [Name.volumeOf?_eq_some.2 rfl, Option.filter_some, if_pos (decide_eq_true hne)] at hvolume
        cases hvolume
    | some volume =>
      obtain ⟨hvolume, hne⟩ := Option.filter_eq_some_iff.1 hvolume
      obtain rfl := Name.volumeOf?_eq_some.1 hvolume
      have hspared (hneeded : ∀ owner, owner? claim = some owner → Needed w volume owner) :
          ∀ v, (.ok none : Except Fault (Option String)) = .ok (some v) ↔ Unneeded w claim v := by
        refine fun v => iff_of_false ?_ fun h => ?_
        · rintro ⟨⟩
        · obtain ⟨hv, -, owner, howner, hnot⟩ := h
          obtain rfl := Name.backing_inj.1 (Option.some.inj (hname.symm.trans hv))
          exact hnot (hneeded owner howner)
      apply Action.ends_ask
      intro (tracked : Bool) w' hw
      obtain ⟨htracked, rfl⟩ : tracked = w.tracker.contains volume ∧ w' = w := hw.1
      apply Action.ends_ite
      · intro h
        exact Action.ends_pure ⟨rfl, hspared fun _ _ => .inl (htracked.symm.trans h)⟩
      intro huntracked
      cases howner : owner? claim with
      | none =>
        apply Action.Yields.bind Action.yields_log
        rintro _ w' rfl
        refine Action.ends_pure ⟨rfl, hspared fun owner h => ?_⟩
        cases howner.symm.trans h
      | some owner =>
        apply Action.Yields.bind Access.yields_get
        intro found w' hafter
        obtain ⟨rfl, rfl⟩ := hafter
        apply Action.ends_ite
        · intro h
          refine Action.ends_pure ⟨rfl, hspared fun owner' h' => ?_⟩
          obtain rfl := Option.some.inj (howner.symm.trans h')
          exact .inr (.inl (alive_of_isOwner h))
        intro hbereft
        apply Action.Yields.bind Access.yields_get
        intro found w' hafter
        obtain ⟨hfound, rfl⟩ := hafter
        cases found with
        | some o =>
          refine Action.ends_pure ⟨rfl, hspared fun _ _ => .inr (.inr ?_)⟩
          exact congrArg Option.isSome hfound.symm
        | none =>
          refine Action.ends_pure ⟨rfl, fun v => ⟨?_, fun h => ?_⟩⟩
          · rintro ⟨⟩
            refine ⟨hname, of_decide_eq_true hne, owner, howner, ?_⟩
            rintro (h | h | h)
            · exact huntracked (htracked.trans h)
            · exact hbereft (isOwner_of_alive h)
            · rw [Cluster.contains, Store.contains, ← hfound] at h
              cases h
          · obtain rfl := Name.backing_inj.1 (Option.some.inj (hname.symm.trans h.1))
            rfl

/-- A claim is collected exactly if nothing needs the backing. -/
theorem ends_collect_iff (hw : w.cluster.Sealed) :
    (collect s claim).Ends
      (fun r w' => (∃ v, r = .ok (some v) ∧ Unneeded w claim v ∧ Vacated s v w w') ∨
        (∀ v, r ≠ .ok (some v)) ∧ (∀ v, ¬Unneeded w claim v) ∧ w' = w) w := by
  apply Action.Ends.bind ends_staleVolume?_iff
  · intro found w' hafter
    obtain ⟨rfl, hfound⟩ := hafter
    cases found with
    | none =>
      exact Action.ends_pure (.inr ⟨nofun, fun v hv => (nomatch (hfound v).2 hv), rfl⟩)
    | some v =>
      have hunneeded := (hfound v).1 rfl
      apply Action.ends_ask
      intro (tracked : Bool) w' hw'
      obtain ⟨htracked, rfl⟩ : tracked = w'.tracker.contains v ∧ _ := ⟨hw'.1.2 ▸ hw'.1.1, hw'.1.2⟩
      apply Action.ends_ite
      · intro h
        obtain ⟨-, -, owner, -, hnot⟩ := hunneeded
        exact absurd (.inl (htracked.symm.trans h)) hnot
      intro _
      apply Action.Yields.bind Action.yields_log
      rintro _ w' rfl
      apply Action.Yields.bind (Backing.yields_vacated hw)
      intro _ w' hvacated
      exact Action.ends_pure (.inl ⟨v, rfl, hunneeded, hvacated⟩)
  · intro e w' hafter
    obtain ⟨rfl, hfound⟩ := hafter
    exact .inr ⟨nofun, fun v hv => (nomatch (hfound v).2 hv), rfl⟩

/-- What a backing is needed for is as it was: the tracker, the claims that are no parts of backings,
and which volumes there are. -/
structure Preserved (s : Setup) (w w' : Site) : Prop where
  isSealed : w'.cluster.Sealed
  tracker : w'.tracker = w.tracker
  claims : ∀ k, k.resource = .claim → (∀ u, k ≠ key s.settings.serverNamespace .claim u) →
    w'.cluster.store.get? k = w.cluster.store.get? k
  volumes : ∀ name, w'.cluster.contains (volumeKey name) = w.cluster.contains (volumeKey name)

namespace Preserved

theorem refl (hw : w.cluster.Sealed) : Preserved s w w := ⟨hw, rfl, fun _ _ _ => rfl, fun _ => rfl⟩

theorem trans {w'' : Site} (h : Preserved s w w') (h' : Preserved s w' w'') :
    Preserved s w w'' where
  isSealed := h'.isSealed
  tracker := h'.tracker.trans h.tracker
  claims k hk hforeign := (h'.claims k hk hforeign).trans (h.claims k hk hforeign)
  volumes name := (h'.volumes name).trans (h.volumes name)

theorem needed_iff (h : Preserved s w w') {owner : Owner}
    (howner : ∀ u, Key.of .claim owner.namespaceName owner.name ≠
      key s.settings.serverNamespace .claim u) : Needed w' v owner ↔ Needed w v owner := by
  have hclaim : w'.cluster.metadata? (.of .claim owner.namespaceName owner.name) =
      w.cluster.metadata? (.of .claim owner.namespaceName owner.name) :=
    congrArg (Option.map Object.knownMetadata) (h.claims _ rfl howner)
  rw [Needed, Needed, Alive, Alive, h.tracker, hclaim]
  exact or_congr_right (or_congr_right (by rw [show Key.of .volume none (some v) = volumeKey v from rfl,
    h.volumes]))

theorem unneeded_iff (h : Preserved s w w') (howner : ∀ owner,
      claim.knownMetadata.name = some (Name.backing v) → owner? claim = some owner →
        ∀ u, Key.of .claim owner.namespaceName owner.name ≠ key s.settings.serverNamespace .claim u) :
    Unneeded w' claim v ↔ Unneeded w claim v := by
  refine and_congr_right fun hname => and_congr_right fun _ => exists_congr fun owner =>
    and_congr_right fun hown => ?_
  rw [h.needed_iff (howner owner hname hown)]

end Preserved

theorem aside_of_claim {k : Key} (hk : k.resource = .claim)
    (hforeign : ∀ u, k ≠ key s.settings.serverNamespace .claim u) :
    Aside w s.settings.serverNamespace v k := by
  refine ⟨fun r _ hpart => ?_, fun name _ hvolume => ?_⟩
  · subst hpart
    obtain rfl : r = .claim := hk
    exact hforeign v rfl
  · subst hvolume
    cases hk

theorem Reaped.preserved {vs : List String} (h : Reaped s vs w w') : Preserved s w w' where
  isSealed := h.isSealed
  tracker := h.tracker
  claims k hk hforeign := h.others k fun _ _ => aside_of_claim hk hforeign
  volumes := h.contains_volumeKey

/-- The claims that are left to be collected, each of which is its own volume's, and the volumes
whose backings have been taken down. -/
theorem yields_reaped {claims : List Object} {vs : List String} (h : Reaped s vs w w')
    (hnames : (claims.map (·.knownMetadata.name)).Nodup)
    (hfresh : ∀ claim ∈ claims, ∀ v ∈ vs, claim.knownMetadata.name ≠ some (Name.backing v))
    (howners : ∀ claim ∈ claims, ∀ v owner, claim.knownMetadata.name = some (Name.backing v) →
      owner? claim = some owner →
        ∀ u, Key.of .claim owner.namespaceName owner.name ≠ key s.settings.serverNamespace .claim u) :
    (collectAll s claims).Yields (fun us w'' => Reaped s (vs ++ us) w w'' ∧
      (us.map fun v => some (Name.backing v)).Sublist (claims.map (·.knownMetadata.name)) ∧
      ∀ v, v ∈ us ↔ ∃ claim ∈ claims, Unneeded w claim v) w' := by
  induction claims generalizing vs w' with
  | nil =>
    refine Action.yields_pure ⟨by rwa [List.append_nil], .refl _, fun v => ?_⟩
    simp
  | cons claim claims ih =>
    rw [List.map_cons, List.nodup_cons] at hnames
    have hclaims := List.forall_mem_cons.1 hfresh
    obtain ⟨howner, howners⟩ := List.forall_mem_cons.1 howners
    have hunneeded (v : String) : Unneeded w' claim v ↔ Unneeded w claim v :=
      h.preserved.unneeded_iff (howner v)
    have hrest {found : Option String} {w₁ : Site}
        (hreaped : Reaped s (vs ++ found.toList) w w₁)
        (hfound : ∀ v, found = some v ↔ Unneeded w claim v) :
        Action.Yields (fun us w'' => Reaped s (vs ++ us) w w'' ∧
            (us.map fun v => some (Name.backing v)).Sublist
              ((claim :: claims).map (·.knownMetadata.name)) ∧
            ∀ v, v ∈ us ↔ ∃ c ∈ claim :: claims, Unneeded w c v)
          (do return found.toList ++ (← collectAll s claims)) w₁ := by
      have hfresh' : ∀ c ∈ claims, ∀ v ∈ vs ++ found.toList,
          c.knownMetadata.name ≠ some (Name.backing v) := by
        intro c hc v hv hname
        rcases List.mem_append.1 hv with hv | hv
        · exact hclaims.2 c hc v hv hname
        · have hclaim := ((hfound v).1 (Option.mem_toList.1 hv)).1
          exact hnames.1 (List.mem_map.2 ⟨c, hc, hname.trans hclaim.symm⟩)
      apply Action.Yields.bind (ih hreaped hnames.2 hfresh' howners)
      intro us w₂ hafter
      obtain ⟨hreaped', hsublist, hmem⟩ := hafter
      refine Action.yields_pure ⟨by rwa [← List.append_assoc], ?_, fun v => ?_⟩
      · cases found with
        | none => exact hsublist.cons _
        | some v =>
          rw [Option.toList_some, List.singleton_append, List.map_cons, List.map_cons,
            ((hfound v).1 rfl).1]
          exact hsublist.cons_cons _
      · simp only [List.mem_append, Option.mem_toList, hmem, hfound, List.mem_cons, exists_eq_or_imp]
    apply Action.Yields.bind (ends_collect_iff h.isSealed).outcome
    intro r w₁ hafter
    rcases hafter with ⟨v, rfl, hv, hvacated⟩ | ⟨hr, hnone, rfl⟩
    · have hv := (hunneeded v).1 hv
      have hreaped : Reaped s (vs ++ (some v).toList) w w₁ :=
        h.add (fun hmem => hclaims.1 v hmem hv.1) hvacated
      refine hrest hreaped fun u => ?_
      constructor
      · rintro ⟨⟩
        exact hv
      · rintro ⟨hu, -⟩
        rw [Name.backing_inj.1 (Option.some.inj (hv.1.symm.trans hu))]
    · have hkept : ∀ v, (none : Option String) = some v ↔ Unneeded w claim v :=
        fun v => ⟨nofun, fun hv => absurd ((hunneeded v).2 hv) (hnone v)⟩
      have hreaped : Reaped s (vs ++ (none : Option String).toList) w w₁ := by
        rwa [Option.toList_none, List.append_nil]
      cases r with
      | ok found =>
        cases found with
        | none => exact hrest hreaped hkept
        | some v => exact absurd rfl (hr v)
      | error e =>
        apply Action.Yields.bind Action.yields_log
        rintro _ w₂ rfl
        exact hrest hreaped hkept

/-- Each claim that is listed is stored under its own name. -/
theorem get?_of_listed {page : Page} (hclaim : claim ∈ page.items)
    (hpage : page = w.cluster.list .claim (some s.settings.serverNamespace) (some selector)) :
    w.cluster.store.get? ⟨.claim, some s.settings.serverNamespace, claim.knownMetadata.name⟩ =
      some claim ∧ Marked claim := by
  subst hpage
  obtain ⟨hclaim, hselects⟩ := List.mem_filter.1 hclaim
  obtain ⟨name, hget⟩ := Store.mem_objects.1 hclaim
  obtain rfl : claim.knownMetadata.name = name := congrArg Key.name (Site.key_of_get? hget)
  exact ⟨hget, selects_iff.1 hselects⟩

/-- The claims that are listed have different names. -/
theorem nodup_names {ns : String} {selector : Option String} :
    ((w.cluster.list .claim (some ns) selector).items.map (·.knownMetadata.name)).Nodup := by
  have hkey {e : Key × Object} (he : e ∈ w.cluster.store.entries.filter fun e =>
      e.1.resource = .claim && ((some ns).isNone || e.1.namespaceName = some ns)) :
      e.1 = ⟨.claim, some ns, e.2.knownMetadata.name⟩ := by
    obtain ⟨hmem, hns⟩ := List.mem_filter.1 he
    have hname := congrArg Key.name (Site.key_of_get? (Store.get?_eq_some_iff.2 hmem))
    obtain ⟨⟨r, n, name⟩, o⟩ := e
    obtain ⟨rfl, rfl⟩ : r = .claim ∧ n = some ns := by simpa using hns
    exact congrArg _ hname.symm
  refine (List.filter_sublist.map _).nodup ?_
  rw [Store.objects, List.map_map, List.Nodup, List.pairwise_map]
  apply List.Pairwise.imp_of_mem _
    (List.pairwise_map.1 ((List.filter_sublist.map _).nodup w.cluster.store.distinct))
  intro e e' he he' hne hname
  apply hne
  rw [hkey he, hkey he']
  exact congrArg (Key.mk .claim (some ns)) hname

abbrev page (s : Setup) (w : Site) : Page :=
  w.cluster.list .claim (some s.settings.serverNamespace) (some selector)

theorem unneeded_iff_of_listed (hclaim : claim ∈ (page s w).items) {v : String}
    (hname : claim.knownMetadata.name = some (Name.backing v)) :
    Unneeded w claim v ↔ Orphan s w v := by
  obtain ⟨hget, hmarked⟩ := get?_of_listed hclaim rfl
  rw [hname] at hget
  constructor
  · rintro ⟨-, hv, owner, howner, hneeded⟩
    exact ⟨hv, claim, owner, hget, hmarked, howner, hneeded⟩
  · rintro ⟨hv, other, owner, hother, -, howner, hneeded⟩
    obtain rfl : claim = other := Option.some.inj (hget.symm.trans hother)
    exact ⟨hname, hv, owner, howner, hneeded⟩

/-- What one sweep takes down. -/
theorem yields_orphans (hw : w.cluster.Sealed) (hunchained : Unchained s w) :
    (sweep s).Yields (fun vs w' => Reaped s vs w w' ∧
      (vs.map fun v => some (Name.backing v)).Sublist
        ((w.cluster.list .claim (some s.settings.serverNamespace) (some selector)).items.map
          (·.knownMetadata.name)) ∧
      ∀ v, v ∈ vs ↔ Orphan s w v) w := by
  apply Action.Yields.bind (Action.Ends.outcome Access.yields_listAll)
  intro x w' hx
  cases x with
  | error e => exact hx.elim
  | ok claims =>
    obtain ⟨rfl, rfl⟩ := hx
    have hstored {claim : Object} {v : String}
        (hclaim : claim ∈ (w'.cluster.list .claim (some s.settings.serverNamespace)
          (some selector)).items) (hname : claim.knownMetadata.name = some (Name.backing v)) :
        w'.cluster.store.get? (key s.settings.serverNamespace .claim v) = some claim ∧
          Marked claim := by
      have hget := get?_of_listed hclaim rfl
      rwa [hname] at hget
    apply (yields_reaped (.start hw) nodup_names nofun fun claim hclaim v owner hname howner =>
      hunchained v claim owner (hstored hclaim hname).1 (hstored hclaim hname).2 howner).mono
    intro vs w'' hafter
    obtain ⟨hreaped, hsublist, hmem⟩ := hafter
    refine ⟨hreaped, hsublist, fun v => (hmem v).trans ⟨?_, fun horphan => ?_⟩⟩
    · rintro ⟨claim, hclaim, hunneeded⟩
      exact (unneeded_iff_of_listed hclaim hunneeded.1).1 hunneeded
    · obtain ⟨claim, -, hget, hmarked, -⟩ := horphan.2
      have hname : claim.knownMetadata.name = some (Name.backing v) :=
        congrArg Key.name (Site.key_of_get? hget)
      have hclaim : claim ∈ (page s w').items :=
        List.mem_filter.2 ⟨Store.mem_objects.2 ⟨_, hget⟩, selects_iff.2 hmarked⟩
      exact ⟨claim, hclaim, (unneeded_iff_of_listed hclaim hname).2 horphan⟩

/-- When the orphans are gone, there are no others. -/
theorem Reaped.settled {vs : List String} (h : Reaped s vs w w') (hunchained : Unchained s w)
    (hvs : ∀ v, v ∈ vs ↔ Orphan s w v) : Unchained s w' ∧ ∀ v, ¬Orphan s w' v := by
  have hstays {v : String} {claim : Object}
      (hget : w'.cluster.store.get? (key s.settings.serverNamespace .claim v) = some claim) :
      v ∉ vs ∧ w.cluster.store.get? (key s.settings.serverNamespace .claim v) = some claim := by
    have hv : v ∉ vs := by
      intro hv
      rw [h.gone v hv .claim rfl] at hget
      cases hget
    exact ⟨hv, (h.get?_key rfl hv).symm.trans hget⟩
  refine ⟨fun v claim owner hget => hunchained v claim owner (hstays hget).2, ?_⟩
  rintro v ⟨hv, claim, owner, hget, hmarked, howner, hneeded⟩
  obtain ⟨hmem, hget⟩ := hstays hget
  rw [h.preserved.needed_iff (hunchained v claim owner hget hmarked howner)] at hneeded
  exact hmem ((hvs v).2 ⟨hv, claim, owner, hget, hmarked, howner, hneeded⟩)

/-- A sweep took down exactly the backings that nothing needed when it began, in the order in which
their claims were listed. Everything else stays, but for volumes that a deleted claim was bound to,
which are as the hooks leave them. Another sweep takes down nothing and changes nothing. -/
structure Swept (s : Setup) (w : Site) (vs : List String) (w' : Site) : Prop where
  nodup : vs.Nodup
  orphans : ∀ v, v ∈ vs ↔ Orphan s w v
  ordered : (vs.map fun v => some (Name.backing v)).Sublist
    ((w.cluster.list .claim (some s.settings.serverNamespace) (some selector)).items.map
      (·.knownMetadata.name))
  gone : ∀ v ∈ vs, ∀ r : Resource, r.isNamespaced →
    w'.cluster.store.get? (key s.settings.serverNamespace r v) = none
  others : ∀ k,
    (∀ v ∈ vs, ∀ r : Resource, r.isNamespaced → k ≠ key s.settings.serverNamespace r v) →
      w'.cluster.store.get? k = w.cluster.store.get? k ∨
        ∃ name, k = volumeKey name ∧
          (∃ v ∈ vs, storage? w s.settings.serverNamespace v = some name) ∧
          Option.Rel (Object.Dressed s.hooks .backendVolume .delete)
            (w.cluster.store.get? k) (w'.cluster.store.get? k)
  tracker : w'.tracker = w.tracker
  again : (sweep s).Yields (fun vs' w'' => vs' = [] ∧ w'' = w') w'

/-- When nothing fails and nobody else acts, a sweep takes down what nothing needs and no more. -/
theorem orphans_gone_after_sweep (hw : w.cluster.Sealed) (hunchained : Unchained s w) :
    (sweep s).Yields (Swept s w) w := by
  apply (yields_orphans hw hunchained).mono
  intro vs w' hafter
  obtain ⟨hreaped, hsublist, hvs⟩ := hafter
  refine ⟨?_, hvs, hsublist, hreaped.gone, fun k hk => ?_, hreaped.tracker, ?_⟩
  · apply (List.pairwise_map.1 (hsublist.nodup nodup_names)).imp
    rintro v _ hne rfl
    exact hne rfl
  · by_cases hvolume : ∃ name, k = volumeKey name
    · obtain ⟨name, rfl⟩ := hvolume
      exact (hreaped.get?_volumeKey name).imp_right fun ⟨hbound, hdressed⟩ =>
        ⟨name, rfl, hbound, hdressed⟩
    · exact .inl (hreaped.others k fun v hv => ⟨hk v hv, fun name _ hname =>
        hvolume ⟨name, hname⟩⟩)
  · obtain ⟨hunchained', hnone⟩ := hreaped.settled hunchained hvs
    apply (yields_orphans hreaped.isSealed hunchained').mono
    intro vs' w'' hafter
    obtain ⟨hreaped', -, hvs'⟩ := hafter
    have hnil : vs' = [] := List.eq_nil_iff_forall_not_mem.2 fun v hv => hnone v ((hvs' v).1 hv)
    exact ⟨hnil, hreaped'.idle hnil⟩

def strayClaim (v : String) : Object where
  metadata := some { Manifest.metadata (Name.backing v) "nfs" with
    labels := some (Manifest.claimLabels v ⟨some "data", some "apps", some "uid-0"⟩) }
  rest := [("spec", .ofFields [("volumeName", .string "disk")])]

def abandoned : Site :=
  .holding [
    (.claim, strayClaim "u"),
    (.volume, ⟨some { Metadata.empty with name := some "u" }, []⟩),
    (.claim, strayClaim "v"),
    (.volume, ⟨some { Metadata.empty with name := some "disk" }, []⟩),
    (.service, Manifest.service "nfs" "v")]

theorem orphans_gone_after_sweep_abandoned :
    Unchained Backing.marking abandoned ∧
      (sweep Backing.marking).Yields (Swept Backing.marking abandoned) abandoned := by
  have hunchained : Unchained Backing.marking abandoned :=
    unchained_of_namespace (by decide +kernel)
  exact ⟨hunchained, orphans_gone_after_sweep (Site.sealed_holding _) hunchained⟩

end Collector

end VolumeExport
