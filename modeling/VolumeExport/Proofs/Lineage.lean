import VolumeExport.Proofs.Serial

namespace VolumeExport.Lineage

open Backing (key)

/-- What an operation makes is for a volume with a name, and for an owner that is no backing claim
itself. -/
def Sound (s : Setup) (o : Operation) : Prop :=
  ∀ v owner, o.makes? = some (v, owner) →
    v ≠ "" ∧ owner.namespaceName ≠ some s.settings.serverNamespace

/-- Sound operations, one after the other. Others leave the parts of backings and the tracker as
they are. -/
def inTurn (s : Setup) : Regime Operation := serial s (Sound s) fun _ _ => True

def creator? (k : Key) : Happening Operation → Option Operation
  | .answered o ⟨.call (.create .claim ns body), .ok _⟩ =>
    if Key.of .claim ns body.knownMetadata.name = k then some o else none
  | _ => none

/-- The claim of a volume has the labels of the owner for whom the latest operation that has created
the claim has made it. -/
structure Owned (s : Setup) (v : String) (owner : Owner) (c : Cluster)
    (history : List (Happening Operation)) : Prop where
  labels : c.labels? (key s.settings.serverNamespace .claim v) =
    some (some (Manifest.claimLabels v owner))
  made : ∃ o, history.findSome? (creator? (key s.settings.serverNamespace .claim v)) = some o ∧
    Sound s o ∧ o.makes? = some (v, owner)

def base? : Resource → Option Resource
  | .service => some .server
  | .server => some .claim
  | _ => none

/-- Each part of the backing of a volume has what it rests on. -/
structure Upheld (s : Setup) (v : String) (c : Cluster) (history : List (Happening Operation)) :
    Prop where
  base : ∀ {r t}, base? r = some t → c.contains (key s.settings.serverNamespace r v) →
    c.contains (key s.settings.serverNamespace t v)
  owner : c.contains (key s.settings.serverNamespace .claim v) → ∃ owner, Owned s v owner c history

variable {s : Setup} {v : String} {c c' : Cluster} {history history' : List (Happening Operation)}
  {r t : Resource}

theorem isNamespaced_of_base (h : base? r = some t) : r.isNamespaced ∧ t.isNamespaced := by
  cases r with
  | service =>
    cases h
    exact ⟨rfl, rfl⟩
  | server =>
    cases h
    exact ⟨rfl, rfl⟩
  | _ => cases h

theorem contains_congr {k : Key} (h : c'.labels? k = c.labels? k) :
    c'.contains k = c.contains k := by
  rw [← Cluster.isSome_labels?, h, Cluster.isSome_labels?]

/-- The later of two histories, if no claim of the volume was created in between. -/
def Later (s : Setup) (v : String) (history history' : List (Happening Operation)) : Prop :=
  history'.findSome? (creator? (key s.settings.serverNamespace .claim v)) =
    history.findSome? (creator? (key s.settings.serverNamespace .claim v))

theorem later_cons {h : Happening Operation}
    (hh : creator? (key s.settings.serverNamespace .claim v) h = none) :
    Later s v history (h :: history) := by
  rw [Later, List.findSome?_cons, hh]

theorem Owned.congr {owner : Owner} (hc : Owned s v owner c history)
    (hlabels : c'.labels? (key s.settings.serverNamespace .claim v) =
      c.labels? (key s.settings.serverNamespace .claim v))
    (hh : Later s v history history') : Owned s v owner c' history' := by
  obtain ⟨o, ho, hsound, hmakes⟩ := hc.made
  exact ⟨hlabels.trans hc.labels, o, hh.trans ho, hsound, hmakes⟩

theorem Upheld.owner_congr (hc : Upheld s v c history)
    (hlabels : c'.labels? (key s.settings.serverNamespace .claim v) =
      c.labels? (key s.settings.serverNamespace .claim v))
    (hh : Later s v history history')
    (hthere : c'.contains (key s.settings.serverNamespace .claim v)) :
    ∃ owner, Owned s v owner c' history' := by
  rw [contains_congr hlabels] at hthere
  exact (hc.owner hthere).imp fun _ howned => howned.congr hlabels hh

theorem Upheld.congr (hc : Upheld s v c history)
    (hlabels : ∀ r : Resource, r.isNamespaced →
      c'.labels? (key s.settings.serverNamespace r v) =
        c.labels? (key s.settings.serverNamespace r v))
    (hh : Later s v history history') : Upheld s v c' history' := by
  refine ⟨fun {r t} hbase => ?_, hc.owner_congr (hlabels .claim rfl) hh⟩
  obtain ⟨hr, ht⟩ := isNamespaced_of_base hbase
  rw [contains_congr (hlabels r hr), contains_congr (hlabels t ht)]
  exact hc.base hbase

theorem Upheld.add (hc : Upheld s v c history)
    (hlabels : ∀ t : Resource, t.isNamespaced → t ≠ r →
      c'.labels? (key s.settings.serverNamespace t v) =
        c.labels? (key s.settings.serverNamespace t v))
    (hnew : c'.contains (key s.settings.serverNamespace r v))
    (hbase : ∀ t, base? r = some t → c.contains (key s.settings.serverNamespace t v))
    (howner : c'.contains (key s.settings.serverNamespace .claim v) →
      ∃ owner, Owned s v owner c' history') :
    Upheld s v c' history' := by
  refine ⟨fun {a b} hab hthere => ?_, howner⟩
  obtain ⟨ha, hb⟩ := isNamespaced_of_base hab
  by_cases hbr : b = r
  · subst hbr
    exact hnew
  · rw [contains_congr (hlabels b hb hbr)]
    by_cases har : a = r
    · subst har
      exact hbase b hab
    · rw [contains_congr (hlabels a ha har)] at hthere
      exact hc.base hab hthere

/-- A part may go when nothing rests on it. -/
theorem Upheld.remove (hc : Upheld s v c history)
    (hlabels : ∀ t : Resource, t.isNamespaced → t ≠ r →
      c'.labels? (key s.settings.serverNamespace t v) =
        c.labels? (key s.settings.serverNamespace t v))
    (hgone : c'.contains (key s.settings.serverNamespace r v) = false)
    (hbare : ∀ t, base? t = some r → c.contains (key s.settings.serverNamespace t v) = false)
    (hh : Later s v history history') : Upheld s v c' history' := by
  refine ⟨fun {a b} hab hthere => ?_, fun hthere => ?_⟩
  · obtain ⟨ha, hb⟩ := isNamespaced_of_base hab
    have har : a ≠ r := by
      rintro rfl
      rw [hgone] at hthere
      cases hthere
    rw [contains_congr (hlabels a ha har)] at hthere
    have hbr : b ≠ r := by
      rintro rfl
      rw [hbare a hab] at hthere
      cases hthere
    rw [contains_congr (hlabels b hb hbr)]
    exact hc.base hab hthere
  · have hne : Resource.claim ≠ r := by
      rintro rfl
      rw [hgone] at hthere
      cases hthere
    exact hc.owner_congr (hlabels .claim rfl hne) hh hthere

section

variable {w w' : Site} {o : Operation} {q : Request} {x : q.Answer} {past : Past}

theorem labels?_of_spares (hx : w.Answers Site.Mute q x w') (hq : Operation.Spares q) {k : Key}
    (hk : k.resource.isNamespaced) : w'.cluster.labels? k = w.cluster.labels? k := by
  apply congrArg (Option.map Metadata.labels)
  cases q with
  | call call =>
    have hother {r : Resource} {n m : Option String} (hkey : k = .of r n m) (hr : r = .volume) :
        False := by
      subst hr hkey
      cases hk
    have heffect := Site.effect_of_answers hx k
    generalize w'.cluster.metadata? k = m at heffect
    cases heffect with
    | same => rfl
    | created hkey => exact (hother hkey hq).elim
    | replaced hkey => exact (hother hkey hq).elim
    | deleted hkey => exact (hother hkey hq).elim
    | bound => cases hq
  | _ => exact congrArg (Cluster.metadata? · k) (Site.cluster_eq_of_answers hx fun _ => nofun)

theorem creator?_of_spares {k : Key} (hq : Operation.Spares q) :
    creator? k (.answered o ⟨q, x⟩) = none := by
  simp only [creator?]
  split
  · next heq =>
    cases heq
    cases hq
  · rfl

theorem Upheld.spares (hc : Upheld s v w.cluster history) (hx : w.Answers Site.Mute q x w')
    (hq : Operation.Spares q) : Upheld s v w'.cluster (.answered o ⟨q, x⟩ :: history) :=
  hc.congr (fun _ hr => labels?_of_spares hx hq hr) (later_cons (creator?_of_spares hq))

theorem labels?_of_part {call : Call} {x : Except ApiError call.Result} {u : String}
    (hx : w.Answers Site.Mute (.call call) x w') (hfits : call.Fits)
    (hkey : call.key? = some (key s.settings.serverNamespace r u)) (ht : t.isNamespaced)
    (hne : t ≠ r ∨ v ≠ u) :
    w'.cluster.labels? (key s.settings.serverNamespace t v) =
      w.cluster.labels? (key s.settings.serverNamespace t v) := by
  refine congrArg (Option.map Metadata.labels) (Site.metadata?_of_other hx ht hfits fun hk => ?_)
  rw [hkey] at hk
  obtain ⟨hr, hu⟩ := Backing.key_inj.1 (Option.some.inj hk)
  rcases hne with hne | hne
  · exact hne hr.symm
  · exact hne hu.symm

/-- Of the calls about one volume only those matter that do not fail, and only for that volume. -/
theorem Upheld.part {call : Call} {x : Except ApiError call.Result} {u : String}
    (hc : Upheld s v w.cluster history) (hx : w.Answers Site.Mute (.call call) x w')
    (hfits : call.Fits) (hkey : call.key? = some (key s.settings.serverNamespace r u))
    (hself : ∀ y, x = .ok y → v = u →
      Upheld s v w'.cluster (.answered o ⟨.call call, x⟩ :: history)) :
    Upheld s v w'.cluster (.answered o ⟨.call call, x⟩ :: history) := by
  cases hxy : x with
  | error e =>
    subst hxy
    apply hc.congr _ (later_cons (by simp only [creator?]))
    intro r hr
    exact congrArg (Option.map Metadata.labels) (Site.metadata?_of_error hx _)
  | ok y =>
    rw [← hxy]
    by_cases hvu : v = u
    · exact hself y hxy hvu
    · refine hc.congr (fun t ht => labels?_of_part hx hfits hkey ht (.inr hvu)) (later_cons ?_)
      simp only [creator?]
      split
      · next heq =>
        cases heq
        refine if_neg fun hk => hvu ?_
        exact (Backing.key_inj.1 (hk.symm.trans (Option.some.inj hkey))).2
      · rfl

theorem Upheld.create {manifest body : Object} {x : Except ApiError Object} {u : String}
    (hc : Upheld s v w.cluster history)
    (hx : w.Answers Site.Mute (.call (.create r (some s.settings.serverNamespace) body)) x w')
    (hr : r.isNamespaced) (hname : manifest.knownMetadata.name = some (Name.backing u))
    (hbody : manifest.Remarks body)
    (hbase : ∀ t, base? r = some t → w.cluster.contains (key s.settings.serverNamespace t u))
    (howner : r = .claim → ∃ owner, manifest.knownMetadata.labels =
      some (Manifest.claimLabels u owner) ∧ Sound s o ∧ o.makes? = some (u, owner)) :
    Upheld s v w'.cluster (.answered o ⟨.call (.create r (some s.settings.serverNamespace) body),
      x⟩ :: history) := by
  have hof : Key.of r (some s.settings.serverNamespace) body.knownMetadata.name =
      key s.settings.serverNamespace r u := by
    rw [hbody.name_eq, hname, Backing.of_backing hr]
  have hkey := congrArg some hof
  apply hc.part hx trivial hkey
  intro object hobject hvu
  subst hobject hvu
  have hnew := Site.labels?_of_create hx hr
  rw [hof, hbody.labels_eq] at hnew
  have hothers (t : Resource) (ht : t.isNamespaced) (hne : t ≠ r) :=
    labels?_of_part (v := v) hx trivial hkey ht (.inl hne)
  refine hc.add hothers ?_ hbase fun hthere => ?_
  · rw [← Cluster.isSome_labels?, hnew]
    rfl
  · by_cases hclaim : r = .claim
    · subst hclaim
      obtain ⟨owner, hlabels, hsound, hmakes⟩ := howner rfl
      refine ⟨owner, hnew.trans (congrArg some hlabels), o, ?_, hsound, hmakes⟩
      have hcreator : creator? (key s.settings.serverNamespace .claim v)
          (.answered o
            ⟨.call (.create .claim (some s.settings.serverNamespace) body), .ok object⟩) =
              some o := if_pos hof
      rw [List.findSome?_cons, hcreator]
    · apply hc.owner_congr (hothers .claim rfl fun h => hclaim h.symm) (later_cons _) hthere
      cases r with
      | claim => exact absurd rfl hclaim
      | _ => rfl

theorem Upheld.delete {x : Except ApiError Unit} {u : String} (hc : Upheld s v w.cluster history)
    (hx : w.Answers Site.Mute
      (.call (.delete r (some s.settings.serverNamespace) (some (Name.backing u)))) x w')
    (hr : r.isNamespaced)
    (hbare : ∀ t, base? t = some r →
      w.cluster.contains (key s.settings.serverNamespace t u) = false) :
    Upheld s v w'.cluster (.answered o
      ⟨.call (.delete r (some s.settings.serverNamespace) (some (Name.backing u))), x⟩ ::
        history) := by
  have hkey : Call.key? (.delete r (some s.settings.serverNamespace) (some (Name.backing u))) =
      some (key s.settings.serverNamespace r u) := congrArg some (Backing.of_backing hr)
  apply hc.part hx trivial hkey
  intro y hy hvu
  subst hy hvu
  refine hc.remove (fun t ht hne => labels?_of_part hx trivial hkey ht (.inl hne)) ?_ hbare
    (later_cons rfl)
  exact Site.contains_of_shows (b := false) (fun _ he => he) hx trivial (if_pos hkey)

theorem Upheld.replace {object body : Object} {x : Except ApiError Object} {u : String}
    (hc : Upheld s v w.cluster history)
    (hx : w.Answers Site.Mute (.call (.replace r (some s.settings.serverNamespace)
      (some (Name.backing u)) body)) x w')
    (hfits : Call.Fits (.replace r (some s.settings.serverNamespace) (some (Name.backing u)) body))
    (hr : r.isNamespaced) (hbody : object.Remarks body)
    (hcopied : w.cluster.metadata? (key s.settings.serverNamespace r u) =
      some object.knownMetadata) :
    Upheld s v w'.cluster (.answered o ⟨.call (.replace r (some s.settings.serverNamespace)
      (some (Name.backing u)) body), x⟩ :: history) := by
  have hkey :
      Call.key? (.replace r (some s.settings.serverNamespace) (some (Name.backing u)) body) =
        some (key s.settings.serverNamespace r u) := congrArg some (Backing.of_backing hr)
  refine hc.part hx hfits hkey fun y hy hvu =>
    hc.congr (fun t ht => ?_) (later_cons (by simp only [creator?]))
  · subst hvu
    by_cases htr : t = r
    · subst htr
      have heffect := Site.effect_of_answers hx (key s.settings.serverNamespace t v)
      rw [Cluster.labels?, Cluster.labels?]
      generalize w'.cluster.metadata? (key s.settings.serverNamespace t v) = m at heffect
      cases heffect with
      | same => rfl
      | replaced _ _ hlabels =>
        rw [Option.map_some, hlabels, hbody.labels_eq, hcopied, Option.map_some]
    · exact labels?_of_part hx hfits hkey ht (.inl htr)

/-- Making a backing leaves each part with what it rests on. -/
theorem Upheld.buildup {u : String} {plan : Plan} (hc : Upheld s v w.cluster history)
    (h : Backing.Buildup s u plan q past) (hx : w.Answers Site.Mute q x w') (hsound : Sound s o)
    (hmakes : o.makes? = some (u, plan.owner))
    (hknown : ∀ r : Resource, r.isNamespaced →
      past.shows (key s.settings.serverNamespace r u) = some true →
        w.cluster.contains (key s.settings.serverNamespace r u)) :
    Upheld s v w'.cluster (.answered o ⟨q, x⟩ :: history) := by
  cases h with
  | quiet hq => exact hc.spares hx (Operation.spares_of_quiet hq)
  | read => exact hc.spares hx trivial
  | replace => exact hc.spares hx rfl
  | createClaim hbody =>
    exact hc.create hx rfl rfl hbody (fun _ => nofun) fun _ => ⟨plan.owner, rfl, hsound, hmakes⟩
  | createServer hbody _ hclaim =>
    apply hc.create hx rfl rfl hbody _ nofun
    intro t ht
    cases ht
    exact hknown .claim rfl hclaim
  | createService hbody _ _ hserver =>
    apply hc.create hx rfl rfl hbody _ nofun
    intro t ht
    cases ht
    exact hknown .server rfl hserver

/-- Taking down a backing leaves each part with what it rests on. -/
theorem Upheld.takedown {u : String} (hc : Upheld s v w.cluster history)
    (h : Backing.Takedown s.settings.serverNamespace u q past) (hx : w.Answers Site.Mute q x w')
    (hfits : q.Fits)
    (hknown : ∀ r : Resource, r.isNamespaced →
      past.shows (key s.settings.serverNamespace r u) = some false →
        w.cluster.contains (key s.settings.serverNamespace r u) = false)
    (hcopied : ∀ (r : Resource) object, r.isNamespaced →
      past.copy? = some (key s.settings.serverNamespace r u, object) →
        w.cluster.metadata? (key s.settings.serverNamespace r u) = some object.knownMetadata) :
    Upheld s v w'.cluster (.answered o ⟨q, x⟩ :: history) := by
  cases h with
  | quiet hq => exact hc.spares hx (Operation.spares_of_quiet hq)
  | read => exact hc.spares hx trivial
  | @replace r n m object body t p hbelongs hbody =>
    cases hbelongs with
    | part hr =>
      apply hc.replace hx hfits hr hbody (hcopied r object hr _)
      rw [← Backing.of_backing hr]
      rfl
    | storage => exact hc.spares hx rfl
  | deleteService =>
    apply hc.delete hx rfl
    intro t ht
    cases t <;> cases ht
  | deleteServer hservice =>
    apply hc.delete hx rfl
    intro t ht
    cases t with
    | service => exact hknown .service rfl hservice
    | _ => cases ht
  | deleteClaim _ hserver =>
    apply hc.delete hx rfl
    intro t ht
    cases t with
    | server => exact hknown .server rfl hserver
    | _ => cases ht

end

variable {w : Site} {p : Pool Operation}

/-- All backings keep what they rest on. -/
theorem upheld (h : (inTurn s).Reach w p)
    (hbare : ∀ (r : Resource) v, r.isNamespaced →
      w.cluster.contains (key s.settings.serverNamespace r v) = false) (v : String) :
    Upheld s v p.site.cluster p.history := by
  apply h.inv (I := fun p => Upheld s v p.site.cluster p.history)
  · refine ⟨fun {r t} hbase hthere => ?_, fun hthere => ?_⟩
    · rw [Pool.start, hbare r v (isNamespaced_of_base hbase).1] at hthere
      cases hthere
    · rw [Pool.start, hbare .claim v rfl] at hthere
      cases hthere
  intro p p' hp ih step
  cases step with
  | begin => exact ih.congr (fun _ _ => rfl) (later_cons rfl)
  | @answer i past rest q k x site hi hhead hx =>
    have hmay := hp.may id (fun _ => rfl) hi hhead
    cases hmay.acts with
    | spares hq => exact ih.spares hx hq
    | builds hmakes h =>
      exact ih.buildup h hx (Serial.alone hp hi).1 hmakes fun r hr => Serial.known hp hi hr
    | razes h =>
      exact ih.takedown h hx (hmay.fits (hp.genuine hi)) (fun r hr => Serial.known hp hi hr)
        fun r object hr => Serial.copied hp hi hr
  | finish => exact ih
  | @move site hmoves =>
    apply ih.congr _ (later_cons rfl)
    intro r hr
    rw [Pool.move_site, Cluster.labels?, Cluster.metadata?, hmoves.2.1 r v hr, Cluster.labels?,
      Cluster.metadata?]

end VolumeExport.Lineage
