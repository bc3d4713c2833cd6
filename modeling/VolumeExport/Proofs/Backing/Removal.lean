import VolumeExport.Proofs.Backing.Parts
import VolumeExport.Proofs.Ends

namespace VolumeExport

/-- Of a site at most the objects of some keys have changed, and no volume came or went. -/
structure Site.Touched (ks : Key → Prop) (w w' : Site) : Prop where
  tracker : w'.tracker = w.tracker
  others : ∀ k, ¬ks k → w'.cluster.metadata? k = w.cluster.metadata? k
  volumes : ∀ k, k.resource = .volume → w'.cluster.contains k = w.cluster.contains k

namespace Site.Touched

variable {ks ks' : Key → Prop} {w w' w'' : Site}

theorem refl (ks : Key → Prop) (w : Site) : Touched ks w w := ⟨rfl, fun _ _ => rfl, fun _ _ => rfl⟩

theorem trans (h : Touched ks w w') (h' : Touched ks w' w'') : Touched ks w w'' where
  tracker := h'.tracker.trans h.tracker
  others k hk := (h'.others k hk).trans (h.others k hk)
  volumes k hk := (h'.volumes k hk).trans (h.volumes k hk)

theorem mono (h : Touched ks w w') (hks : ∀ k, ks k → ks' k) : Touched ks' w w' :=
  ⟨h.tracker, fun k hk => h.others k fun hin => hk (hks k hin), h.volumes⟩

theorem contains_eq (h : Touched ks w w') {k : Key} (hk : ¬ks k) :
    w'.cluster.contains k = w.cluster.contains k := by
  rw [← Cluster.isSome_metadata?, h.others k hk, Cluster.isSome_metadata?]

end Site.Touched

theorem Site.touched_after (w : Site) {c : Call} {k : Key} (hkey : c.key? = some k)
    (hfits : c.Fits) (hcreate : ∀ r ns body, c ≠ .create r ns body)
    (hdelete : ∀ r ns name, c = .delete r ns name → r ≠ .volume) :
    Touched (· = k) w (w.after c) := by
  have hanswers : w.Answers (fun _ => False) (.call c) (w.cluster.respond c).1 (w.after c) :=
    .inl ⟨rfl, rfl⟩
  refine ⟨rfl, fun l hl => ?_, fun l hl => ?_⟩
  · apply metadata?_of_unbound hanswers _ hfits
    · exact if_neg fun hc => hl (Option.some.inj (hc.symm.trans hkey))
    · intro ns body hc
      exact absurd (Request.call.inj hc) (hcreate _ _ _)
  · apply contains_eq_of_answers hanswers hfits
    · intro r ns body hc
      exact hcreate _ _ _ (Request.call.inj hc)
    · rintro r ns name heq rfl
      exact hdelete _ _ _ (Request.call.inj (congrArg Turn.request heq)) hl

namespace Access

open Site (Touched)

variable {w : Site} {r : Resource} {ns name : Option String}

theorem yields_get :
    (get r ns name).Yields (fun o w' => o = w.cluster.store.get? (.of r ns name) ∧ w' = w) w := by
  apply Action.ends_ask
  intro x w' hx
  obtain ⟨rfl, rfl⟩ := Site.eq_of_call hx
  rw [Cluster.respond, Cluster.read]
  cases w.cluster.store.get? (.of r ns name) with
  | none => exact Action.ends_ite (fun _ => Action.yields_pure ⟨rfl, rfl⟩) fun h => absurd rfl h
  | some o => exact Action.yields_pure ⟨rfl, rfl⟩

theorem yields_listAll {selector : Option String} :
    (listAll r ns selector).Yields
      (fun objects w' => objects = (w.cluster.list r ns selector).items ∧ w' = w) w := by
  apply Action.ends_ask
  intro x w' hx
  obtain ⟨rfl, rfl⟩ := Site.eq_of_call hx
  exact Action.yields_pure ⟨rfl, rfl⟩

theorem yields_delete (hr : r ≠ .volume) :
    (delete r ns name).Yields (fun _ w' => Touched (· = .of r ns name) w w' ∧
      w'.cluster.contains (.of r ns name) = false) w := by
  apply Action.ends_ask
  intro x w' hx
  obtain ⟨rfl, rfl⟩ := Site.eq_of_call hx
  have htouched : Touched (· = .of r ns name) w (w.after (.delete r ns name)) := by
    refine w.touched_after rfl trivial (fun _ _ _ h => by cases h) fun _ _ _ h => ?_
    cases h
    exact hr
  have hgone (h : Call.shows (.delete r ns name)
      (w.cluster.respond (.delete r ns name)).1 = some false) :
      (w.after (.delete r ns name)).cluster.contains (.of r ns name) = false :=
    Cluster.shows_respond trivial rfl h
  have hresponse : (w.cluster.respond (.delete r ns name)).1 =
      if w.cluster.contains (.of r ns name) then .ok () else .error .notFound := by
    rw [Cluster.respond, Cluster.delete]
    exact apply_ite Prod.fst ..
  cases hthere : w.cluster.contains (.of r ns name) with
  | true =>
    rw [hthere] at hresponse
    rw [hresponse] at hgone ⊢
    exact Action.yields_pure ⟨htouched, hgone rfl⟩
  | false =>
    rw [hthere] at hresponse
    rw [hresponse] at hgone ⊢
    exact Action.yields_pure (x := false) ⟨htouched, hgone rfl⟩

theorem touched_replace {body o : Object} (hget : w.cluster.store.get? (.of r ns name) = some o)
    (hbody : o.Remarks body) :
    (∃ written, (w.cluster.respond (.replace r ns name body)).1 = .ok written) ∧
      Touched (· = .of r ns name) w (w.after (.replace r ns name body)) ∧
      (w.after (.replace r ns name body)).cluster.contains (.of r ns name) := by
  have hok : (w.cluster.respond (.replace r ns name body)).1 =
      .ok (((w.cluster.put r body).store.get? (.of r ns name)).getD body) := by
    rw [Cluster.respond, Cluster.replace, hget]
    exact congrArg Prod.fst (if_pos hbody.resourceVersion_eq)
  have hfits : Call.Fits (.replace r ns name body) :=
    (hbody.key_eq r).trans
      (w.keyed (.of r ns name) _ (congrArg (Option.map Object.knownMetadata) hget))
  refine ⟨⟨_, hok⟩, ?_, ?_⟩
  · exact w.touched_after rfl hfits (fun _ _ _ h => by cases h) fun _ _ _ h => by cases h
  · exact Cluster.shows_respond hfits rfl (congrArg (Call.shows (.replace r ns name body)) hok)

theorem yields_modifyRound {change : Except Instant.Fault Instant → Object → Except Fault Object}
    {n : Nat} (hchange : ∀ t o, ∃ body, change (.ok t) o = .ok body ∧ o.Remarks body) :
    (modifyRound r ns name change n (w.cluster.read (.of r ns name))).Yields
      (fun x w' => ∃ m, x = .inr m ∧ m.object.isSome = w'.cluster.contains (.of r ns name) ∧
        Touched (· = .of r ns name) w w') w := by
  rw [Cluster.read]
  cases hget : w.cluster.store.get? (.of r ns name) with
  | none =>
    have habsent : w.cluster.contains (.of r ns name) = false := congrArg Option.isSome hget
    exact Action.yields_pure (x := (.inr ⟨none, n⟩ : Nat ⊕ Modified))
      ⟨_, rfl, habsent.symm, .refl _ _⟩
  | some o =>
    have hthere : w.cluster.contains (.of r ns name) = true := congrArg Option.isSome hget
    apply Action.ends_ask
    intro t w' ht
    obtain ⟨hw, ht⟩ := ht
    obtain rfl : w' = w := hw
    cases t with
    | error e => cases ht
    | ok t =>
      obtain ⟨body, hbody, hremarks⟩ := hchange t o
      rw [hbody]
      apply Action.ends_ite (fun _ => Action.yields_pure ⟨_, rfl, hthere.symm, .refl _ _⟩)
      intro _
      apply Action.ends_ask
      intro y w'' hy
      obtain ⟨rfl, rfl⟩ := Site.eq_of_call hy
      obtain ⟨⟨written, hwritten⟩, htouched, hstays⟩ := touched_replace hget hremarks
      rw [hwritten]
      exact Action.yields_pure ⟨_, rfl, hstays.symm, htouched⟩

theorem yields_modify {change : Except Instant.Fault Instant → Object → Except Fault Object}
    (hchange : ∀ t o, ∃ body, change (.ok t) o = .ok body ∧ o.Remarks body) :
    (modify r ns name change).Yields (fun m w' =>
      m.object.isSome = w'.cluster.contains (.of r ns name) ∧
        Touched (· = .of r ns name) w w') w := by
  apply Action.yields_rounds
  intro x w' hx
  obtain ⟨rfl, rfl⟩ := Site.eq_of_call hx
  exact yields_modifyRound hchange

end Access

namespace Backing

open Site (Touched)

variable {s : Setup} {volume : String} {w : Site}

theorem yields_during {α : Type} {step : Step} {goal : α → Site → Prop} {a : Action α}
    (h : a.Yields goal w) : (during step volume a).Yields goal w :=
  h.orElseFault

theorem yields_removeFound {r : Resource} {ns name : Option String} {text : String} {w' : Site}
    (hr : r ≠ .volume) (htouched : Touched (· = .of r ns name) w w') :
    Action.Yields (fun _ w' => Touched (· = .of r ns name) w w' ∧
        w'.cluster.contains (.of r ns name) = false)
      (do if ← Access.delete r ns name then Action.log text) w' := by
  apply Action.Yields.bind (Access.yields_delete hr)
  intro deleted w₁ hafter
  obtain ⟨hdeleted, hgone⟩ := hafter
  have hdone : Touched (· = .of r ns name) w w₁ ∧ w₁.cluster.contains (.of r ns name) = false :=
    ⟨htouched.trans hdeleted, hgone⟩
  apply Action.ends_ite
  · intro _
    apply Action.yields_log.mono
    rintro _ _ rfl
    exact hdone
  · intro _
    exact Action.yields_pure hdone

theorem yields_remove {target : Hook.Target} {r : Resource} (hr : r.isNamespaced)
    (hkind : r.kind = target.kind) :
    (remove s target r (Name.backing volume)).Yields
      (fun _ w' => Touched (· = key s.settings.serverNamespace r volume) w w' ∧
        w'.cluster.contains (key s.settings.serverNamespace r volume) = false) w := by
  have hvolume : r ≠ .volume := by
    rintro rfl
    cases hr
  rw [← of_backing hr]
  apply Action.ends_ite
  · intro _
    apply Action.Yields.bind (Access.yields_modify fun t o =>
      hooked_ok s.hooks target .delete hkind t o)
    intro hafter w' hafter'
    obtain ⟨found, n⟩ := hafter
    obtain ⟨hfound, htouched⟩ := hafter'
    cases found with
    | none => exact Action.yields_pure ⟨htouched, hfound.symm⟩
    | some o => exact yields_removeFound hvolume htouched
  · intro _
    apply Action.Yields.bind Access.yields_get
    intro found w' hafter
    obtain ⟨hfound, rfl⟩ := hafter
    cases found with
    | none => exact Action.yields_pure ⟨.refl _ _, (congrArg Option.isSome hfound).symm⟩
    | some o => exact yields_removeFound hvolume (.refl _ _)

theorem yields_hookVolume {event : Hook.Event} {claim : Object} :
    (hookVolume s event claim).Yields
      (fun _ w' => Touched (fun k => k.resource = .volume) w w') w := by
  apply Action.ends_ite
  · intro _
    cases (claim.text? ["spec", "volumeName"]).filter (· ≠ "") with
    | none => exact Action.yields_pure (.refl _ _)
    | some name =>
      apply Action.Yields.bind
        (Access.yields_modify fun t o => hooked_ok s.hooks .backendVolume event rfl t o)
      intro m w' hafter
      obtain ⟨-, htouched⟩ := hafter
      refine Action.yields_pure (htouched.mono ?_)
      rintro k rfl
      rfl
  · intro _
    exact Action.yields_pure (.refl _ _)

/-- The backing of a volume is gone, and nothing else but volumes has changed. -/
structure Cleared (ns volume : String) (w w' : Site) : Prop where
  touched : Touched (Concerned ns volume) w w'
  gone : ∀ r : Resource, r.isNamespaced → w'.cluster.contains (key ns r volume) = false

/-- Taking down a backing comes to an end with the backing gone. -/
theorem yields_delete :
    (delete s volume).Yields (fun _ w' => Cleared s.settings.serverNamespace volume w w') w := by
  have hconcerned {r : Resource} (hr : r.isNamespaced) {w w' : Site}
      (h : Touched (· = key s.settings.serverNamespace r volume) w w') :
      Touched (Concerned s.settings.serverNamespace volume) w w' :=
    h.mono fun k hk => .inr ⟨r, hr, hk⟩
  apply Action.Yields.bind (yields_during (yields_remove rfl rfl))
  intro _ w₁ hafter
  obtain ⟨h₁, service₁⟩ := hafter
  apply Action.Yields.bind (yields_during (yields_remove rfl rfl))
  intro _ w₂ hafter
  obtain ⟨h₂, server₂⟩ := hafter
  have service₂ := (h₂.contains_eq (key_ne (r := .service) (by decide))).trans service₁
  refine Action.Yields.bind (M := fun _ w₃ => Touched (fun k => k.resource = .volume) w₂ w₃)
    (yields_during (Action.Yields.bind Access.yields_get ?_)) fun _ w₃ h₃ => ?_
  · intro found _ hafter
    obtain ⟨-, rfl⟩ := hafter
    cases found with
    | none => exact Action.yields_pure (.refl _ _)
    | some claim => exact yields_hookVolume
  have service₃ := (h₃.contains_eq (k := key s.settings.serverNamespace .service volume)
    nofun).trans service₂
  have server₃ := (h₃.contains_eq (k := key s.settings.serverNamespace .server volume)
    nofun).trans server₂
  apply (yields_during (yields_remove rfl rfl)).mono
  intro _ w₄ hafter
  obtain ⟨h₄, claim₄⟩ := hafter
  refine ⟨(hconcerned rfl h₁).trans ((hconcerned rfl h₂).trans ((h₃.mono fun _ => .inl).trans
    (hconcerned rfl h₄))), fun r hr => ?_⟩
  cases r with
  | claim => exact claim₄
  | server => exact (h₄.contains_eq (key_ne (r := .server) (by decide))).trans server₃
  | service => exact (h₄.contains_eq (key_ne (r := .service) (by decide))).trans service₃
  | _ => cases hr

end Backing

end VolumeExport
