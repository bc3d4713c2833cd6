import VolumeExport.Proofs.Steps

namespace VolumeExport

open VolumeExport.Action (either)

namespace Site

structure Takes (k : Key) (w w' : Site) : Prop where
  only : Only k w w'
  rest : ∀ o', w'.cluster.store.get? k = some o' →
    ∃ o, w.cluster.store.get? k = some o ∧ o'.rest = o.rest

namespace Takes

variable {k : Key} {w w' w'' : Site}

theorem refl (k : Key) (w : Site) : Takes k w w := ⟨.refl k w, fun o ho => ⟨o, ho, rfl⟩⟩

theorem of_gone (h : Only k w w') (hgone : w'.cluster.store.get? k = none) : Takes k w w' := by
  refine ⟨h, fun o ho => ?_⟩
  rw [hgone] at ho
  cases ho

theorem trans (h : Takes k w w') (h' : Takes k w' w'') : Takes k w w'' := by
  refine ⟨h.only.trans h'.only, fun o'' ho'' => ?_⟩
  obtain ⟨o', ho', hrest'⟩ := h'.rest o'' ho''
  obtain ⟨o, ho, hrest⟩ := h.rest o' ho'
  exact ⟨o, ho, hrest'.trans hrest⟩

end Takes

theorem Dresses.takes {hooks : Hooks} {target : Hook.Target} {event : Hook.Event} {k : Key}
    {w w' : Site} (h : w.Dresses hooks target event k w') : Takes k w w' := by
  refine ⟨h.only, fun o' ho' => ?_⟩
  have hdressed := h.dressed
  rw [ho'] at hdressed
  generalize hget : w.cluster.store.get? k = found at hdressed
  cases hdressed with
  | some hdressed => exact ⟨_, rfl, hdressed.rest⟩

end Site

namespace Backing

open Site (Only Takes)

variable {s : Setup} {volume : String} {w : Site}

theorem leads_removeFound {r : Resource} {ns name : Option String} {text : String} :
    Action.Leads
      (either (fun _ w' => Takes (.of r ns name) w w' ∧
          w'.cluster.store.get? (.of r ns name) = none)
        fun _ w' => Takes (.of r ns name) w w')
      (do if ← Access.delete r ns name then Action.log text) w := by
  apply Action.Leads.bind Access.leads_delete
  · intro deleted w' hafter
    obtain ⟨honly, hgone⟩ := hafter
    have htakes := Takes.of_gone honly hgone
    apply Action.leads_ite
    · intro _
      apply Action.leads_log
      intro r
      cases r with
      | ok => exact ⟨htakes, hgone⟩
      | error e => exact htakes
    · exact fun _ => Action.leads_pure ⟨htakes, hgone⟩
  · rintro e _ rfl
    exact .refl _ _

theorem leads_remove {target : Hook.Target} {r : Resource} (hr : r.isNamespaced)
    (hw : w.cluster.Sealed) :
    (remove s target r (Name.backing volume)).Leads
      (either (fun _ w' => Takes (key s.settings.serverNamespace r volume) w w' ∧
          w'.cluster.store.get? (key s.settings.serverNamespace r volume) = none)
        fun _ w' => Takes (key s.settings.serverNamespace r volume) w w') w := by
  rw [← of_backing hr]
  apply Action.leads_ite
  · intro _
    apply Action.Leads.bind (Access.leads_modify_hooked hw)
    · intro m w' hafter
      obtain ⟨hsome, hdresses⟩ := hafter
      obtain ⟨found, n⟩ := m
      cases found with
      | none =>
        apply Action.leads_pure
        exact ⟨hdresses.takes, Option.isNone_iff_eq_none.1 (Option.isSome_eq_false_iff.1 hsome.symm)⟩
      | some o =>
        apply leads_removeFound.mono
        intro x w'' hx
        cases x with
        | ok => exact ⟨hdresses.takes.trans hx.1, hx.2⟩
        | error e => exact hdresses.takes.trans hx
    · rintro e _ rfl
      exact .refl _ _
  · intro _
    apply Action.Leads.bind Access.leads_get
    · intro found w' hafter
      obtain ⟨hfound, rfl⟩ := hafter
      cases found with
      | none => exact Action.leads_pure ⟨.refl _ _, hfound.symm⟩
      | some o => exact leads_removeFound
    · rintro e _ rfl
      exact .refl _ _

/-- A site whose backing of a volume has been taken down in part. -/
structure Leaving (s : Setup) (volume : String) (w v : Site) : Prop where
  isSealed : v.cluster.Sealed
  others : ∀ k, Aside w s.settings.serverNamespace volume k →
    v.cluster.store.get? k = w.cluster.store.get? k
  claim : ∀ o', v.cluster.store.get? (key s.settings.serverNamespace .claim volume) = some o' →
    ∃ o, w.cluster.store.get? (key s.settings.serverNamespace .claim volume) = some o ∧
      o'.rest = o.rest
  storage : Hooked s .delete volume w v ∨
    (∃ o', v.cluster.store.get? (key s.settings.serverNamespace .claim volume) = some o') ∧
      Unhooked s volume w v

section

variable {v v' : Site}

theorem Leaving.start (hw : w.cluster.Sealed) : Leaving s volume w w where
  isSealed := hw
  others _ _ := rfl
  claim o ho := ⟨o, ho, rfl⟩
  storage := by
    cases hclaim : w.cluster.store.get? (key s.settings.serverNamespace .claim volume) with
    | some o => exact .inr ⟨⟨o, rfl⟩, fun _ _ => rfl⟩
    | none =>
      refine .inl fun name hname => ?_
      rw [storage?, hclaim] at hname
      cases hname

theorem Leaving.part (h : Leaving s volume w v) {r : Resource} (hr : r.isNamespaced)
    (hclaim : r ≠ .claim) (htakes : Takes (key s.settings.serverNamespace r volume) v v') :
    Leaving s volume w v' := by
  have hclaim' : v'.cluster.store.get? (key s.settings.serverNamespace .claim volume) =
      v.cluster.store.get? (key s.settings.serverNamespace .claim volume) :=
    htakes.only.others _ (key_ne (Ne.symm hclaim))
  refine ⟨h.isSealed.renews htakes.only.renews, fun k hk => ?_, fun o' ho' => ?_, ?_⟩
  · exact (htakes.only.others k (hk.1 r hr)).trans (h.others k hk)
  · exact h.claim o' (hclaim'.symm.trans ho')
  · rw [hclaim']
    refine h.storage.imp (fun hhooked name hname => ?_) fun hstays => ⟨hstays.1, fun name hname => ?_⟩
    · rw [htakes.only.others _ (volumeKey_ne hr)]
      exact hhooked name hname
    · rw [htakes.only.others _ (volumeKey_ne hr)]
      exact hstays.2 name hname

theorem Leaving.hook (h : Leaving s volume w v) {name : String}
    (hname : storage? w s.settings.serverNamespace volume = some name)
    (hdresses : v.Dresses s.hooks .backendVolume .delete (volumeKey name) v') :
    Leaving s volume w v' ∧ Hooked s .delete volume w v' := by
  have hhooked : Hooked s .delete volume w v' :=
    hooked_of_dresses (h.storage.imp_right And.right) hname hdresses
  refine ⟨⟨h.isSealed.renews hdresses.only.renews, fun k hk => ?_, fun o' ho' => ?_,
    .inl hhooked⟩, hhooked⟩
  · exact (hdresses.only.others k (hk.2 name hname)).trans (h.others k hk)
  · exact h.claim o' ((hdresses.only.others _ (volumeKey_ne rfl).symm).symm.trans ho')

/-- The claim may go once the storage is hooked. -/
theorem Leaving.last (h : Leaving s volume w v) (hhooked : Hooked s .delete volume w v)
    (htakes : Takes (key s.settings.serverNamespace .claim volume) v v') :
    Leaving s volume w v' := by
  refine ⟨h.isSealed.renews htakes.only.renews, fun k hk => ?_, fun o'' ho'' => ?_,
    .inl fun name hname => ?_⟩
  · exact (htakes.only.others k (hk.1 .claim rfl)).trans (h.others k hk)
  · obtain ⟨o', ho', hrest'⟩ := htakes.rest o'' ho''
    obtain ⟨o, ho, hrest⟩ := h.claim o' ho'
    exact ⟨o, ho, hrest'.trans hrest⟩
  · rw [htakes.only.others _ (volumeKey_ne rfl)]
    exact hhooked name hname

theorem leads_hookLast (h : Leaving s volume w v) :
    Action.Leads
      (either (fun _ v' => Leaving s volume w v' ∧ Hooked s .delete volume w v' ∧
          ∀ r : Resource, r.isNamespaced →
            v'.cluster.store.get? (key s.settings.serverNamespace r volume) =
              v.cluster.store.get? (key s.settings.serverNamespace r volume))
        fun _ v' => Leaving s volume w v')
      (do
        match ← Access.get .claim (some s.settings.serverNamespace)
            (some (Name.backing volume)) with
        | some claim => hookVolume s .delete claim
        | none => return) v := by
  apply Action.Leads.bind Access.leads_get
  · intro found v₁ hafter
    obtain ⟨hfound, rfl⟩ := hafter
    rw [of_backing rfl] at hfound
    cases found with
    | none =>
      refine Action.leads_pure ⟨h, ?_, fun _ _ => rfl⟩
      rcases h.storage with hhooked | ⟨⟨o', ho'⟩, -⟩
      · exact hhooked
      · rw [ho'] at hfound
        cases hfound
    | some o' =>
      obtain ⟨o, ho, hrest⟩ := h.claim o' hfound.symm
      have hstorage : storage? w s.settings.serverNamespace volume = bound? o' := by
        rw [storage?, ho, bound?_congr hrest]
        rfl
      apply (leads_hookVolume h.isSealed).mono
      intro x v' hx
      cases x with
      | ok =>
        rcases hx with ⟨hnone, rfl⟩ | ⟨name, hname, hdresses⟩
        · refine ⟨h, fun name hname => ?_, fun _ _ => rfl⟩
          rw [hstorage, hnone] at hname
          cases hname
        · obtain ⟨hleaving, hhooked⟩ := h.hook (hstorage.trans hname) hdresses
          exact ⟨hleaving, hhooked, fun r hr => hdresses.only.others _ (volumeKey_ne hr).symm⟩
      | error e =>
        obtain rfl : v' = v₁ := hx
        exact h
  · rintro e _ rfl
    exact h

/-- An attempt to take down a backing goes on with it, and if it ends with a value, the backing is
gone. -/
theorem leads_delete (h : Leaving s volume w v) :
    (delete s volume).Leads
      (either (fun _ v' => Leaving s volume w v' ∧ ∀ r : Resource, r.isNamespaced →
          v'.cluster.store.get? (key s.settings.serverNamespace r volume) = none)
        fun _ v' => Leaving s volume w v') v := by
  apply leads_during_bind (leads_remove rfl h.isSealed)
  · intro _ _ v₁ h₁
    exact h.part rfl (by decide) h₁
  intro _ v₁ hafter
  obtain ⟨htakes₁, service₁⟩ := hafter
  have h₁ := h.part rfl (by decide) htakes₁
  apply leads_during_bind (leads_remove rfl h₁.isSealed)
  · intro _ _ v₂ h₂
    exact h₁.part rfl (by decide) h₂
  intro _ v₂ hafter
  obtain ⟨htakes₂, server₂⟩ := hafter
  have h₂ := h₁.part rfl (by decide) htakes₂
  have service₂ := (htakes₂.only.others _ (key_ne (r := .service) (by decide))).trans service₁
  apply leads_during_bind (leads_hookLast h₂)
  · exact fun _ _ _ h₃ => h₃
  intro _ v₃ hafter
  obtain ⟨h₃, hhooked, hparts⟩ := hafter
  have service₃ := (hparts .service rfl).trans service₂
  have server₃ := (hparts .server rfl).trans server₂
  apply leads_during (leads_remove rfl h₃.isSealed)
  · intro _ _ v₄ h₄
    exact h₃.last hhooked h₄
  intro _ v₄ hafter
  obtain ⟨htakes₄, claim₄⟩ := hafter
  refine ⟨h₃.last hhooked htakes₄, fun r hr => ?_⟩
  cases r with
  | claim => exact claim₄
  | server => exact (htakes₄.only.others _ (key_ne (r := .server) (by decide))).trans server₃
  | service => exact (htakes₄.only.others _ (key_ne (r := .service) (by decide))).trans service₃
  | _ => cases hr

end

/-- After attempts to take down a backing, the last of which has ended with a value, the backing is
gone. Everything else is as it was before all attempts, except that hooks were applied to the
storage, which leaves it as if they had been applied once. -/
theorem gone_after_attempts {past ms : List Moment} (hw : w.cluster.Sealed)
    (h : (delete s volume).Attempts .alone w past)
    (hlast : (delete s volume).run.Runs .alone (w.along past) ms (.ok ())) :
    (∀ r : Resource, r.isNamespaced → (w.along (ms ++ past)).cluster.store.get?
      (key s.settings.serverNamespace r volume) = none) ∧
    (∀ k, (∀ r : Resource, r.isNamespaced → k ≠ key s.settings.serverNamespace r volume) →
      (∀ name, storage? w s.settings.serverNamespace volume = some name → k ≠ volumeKey name) →
      (w.along (ms ++ past)).cluster.store.get? k = w.cluster.store.get? k) ∧
    ∀ name, storage? w s.settings.serverNamespace volume = some name →
      Option.Rel (Object.Dressed s.hooks .backendVolume .delete)
        (w.cluster.store.get? (volumeKey name))
        ((w.along (ms ++ past)).cluster.store.get? (volumeKey name)) := by
  have hleaving : Leaving s volume w (w.along past) := by
    apply h.inv (.start hw)
    intro v hv
    apply (leads_delete hv).mono
    intro r v' hr
    cases r with
    | ok => exact hr.1
    | error e => exact hr
  obtain ⟨hend, hgone⟩ := (leads_delete hleaving).runs hlast
  rw [Site.along_append]
  refine ⟨hgone, fun k hparts hstorage => hend.others k ⟨hparts, hstorage⟩, ?_⟩
  rcases hend.storage with hhooked | ⟨⟨o', ho'⟩, -⟩
  · exact hhooked
  · rw [hgone .claim rfl] at ho'
    cases ho'

def marking : Setup where
  settings := .ofNamespaces "nfs-provisioner" "nfs"
  hooks := [⟨"mark", .delete, .add, [(.backendVolume,
    ⟨.ofList [("released", "at $\x7bCURRENT_TIMESTAMP\x7d")], ["example.com/keep"]⟩)]⟩]

def standing : Site :=
  .holding [
    (.claim, ⟨some (Manifest.metadata "nfs-v" "nfs"),
      [("spec", .ofFields [("volumeName", .string "disk")])]⟩),
    (.volume, ⟨some { Metadata.empty with name := some "disk" }, []⟩),
    (.service, Manifest.service "nfs" "v")]

def stopped : List Moment × Prog (Except Fault Unit) :=
  Prog.replay standing (delete marking "v").run (.refusal :: List.replicate 9 .none)

def resumed : List Moment × Prog (Except Fault Unit) :=
  Prog.replay (standing.along stopped.1) (delete marking "v").run (List.replicate 8 .none)

theorem attempts_stopped : (delete marking "v").Attempts .alone standing stopped.1 := by
  rw [← List.append_nil stopped.1]
  refine .again .start (Prog.runs_replay ?_ (a := .error (.step .deleteClaim "v"
    (.api (.refused 500 "Internal Server Error" none)))) (by decide +kernel))
  rintro i hi
  rcases List.mem_cons.1 hi with rfl | hi
  · exact Incident.among_refusal
  · rw [List.eq_of_mem_replicate hi]
    exact Incident.among_none

theorem runs_resumed :
    (delete marking "v").run.Runs .alone (standing.along stopped.1) resumed.1 (.ok ()) := by
  apply Prog.runs_replay _ (by decide +kernel)
  intro i hi
  rw [List.eq_of_mem_replicate hi]
  exact Incident.among_none

theorem gone_after_attempts_resumed :
    (∀ r : Resource, r.isNamespaced → (standing.along (resumed.1 ++ stopped.1)).cluster.store.get?
      (key "nfs" r "v") = none) ∧
    (∀ k, (∀ r : Resource, r.isNamespaced → k ≠ key "nfs" r "v") →
      (∀ name, storage? standing "nfs" "v" = some name → k ≠ volumeKey name) →
      (standing.along (resumed.1 ++ stopped.1)).cluster.store.get? k =
        standing.cluster.store.get? k) ∧
    ∀ name, storage? standing "nfs" "v" = some name →
      Option.Rel (Object.Dressed marking.hooks .backendVolume .delete)
        (standing.cluster.store.get? (volumeKey name))
        ((standing.along (resumed.1 ++ stopped.1)).cluster.store.get? (volumeKey name)) :=
  gone_after_attempts (Site.sealed_holding _) attempts_stopped runs_resumed

end Backing

end VolumeExport
