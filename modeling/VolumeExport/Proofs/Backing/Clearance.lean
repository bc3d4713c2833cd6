import VolumeExport.Proofs.Backing.Retreat
import VolumeExport.Proofs.Contention

namespace VolumeExport.Backing

open Hook (Target)
open Site (Takes)

variable {s : Setup} {volume : String} {r : Resource} {w v v' v'' : Site} {a : Stand} {k l : Nat}

/-- What runs that take down a backing make of a site: a part that is gone stays gone, and whatever
point the backing and its storage have come to they stay at. -/
structure Downward (s : Setup) (volume : String) (w v v' : Site) : Prop where
  renews : v.cluster.Renews v'.cluster
  gone : ∀ r : Resource, r.isNamespaced →
    v.cluster.store.get? (key s.settings.serverNamespace r volume) = none →
      v'.cluster.store.get? (key s.settings.serverNamespace r volume) = none
  leaving : Leaving s volume w v → Leaving s volume w v'
  hooked : Hooked s .delete volume w v → Hooked s .delete volume w v'

namespace Downward

theorem refl (v : Site) : Downward s volume w v v := ⟨.refl _, fun _ _ h => h, id, id⟩

theorem trans (h : Downward s volume w v v') (h' : Downward s volume w v' v'') :
    Downward s volume w v v'' where
  renews := h.renews.trans h'.renews
  gone r hr hgone := h'.gone r hr (h.gone r hr hgone)
  leaving hv := h'.leaving (h.leaving hv)
  hooked hv := h'.hooked (h.hooked hv)

theorem of_takes (hr : r.isNamespaced) (hclaim : r = .claim → Hooked s .delete volume w v)
    (htakes : Takes (key s.settings.serverNamespace r volume) v v') :
    Downward s volume w v v' := by
  refine ⟨htakes.only.renews, fun t ht hgone => ?_, fun hleaving => ?_, fun hhooked name hname => ?_⟩
  · by_cases htr : t = r
    · subst htr
      apply Option.eq_none_iff_forall_ne_some.2
      intro o' ho'
      obtain ⟨o, ho, -⟩ := htakes.rest o' ho'
      cases hgone.symm.trans ho
    · exact (htakes.only.others _ (key_ne htr)).trans hgone
  · by_cases hrc : r = .claim
    · subst hrc
      exact hleaving.last (hclaim rfl) htakes
    · exact hleaving.part hr hrc htakes
  · rw [htakes.only.others _ (volumeKey_ne hr)]
    exact hhooked name hname

theorem of_dresses (hleaving : Leaving s volume w v) {name : String}
    (hname : storage? w s.settings.serverNamespace volume = some name)
    (hdresses : v.Dresses s.hooks .backendVolume .delete (volumeKey name) v') :
    Downward s volume w v v' := by
  obtain ⟨hleaving', hhooked'⟩ := hleaving.hook hname hdresses
  refine ⟨hdresses.only.renews, fun r hr hgone => ?_, fun _ => hleaving', fun _ => hhooked'⟩
  exact (hdresses.only.others _ (volumeKey_ne hr).symm).trans hgone

end Downward

def dismissal (s : Setup) (volume : String) (w : Site) : Accord where
  moves := Downward s volume w
  refl := .refl
  trans := .trans

theorem renews_dismissal : (dismissal s volume w).Renews := fun _ _ h => Downward.renews h

theorem amid_removeFound (hr : r.isNamespaced)
    (hclaim : r = .claim → Hooked s .delete volume w a.site) {text : String} (ha : a.Has (k + 2) l) :
    Action.Amid (dismissal s volume w)
      (fun _ b => b.Has k l ∧
        b.site.cluster.store.get? (key s.settings.serverNamespace r volume) = none)
      (do
        if ← Access.delete r (some s.settings.serverNamespace) (some (Name.backing volume)) then
          Action.log text) a := by
  apply Action.Amid.bind (Access.amid_delete ha _)
  · rintro deleted b ⟨hb, hgone⟩
    rw [of_backing hr] at hgone
    apply Action.amid_ite
    · intro _
      apply (Action.amid_log hb).since.mono
      rintro _ b' ⟨hb', hsince⟩
      exact ⟨hb', Downward.gone hsince r hr hgone⟩
    · exact fun _ => Action.amid_pure ⟨hb.mono (by omega) (by omega), hgone⟩
  · intro v hv
    obtain ⟨honly, hgone⟩ := v.only_of_delete r (some s.settings.serverNamespace)
      (some (Name.backing volume))
    rw [of_backing hr] at honly hgone
    exact .of_takes hr (fun hrc => Downward.hooked hv (hclaim hrc)) (Takes.of_gone honly hgone)

/-- A part is removed, whoever removes it. -/
theorem amid_remove {target : Target} (hr : r.isNamespaced) (hkind : r.kind = target.kind)
    (h : Leaving s volume w a.site) (hclaim : r = .claim → Hooked s .delete volume w a.site)
    (ha : a.Has (k + 5) (l + 1)) :
    (remove s target r (Name.backing volume)).Amid (dismissal s volume w)
      (fun _ b => b.Has k l ∧
        b.site.cluster.store.get? (key s.settings.serverNamespace r volume) = none) a := by
  have hclaim' {b : Stand} (hto : Downward s volume w a.site b.site) :
      r = .claim → Hooked s .delete volume w b.site := fun hrc => hto.hooked (hclaim hrc)
  apply Action.amid_ite
  · intro _
    apply Action.Amid.bind (Access.amid_modify_hooked renews_dismissal hkind h.isSealed _ ha).since
    · rintro ⟨found, n⟩ b ⟨⟨hb, v, v', -, -, hthere, hsince⟩, hto⟩
      rw [of_backing hr] at hthere
      cases found with
      | none =>
        have hgone := Cluster.get?_of_absent hthere.symm
        exact Action.amid_pure ⟨hb.mono (by omega) (by omega), Downward.gone hsince r hr hgone⟩
      | some o => exact amid_removeFound hr (hclaim' hto) hb
    · intro v v' hto hdresses
      rw [of_backing hr] at hdresses
      exact .of_takes hr (fun hrc => Downward.hooked hto (hclaim hrc)) hdresses.takes
  · intro _
    apply Action.Amid.bind (Access.amid_get ha).since
    rintro found b ⟨⟨hb, hfound⟩, hto⟩
    rw [of_backing hr] at hfound
    cases found with
    | none => exact Action.amid_pure ⟨hb.mono (by omega) (by omega), hfound.symm⟩
    | some o => exact amid_removeFound hr (hclaim' hto) (hb.mono (by omega) (by omega))

/-- The storage is hooked before the claim goes, or it was before another run has let it go. -/
theorem amid_hookLast (h : Leaving s volume w a.site) (ha : a.Has (k + 4) (l + 1)) :
    Action.Amid (dismissal s volume w) (fun _ b => b.Has k l ∧ Hooked s .delete volume w b.site)
      (do
        match ← Access.get .claim (some s.settings.serverNamespace)
            (some (Name.backing volume)) with
        | some claim => hookVolume s .delete claim
        | none => return) a := by
  apply Action.Amid.bind (Access.amid_get ha).since
  rintro found b ⟨⟨hb, hfound⟩, hto⟩
  have hleaving : Leaving s volume w b.site := Downward.leaving hto h
  rw [of_backing rfl] at hfound
  cases found with
  | none =>
    refine Action.amid_pure ⟨hb.mono (by omega) (by omega), ?_⟩
    rcases hleaving.storage with hhooked | ⟨⟨o', ho'⟩, -⟩
    · exact hhooked
    · cases hfound.trans ho'
  | some claim =>
    obtain ⟨o, ho, hrest⟩ := hleaving.claim claim hfound.symm
    have hstorage : storage? w s.settings.serverNamespace volume = bound? claim := by
      rw [storage?, ho, bound?_congr hrest]
      rfl
    apply (amid_hookVolume renews_dismissal hleaving.isSealed _ hb).mono
    · rintro _ b' ⟨hb', v, v', hsince, hafter, hlater⟩
      refine ⟨hb', Downward.hooked hlater ?_⟩
      rcases hafter with ⟨hnone, rfl⟩ | ⟨name, hname, hdresses⟩
      · intro name hname
        rw [hstorage, hnone] at hname
        cases hname
      · exact ((Downward.leaving hsince hleaving).hook (hstorage.trans hname) hdresses).2
    · intro name v v' hname hsince hdresses
      exact .of_dresses (Downward.leaving hsince hleaving) (hstorage.trans hname) hdresses

/-- Among others that do the same a run comes to its end with the backing gone. Unless others write
it makes at most 19 requests, and it writes at most 4 objects. -/
theorem amid_delete (hw : w.cluster.Sealed) :
    (delete s volume).Amid (dismissal s volume w)
      (fun _ b => Leaving s volume w b.site ∧ Hooked s .delete volume w b.site ∧
        ∀ r : Resource, r.isNamespaced →
          b.site.cluster.store.get? (key s.settings.serverNamespace r volume) = none) ⟨w, 19, 4⟩ := by
  have hstart : Stand.Has ⟨w, 19, 4⟩ 19 4 := ⟨Nat.le_refl _, Nat.le_refl _⟩
  have h : Leaving s volume w w := .start hw
  apply Action.Amid.bind (amid_during (amid_remove (r := .service) rfl rfl h
    (fun hrc => nomatch hrc) hstart))
  rintro _ a₁ ⟨⟨ha₁, service₁⟩, (to₁ : Downward s volume w _ _)⟩
  have h₁ := to₁.leaving h
  apply Action.Amid.bind (amid_during (amid_remove (r := .server) rfl rfl h₁
    (fun hrc => nomatch hrc) ha₁))
  rintro _ a₂ ⟨⟨ha₂, server₂⟩, (to₂ : Downward s volume w _ _)⟩
  have h₂ := to₂.leaving h₁
  apply Action.Amid.bind (amid_during (amid_hookLast h₂ ha₂))
  rintro _ a₃ ⟨⟨ha₃, hooked₃⟩, (to₃ : Downward s volume w _ _)⟩
  have h₃ := to₃.leaving h₂
  apply (amid_during (amid_remove (r := .claim) rfl rfl h₃ (fun _ => hooked₃) ha₃)).mono
  rintro _ a₄ ⟨⟨-, claim₄⟩, (to₄ : Downward s volume w _ _)⟩
  refine ⟨to₄.leaving h₃, to₄.hooked hooked₃, fun r hr => ?_⟩
  cases r with
  | claim => exact claim₄
  | server => exact to₄.gone _ rfl (to₃.gone _ rfl server₂)
  | service => exact to₄.gone _ rfl (to₃.gone _ rfl (to₂.gone _ rfl service₁))
  | _ => cases hr

/-- Any number of runs that take down the backing of one volume side by side, in whatever order they
are answered: together they make a bounded number of requests, so that all come to an end. Each that
has ended has done so without a fault, and as soon as one has, the backing is gone, and the storage
is as hooks applied once leave it. Nothing else ever changes. -/
theorem runs_clear {n : Nat} {ms : List (Fin n × Moment)} {rest : Fin n → Prog (Except Fault Unit)}
    (hw : w.cluster.Sealed) (h : Prog.Concert w (delete s volume).run ms rest) :
    ms.length ≤ n * (19 + 3 * n * 4) ∧
    (∃ more rest', Prog.Concert w (delete s volume).run (more ++ ms) rest' ∧
      ∀ i, ∃ r, (rest' i).head = .done r) ∧
    (∀ i r, (rest i).head = .done r → r = .ok () ∧
      (∀ t : Resource, t.isNamespaced → (w.along (ms.map Prod.snd)).cluster.store.get?
        (key s.settings.serverNamespace t volume) = none) ∧
      ∀ name, storage? w s.settings.serverNamespace volume = some name →
        Option.Rel (Object.Dressed s.hooks .backendVolume .delete)
          (w.cluster.store.get? (volumeKey name))
          ((w.along (ms.map Prod.snd)).cluster.store.get? (volumeKey name))) ∧
    ∀ k, (∀ t : Resource, t.isNamespaced → k ≠ key s.settings.serverNamespace t volume) →
      (∀ name, storage? w s.settings.serverNamespace volume = some name → k ≠ volumeKey name) →
      ∀ m ∈ ms.map Prod.snd, m.after.cluster.store.get? k = w.cluster.store.get? k := by
  have hamid := @amid_delete s volume w hw
  have hbound {ms : List (Fin n × Moment)} {rest}
      (h : Prog.Concert w (delete s volume).run ms rest) :
      ms.length ≤ n * (19 + 3 * n * 4) := by
    obtain ⟨_, -, hlength⟩ := h.amid hamid
    exact (Nat.le_add_right ..).trans hlength
  refine ⟨hbound h, h.finishes fun _ _ => hbound, fun i r hr => ?_, ?_⟩
  · obtain ⟨stand, hstand, -⟩ := h.amid hamid
    obtain ⟨hgoal, (hto : Downward s volume w _ _)⟩ := hstand i
    have hdone := hgoal.head
    rw [hr] at hdone
    cases r with
    | ok =>
      obtain ⟨-, hhooked, hgone⟩ := hdone
      exact ⟨rfl, fun t ht => hto.gone t ht (hgone t ht), hto.hooked hhooked⟩
    | error e => exact hdone.elim
  · intro k hparts hstorage m hm
    have hto : Downward s volume w w m.after := h.moves hamid m hm
    exact (hto.leaving (.start hw)).others k ⟨hparts, hstorage⟩

/-- Two runs that are answered in turns: one loses the service, its first change of the storage and
the claim to the other. -/
def overlapping : List (Fin 2 × Moment) × (Fin 2 → Prog (Except Fault Unit)) :=
  Prog.concert standing (delete marking "v").run (List.replicate 12 (List.finRange 2)).flatten

theorem runs_clear_overlapping :
    (∀ i, (overlapping.2 i).result? = some (.ok ())) ∧
    (∀ t : Resource, t.isNamespaced →
      (standing.along (overlapping.1.map Prod.snd)).cluster.store.get? (key "nfs" t "v") = none) ∧
    Option.Rel (Object.Dressed marking.hooks .backendVolume .delete)
      (standing.cluster.store.get? (volumeKey "disk"))
      ((standing.along (overlapping.1.map Prod.snd)).cluster.store.get? (volumeKey "disk")) := by
  have hresult : ∀ i, (overlapping.2 i).result? = some (.ok ()) := by decide +kernel
  have hstorage : storage? standing "nfs" "v" = some "disk" := by decide +kernel
  obtain ⟨-, -, hended, -⟩ :=
    runs_clear (Site.sealed_holding _) (Prog.concert_runs standing (delete marking "v").run _)
  obtain ⟨-, hgone, hhooked⟩ := hended 0 _ (Prog.head_of_result? (hresult 0))
  exact ⟨hresult, hgone, hhooked "disk" hstorage⟩

end VolumeExport.Backing
