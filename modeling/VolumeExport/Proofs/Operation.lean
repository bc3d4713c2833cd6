import VolumeExport.Proofs.Collector
import VolumeExport.Proofs.Controller
import VolumeExport.Proofs.Pool

namespace VolumeExport

open Provisioning (Order nameOf)

/-- What may be done to the volumes of a cluster. -/
inductive Operation
  | create (volume : String) (plan : Plan)
  | delete (volume : String)
  | provide (order : Order)
  | withdraw (volume : Object)
  | claimed (claim : Object)
  | released (volume : Object)
  | sweep
  deriving DecidableEq, Repr

def Action.program {α : Type} (a : Action α) : Prog Unit := a.run.bind fun _ => .done ()

theorem Action.Keeps.program {α : Type} {may : Request → Past → Prop}
    {goal : Except Fault α → Past → Prop} {a : Action α} {past : Past} (h : a.Keeps may goal past)
    {G : Past → Prop} (hgoal : ∀ r p, goal r p → G p) :
    a.program.Keeps may (fun _ p => G p) past :=
  Prog.Keeps.bind h fun r p hr => Prog.keeps_done (hgoal r p hr)

namespace Operation

def program (s : Setup) : Operation → Prog Unit
  | .create volume plan => (Backing.create s volume plan).program
  | .delete volume => (Backing.delete s volume).program
  | .provide order => (Provisioning.provide s order).program
  | .withdraw volume => (Provisioning.withdraw s volume).program
  | .claimed claim => (Controller.claimed s claim).program
  | .released volume => (Controller.released s volume).program
  | .sweep => (Collector.sweep s).program

/-- What an operation may ask. -/
def May (s : Setup) : Operation → Request → Past → Prop
  | .create volume plan => Backing.Buildup s volume plan
  | .delete volume => Backing.Takedown s.settings.serverNamespace volume
  | .provide order => Provisioning.Provides s order
  | .withdraw volume => Provisioning.Withdraws s volume
  | .claimed claim => Controller.Claims s claim
  | .released volume => Controller.Releases s volume
  | .sweep => Collector.Sweeps s

variable {s : Setup}

theorem keeps_untracked {α : Type} {may : Request → Past → Prop}
    {goal : Except Fault α → Past → Prop} {a : Action α} {ks : Key → Prop}
    (h : a.Keeps may goal []) (hmay : ∀ q p, may q p → q.Within ks) :
    a.program.Keeps may (fun _ p => p.Untracked) [] := by
  refine Prog.Keeps.mono ((h.since hmay).program (G := Past.Untracked) fun r p hr v => ?_)
    (fun _ _ h => h.1) fun _ _ h => h
  exact hr.2.tracks_eq v

/-- Every operation asks what it may ask and leaves nothing tracked. -/
theorem keeps_program (o : Operation) :
    (o.program s).Keeps (o.May s) (fun _ p => p.Untracked) [] := by
  have hstart : Past.Untracked [] := fun _ => rfl
  have hunseen (k : Key) : Past.Unseen k [] := fun _ he => absurd he List.not_mem_nil
  cases o with
  | create volume plan =>
    exact keeps_untracked (Backing.keeps_create plan fun r _ => hunseen _) fun _ _ h => h.within
  | delete volume => exact keeps_untracked Backing.keeps_delete fun _ _ h => h.within
  | provide order =>
    apply (Provisioning.keeps_provide (fun r _ => hunseen _) hstart).program
    intro r p hr
    cases r with
    | ok o => exact hr.2.2
    | error e => exact hr
  | withdraw volume => exact (Provisioning.keeps_withdraw hstart).program fun _ _ h => h
  | claimed claim =>
    exact (Controller.keeps_claimed (fun r _ => hunseen _) hstart).program fun _ _ h => h
  | released volume => exact (Controller.keeps_released hstart).program fun _ _ h => h
  | sweep => exact (Collector.keeps_sweep hstart).program fun _ _ h => h

/-- The volume that an operation makes, and its owner. -/
def makes? : Operation → Option (String × Owner)
  | .create volume plan => some (volume, plan.owner)
  | .provide order => some (order.volume, order.owner)
  | .claimed claim =>
    some (Controller.volumeFor claim, ⟨claim.knownMetadata.name, claim.knownMetadata.namespaceName,
      claim.knownMetadata.uid⟩)
  | _ => none

def Spares : Request → Prop
  | .call (.read ..) => True
  | .call (.list ..) => True
  | .call c => c.resource = .volume
  | _ => True

/-- A request as far as the parts of backings go. -/
inductive Acts (s : Setup) (o : Operation) (q : Request) (p : Past) : Prop
  | spares : Spares q → Acts s o q p
  | builds {volume plan} : o.makes? = some (volume, plan.owner) →
      Backing.Buildup s volume plan q p → Acts s o q p
  | razes {volume} : Backing.Takedown s.settings.serverNamespace volume q p → Acts s o q p

theorem spares_of_quiet {q : Request} (h : q.Quiet) : Spares q := by
  cases q with
  | call => exact h.elim
  | _ => trivial

theorem spares_of_looks {q : Request} (h : q.Looks) : Spares q := by
  cases q with
  | call c =>
    cases c with
    | read => trivial
    | list => trivial
    | create => exact h.elim
    | delete => exact h.elim
    | replace => exact h.elim
  | _ => trivial

theorem acts_of_provides {o : Operation} {order : Order} {q : Request} {p : Past}
    (h : Provisioning.Provides s order q p) (ho : o.makes? = some (order.volume, order.owner)) :
    Acts s o q p := by
  cases h with
  | look hq => exact .spares (spares_of_looks hq)
  | track => exact .spares trivial
  | untrack => exact .spares trivial
  | backing howner _ h => exact .builds (ho.trans (by rw [howner])) h

theorem acts_of_withdraws {o : Operation} {volume : Object} {q : Request} {p : Past}
    (h : Provisioning.Withdraws s volume q p) : Acts s o q p := by
  cases h with
  | quiet hq => exact .spares (spares_of_quiet hq)
  | track => exact .spares trivial
  | untrack => exact .spares trivial
  | read => exact .spares trivial
  | replace => exact .spares rfl
  | backing _ _ h => exact .razes h

theorem May.acts {o : Operation} {q : Request} {p : Past} (h : o.May s q p) : Acts s o q p := by
  cases o with
  | create volume plan => exact .builds rfl h
  | delete volume => exact .razes h
  | provide order => exact acts_of_provides h rfl
  | withdraw volume => exact acts_of_withdraws h
  | claimed claim =>
    cases h with
    | look hq => exact .spares (spares_of_looks hq)
    | read => exact .spares trivial
    | provide h => exact acts_of_provides h rfl
    | create => exact .spares rfl
  | released volume =>
    cases h with
    | withdraw _ h => exact acts_of_withdraws h
    | delete => exact .spares rfl
  | sweep =>
    cases h with
    | quiet hq => exact .spares (spares_of_quiet hq)
    | list => exact .spares trivial
    | isTracked => exact .spares trivial
    | readOwner => exact .spares trivial
    | readVolume => exact .spares trivial
    | takedown _ _ h => exact .razes h

theorem fits_of_remarks {r : Resource} {n m : Option String} {o body : Object}
    {t : Except Instant.Fault Instant} {p : Past}
    (hgenuine : ∀ e ∈ (⟨.now, t⟩ :: ⟨.call (.read r n m), .ok o⟩ :: p : Past), e.Genuine)
    (h : o.Remarks body) : (Request.call (.replace r n m body)).Fits :=
  (h.key_eq r).trans (hgenuine _ (List.mem_cons_of_mem _ List.mem_cons_self) o rfl)

theorem fits_of_quiet {q : Request} (h : q.Quiet) : q.Fits := by
  cases q with
  | call => exact h.elim
  | _ => trivial

theorem fits_of_looks {q : Request} (h : q.Looks) : q.Fits := by
  cases q with
  | call c =>
    cases c with
    | replace => exact h.elim
    | _ => trivial
  | _ => trivial

theorem fits_of_buildup {volume : String} {plan : Plan} {q : Request} {p : Past}
    (h : Backing.Buildup s volume plan q p) (hgenuine : ∀ e ∈ p, e.Genuine) : q.Fits := by
  cases h with
  | quiet hq => exact fits_of_quiet hq
  | replace _ hbody => exact fits_of_remarks hgenuine hbody
  | _ => trivial

theorem fits_of_takedown {ns volume : String} {q : Request} {p : Past}
    (h : Backing.Takedown ns volume q p) (hgenuine : ∀ e ∈ p, e.Genuine) : q.Fits := by
  cases h with
  | quiet hq => exact fits_of_quiet hq
  | replace _ hbody => exact fits_of_remarks hgenuine hbody
  | _ => trivial

theorem fits_of_provides {order : Order} {q : Request} {p : Past}
    (h : Provisioning.Provides s order q p) (hgenuine : ∀ e ∈ p, e.Genuine) : q.Fits := by
  cases h with
  | look hq => exact fits_of_looks hq
  | backing _ _ h => exact fits_of_buildup h hgenuine
  | _ => trivial

theorem fits_of_withdraws {volume : Object} {q : Request} {p : Past}
    (h : Provisioning.Withdraws s volume q p) (hgenuine : ∀ e ∈ p, e.Genuine) : q.Fits := by
  cases h with
  | quiet hq => exact fits_of_quiet hq
  | replace _ hbody => exact fits_of_remarks hgenuine hbody
  | backing _ _ h => exact fits_of_takedown h hgenuine
  | _ => trivial

theorem May.fits {o : Operation} {q : Request} {p : Past} (h : o.May s q p)
    (hgenuine : ∀ e ∈ p, e.Genuine) : q.Fits := by
  cases o with
  | create volume plan => exact fits_of_buildup h hgenuine
  | delete volume => exact fits_of_takedown h hgenuine
  | provide order => exact fits_of_provides h hgenuine
  | withdraw volume => exact fits_of_withdraws h hgenuine
  | claimed claim =>
    cases h with
    | look hq => exact fits_of_looks hq
    | provide h => exact fits_of_provides h hgenuine
    | _ => trivial
  | released volume =>
    cases h with
    | withdraw _ h => exact fits_of_withdraws h hgenuine
    | delete => trivial
  | sweep =>
    cases h with
    | quiet hq => exact fits_of_quiet hq
    | takedown _ _ h => exact fits_of_takedown h hgenuine
    | _ => trivial

end Operation

theorem Regime.keeps_program {ι : Type} {R : Regime ι} {s : Setup} {f : ι → Operation}
    (hR : ∀ i, R.program i = (f i).program s) (i : ι) :
    (R.program i).Keeps ((f i).May s) (fun _ p => p.Untracked) [] := by
  rw [hR]
  exact (f i).keeps_program

/-- A process that runs an operation asks only what the operation may ask. -/
theorem Regime.Reach.may {ι : Type} [DecidableEq ι] {R : Regime ι} {s : Setup} {w : Site}
    {p : Pool ι} (h : R.Reach w p) (f : ι → Operation) (hR : ∀ i, R.program i = (f i).program s)
    {i : ι} {t : Thread} (ht : p.threads i = some t) {q : Request} {k : q.Answer → Prog Unit}
    (hq : t.rest.head = .ask q k) : (f i).May s q t.past := by
  have hhead := (h.keeps (keeps_program hR) ht).head
  rw [hq] at hhead
  exact hhead.1

/-- Where others do not add to the tracker, a volume that was not tracked at the start is tracked
only while a process runs that tracks it. -/
theorem Regime.Reach.tracked_by {ι : Type} [DecidableEq ι] {R : Regime ι} {s : Setup} {w : Site}
    {p : Pool ι} (h : R.Reach w p) (f : ι → Operation) (hR : ∀ i, R.program i = (f i).program s)
    {v : String}
    (hmoves : ∀ p site, R.moves p site → site.tracker.contains v → p.site.tracker.contains v)
    (hv : p.site.tracker.contains v) :
    w.tracker.contains v ∨ ∃ i t, p.threads i = some t ∧ t.past.tracks v := by
  revert hv
  apply h.inv (I := fun p => p.site.tracker.contains v →
    w.tracker.contains v ∨ ∃ i t, p.threads i = some t ∧ t.past.tracks v) .inl
  intro p p' hp ih step hv
  cases step with
  | @begin i hi hadmits =>
    apply (ih hv).imp_right
    intro hafter
    obtain ⟨j, t, ht, htracks⟩ := hafter
    refine ⟨j, t, (Pool.begin_of_ne ?_).trans ht, htracks⟩
    rintro rfl
    rw [hi] at ht
    cases ht
  | @answer i past rest q k x site hi hhead hx =>
    rw [Pool.answer_site, Site.tracked_of_answers hx] at hv
    have hself : (p.answer i ⟨q, x⟩ ⟨⟨q, x⟩ :: past, k x⟩ site).threads i =
        some ⟨⟨q, x⟩ :: past, k x⟩ := Pool.answer_self
    have hpast := Past.tracks_cons v ⟨q, x⟩ past
    cases he : Turn.tracks v ⟨q, x⟩ with
    | some b =>
      rw [he] at hv hpast
      exact .inr ⟨i, _, hself, hpast.trans hv⟩
    | none =>
      rw [he] at hv hpast
      apply (ih hv).imp_right
      intro hafter
      obtain ⟨j, t, ht, htracks⟩ := hafter
      by_cases hj : j = i
      · subst hj
        rw [hi] at ht
        cases ht
        exact ⟨j, _, hself, hpast.trans htracks⟩
      · exact ⟨j, t, (Pool.answer_of_ne hj).trans ht, htracks⟩
  | @finish i past rest hi hhead =>
    apply (ih hv).imp_right
    intro hafter
    obtain ⟨j, t, ht, htracks⟩ := hafter
    refine ⟨j, t, (Function.update_of_ne ?_ ..).trans ht, htracks⟩
    rintro rfl
    rw [hi] at ht
    cases ht
    -- The operation has come to its end, where it leaves nothing tracked.
    have hend := (hp.keeps (keeps_program hR) hi).head
    rw [hhead] at hend
    rw [hend v] at htracks
    cases htracks
  | move hsite => exact ih (hmoves _ _ hsite hv)

def Setup.plain : Setup := ⟨.ofNamespaces "nfs-provisioner" "nfs", []⟩

namespace Sample

def claim : Object where
  metadata := some { Manifest.metadata "data" "apps" with uid := some "u1" }
  rest := [("spec", .ofFields [
    ("storageClassName", .string "export"),
    ("resources", .ofFields [("requests", .ofFields [("storage", .string "1Gi")])])])]

def storageClass : Object where
  metadata := some { Metadata.empty with name := some "export" }
  rest := [("provisioner", .string Name.provisioner)]

def site : Site := .holding [(.claim, claim), (.storageClass, storageClass)]

def volume : Object :=
  Controller.tied (Manifest.volume "pvc-u1" "nfs-pvc-u1.nfs.svc.cluster.local" (some "1Gi") "Delete"
    none none) claim storageClass

end Sample

end VolumeExport
