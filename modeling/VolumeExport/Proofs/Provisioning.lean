import VolumeExport.Proofs.Backing.Buildup
import VolumeExport.Proofs.Backing.Takedown
import VolumeExport.Provisioning

namespace VolumeExport

open Past (Since Unseen)

/-- A request that looks at classes and nodes, or is about no object. -/
def Request.Looks : Request → Prop
  | .call (.read r _ _) => r = .storageClass
  | .call (.list r _ _) => r = .node
  | .call _ => False
  | q => q.Quiet

theorem Request.Quiet.looks {q : Request} (h : q.Quiet) : q.Looks := by
  cases q with
  | call => exact h.elim
  | _ => exact h

/-- A request that tells nothing of the parts of a backing. -/
abbrev Request.Aside : Request → Prop := Request.Within fun k => !k.resource.isNamespaced

theorem Request.Looks.aside {q : Request} (h : q.Looks) : q.Aside := by
  cases q with
  | call c =>
    cases c with
    | read r ns name =>
      obtain rfl : r = .storageClass := h
      exact Request.within_of_key rfl rfl
    | list => exact nofun
    | create => exact h.elim
    | delete => exact h.elim
    | replace => exact h.elim
  | track => exact h.elim
  | untrack => exact h.elim
  | isTracked => exact h.elim
  | _ => trivial

theorem Past.Since.unseen_aside {before past : Past} {ns volume : String} {r : Resource}
    (h : Since Request.Aside before past) (hr : r.isNamespaced)
    (hu : Unseen (Backing.key ns r volume) before) : Unseen (Backing.key ns r volume) past :=
  h.unseen (by simp [Backing.key, hr]) hu

theorem Action.keeps_forM {α : Type} {may : Request → Past → Prop} {I : Past → Prop}
    {f : α → Action Unit} {past : Past} (xs : List α) (h : I past)
    (hf : ∀ x p, I p → (f x).Keeps may (fun _ p => I p) p) :
    Action.Keeps may (fun _ p => I p) (xs.forM f) past := by
  induction xs generalizing past with
  | nil => exact Action.keeps_pure h
  | cons x xs ih => exact (hf x past h).bind (fun _ p hp => ih hp) fun _ _ hp => hp

namespace Claim

variable {may : Request → Past → Prop} {past : Past}

theorem knownMetadata_of_metadata {o : Object} {field : String} {m : Metadata}
    (h : metadata o field = .ok m) : o.knownMetadata = m := by
  rw [metadata] at h
  split at h
  · next ho => rw [Object.knownMetadata, ho, Option.getD_some, Except.ok.inj h]
  · cases h

theorem path?_of_spec {o : Object} {field : String} {j : Json} (h : spec o field = .ok j) :
    o.path? ["spec"] = some j := by
  rw [spec] at h
  split at h
  · next ho => rw [ho, Except.ok.inj h]
  · cases h

theorem keeps_config {claim : Object} {defaults : Volume.Entries}
    (hlook : ∀ q p, q.Looks → may q p) :
    (config claim defaults).Keeps may (fun _ p => Since Request.Looks past p) past := by
  refine Action.keeps_lift (fun class? _ => ?_) fun _ _ => .refl _ _
  cases class?.filter (· ≠ "") with
  | none => exact Action.keeps_fail (.refl _ _)
  | some name =>
    have hread {x} :
        Since Request.Looks past (⟨.call (.read .storageClass none name), x⟩ :: past) :=
      (Since.refl _ _).cons rfl
    apply Action.Keeps.bind (M := fun _ p => Since Request.Looks past p)
      (Access.keeps_get (hlook _ _ rfl) (fun _ => hread) (fun _ _ => hread) fun _ => hread) _
      fun _ _ hp => hp
    intro found p hp
    cases found with
    | none => exact Action.keeps_fail hp
    | some c =>
      apply Action.keeps_lift _ fun _ _ => hp
      intro m _
      apply Action.keeps_lift _ fun _ _ => hp
      intro text _
      apply Action.keeps_ofExcept_bind _ fun _ _ => hp
      intro declared _
      exact Action.keeps_ofExcept (fun _ _ => hp) fun _ _ => hp

end Claim

namespace Provisioning

variable {s : Setup} {may : Request → Past → Prop} {past : Past}

theorem keeps_requireNode {rules : List Affinity.Rule} (hlook : ∀ q p, q.Looks → may q p) :
    (requireNode rules).Keeps may (fun _ p => Since Request.Looks past p) past := by
  apply Action.keeps_ite
  · intro _
    have hlist {x} : Since Request.Looks past
        (⟨.call (.list .node none (some (Affinity.selector rules))), x⟩ :: past) :=
      (Since.refl _ _).cons rfl
    apply Action.Keeps.bind (M := fun _ p => Since Request.Looks past p)
      (Access.keeps_listAll (hlook _ _ rfl) (fun _ => hlist) fun _ _ => hlist) _ fun _ _ hp => hp
    intro nodes p hp
    exact Action.keeps_ite (fun _ => Action.keeps_fail hp) fun _ => Action.keeps_pure hp
  · intro _
    exact Action.keeps_pure (.refl _ _)

theorem keeps_noteMode {claim : Object} {mode : Option String}
    (hlook : ∀ q p, q.Looks → may q p) :
    (noteMode claim mode).Keeps may (fun _ p => Since Request.Looks past p) past := by
  refine Action.keeps_lift (fun m _ => ?_) fun _ _ => .refl _ _
  exact Action.keeps_log_quiet (hlook _ _ trivial) fun _ _ hp => hp.mono fun _ hq => hq.looks

def Order.owner (order : Order) : Owner :=
  ⟨order.claim.knownMetadata.name, order.claim.knownMetadata.namespaceName,
    order.claim.knownMetadata.uid⟩

/-- What providing a volume asks. -/
inductive Provides (s : Setup) (order : Order) : Request → Past → Prop
  | look {q p} : q.Looks → Past.tracks order.volume p = true → Provides s order q p
  | track {p} : Provides s order (.track order.volume) p
  | untrack {p} : Provides s order (.untrack order.volume) p
  | backing {plan q p} : plan.owner = order.owner → Past.tracks order.volume p = true →
      Backing.Buildup s order.volume plan q p → Provides s order q p

def Equips (s : Setup) (order : Order) (q : Request) (p : Past) : Prop :=
  q.Looks ∨ ∃ plan, plan.owner = order.owner ∧ Backing.Buildup s order.volume plan q p

theorem Equips.within {order : Order} {q : Request} {p : Past} (h : Equips s order q p) :
    q.Within fun _ => True := by
  rcases h with h | ⟨plan, -, h⟩
  · exact h.aside.mono fun _ _ => trivial
  · exact h.within.mono fun _ _ => trivial

theorem keeps_provide {order : Order}
    (hunseen : ∀ r : Resource, r.isNamespaced →
      Unseen (Backing.key s.settings.serverNamespace r order.volume) past)
    (htracks : past.Untracked) :
    (provide s order).Keeps (Provides s order)
      (Action.either
        (fun o p => o.knownMetadata.name = some order.volume ∧
          (∀ r : Resource, r.isNamespaced →
            Past.shows (Backing.key s.settings.serverNamespace r order.volume) p = some true) ∧
          p.Untracked)
        fun _ p => p.Untracked) past := by
  have hlook (q : Request) (p : Past) (hq : q.Looks) : Equips s order q p := .inl hq
  have hstart {p} (hp : Since Request.Looks (⟨.track order.volume, ()⟩ :: past) p) (r : Resource)
      (hr : r.isNamespaced) :
      Unseen (Backing.key s.settings.serverNamespace r order.volume) p :=
    (hp.mono fun _ hq => hq.aside).unseen_aside hr
      (List.forall_mem_cons.2 ⟨nofun, hunseen r hr⟩)
  refine (Action.Keeps.tracked (M := Equips s order) (G := Action.either
      (fun o p => o.knownMetadata.name = some order.volume ∧ ∀ r : Resource, r.isNamespaced →
        Past.shows (Backing.key s.settings.serverNamespace r order.volume) p = some true)
      fun _ _ => True) ?_ (fun _ _ => Equips.within) .track (fun _ => .untrack) ?_ htracks).mono
    (fun _ _ h => h) ?_
  · apply Action.keeps_lift _ fun _ _ => trivial
    intro spec _
    apply Action.Keeps.bind (Action.keeps_forM (otherModes spec) (Since.refl Request.Looks _)
      fun mode p hp => (keeps_noteMode hlook).mono (fun _ _ h => h) fun _ _ h => hp.trans h)
      _ fun _ _ _ => trivial
    intro _ p₁ h₁
    apply Action.Keeps.bind (Claim.keeps_config hlook) _ fun _ _ _ => trivial
    intro config p₂ h₂
    apply Action.keeps_ite
    · intro _
      exact Action.Keeps.bind (M := fun r _ => r.isOk = false) (Action.keeps_fail rfl) nofun
        fun _ _ _ => trivial
    · intro _
      apply Action.Keeps.bind (keeps_requireNode hlook) _ fun _ _ _ => trivial
      intro _ p₃ h₃
      cases capacity? spec with
      | none => exact Action.keeps_fail trivial
      | some capacity =>
        have hall := (h₁.trans h₂).trans h₃
        apply Action.Keeps.bind ((Backing.keeps_create ⟨order.owner, capacity, config⟩
          (hstart hall)).mono (fun q p h => .inr ⟨_, rfl, h⟩) fun _ _ h => h) _ fun _ _ _ => trivial
        intro address p₄ h₄
        apply Action.keeps_log_bind (hlook _ _ trivial) _ fun _ _ _ => trivial
        intro p₅ h₅
        apply Action.keeps_ask (hlook .now p₅ trivial)
        intro t
        apply Action.keeps_ofExcept _ fun _ _ => trivial
        intro o ho
        refine ⟨(Backing.hooked_remarks ho).name_eq, fun r hr => ?_⟩
        exact (Past.shows_skip rfl).trans ((h₅.shows_quiet _).trans (h₄ r hr))
  · intro q p htracks h
    rcases h with h | ⟨plan, howner, h⟩
    · exact .look h htracks
    · exact .backing howner htracks h
  · intro x _ hafter
    obtain ⟨p, rfl, hx, hp⟩ := hafter
    cases x with
    | error e => exact hp
    | ok o => exact ⟨hx.1, fun r hr => (Past.shows_skip rfl).trans (hx.2 r hr), hp⟩

def nameOf (volume : Object) : String := Claim.shown volume.knownMetadata.name

def policy? (volume : Object) : Option String := (volume.path? ["spec"]).bind reclaimPolicy

/-- What withdrawing a volume asks. -/
inductive Withdraws (s : Setup) (volume : Object) : Request → Past → Prop
  | quiet {q p} : q.Quiet → Withdraws s volume q p
  | track {p} : Withdraws s volume (.track (nameOf volume)) p
  | untrack {p} : Withdraws s volume (.untrack (nameOf volume)) p
  | read {p} : Past.tracks (nameOf volume) p = true →
      Withdraws s volume (.call (.read .volume none volume.knownMetadata.name)) p
  | replace {o body t p} : policy? volume ≠ some "Retain" → o.Remarks body →
      Past.tracks (nameOf volume) p = true →
      Withdraws s volume (.call (.replace .volume none volume.knownMetadata.name body))
        (⟨.now, t⟩ :: ⟨.call (.read .volume none volume.knownMetadata.name), .ok o⟩ :: p)
  | backing {q p} : policy? volume ≠ some "Retain" → Past.tracks (nameOf volume) p = true →
      Backing.Takedown s.settings.serverNamespace (nameOf volume) q p → Withdraws s volume q p

inductive Dismantles (s : Setup) (volume : Object) : Request → Past → Prop
  | quiet {q p} : q.Quiet → Dismantles s volume q p
  | read {p} : Dismantles s volume (.call (.read .volume none volume.knownMetadata.name)) p
  | replace {o body t p} : policy? volume ≠ some "Retain" → o.Remarks body →
      Dismantles s volume (.call (.replace .volume none volume.knownMetadata.name body))
        (⟨.now, t⟩ :: ⟨.call (.read .volume none volume.knownMetadata.name), .ok o⟩ :: p)
  | backing {q p} : policy? volume ≠ some "Retain" →
      Backing.Takedown s.settings.serverNamespace (nameOf volume) q p → Dismantles s volume q p

theorem Dismantles.within {volume : Object} {q : Request} {p : Past} (h : Dismantles s volume q p) :
    q.Within fun _ => True := by
  cases h with
  | quiet hq => exact hq.within _
  | read => exact fun _ _ => trivial
  | replace => exact fun _ _ => trivial
  | backing _ h => exact h.within.mono fun _ _ => trivial

theorem keeps_dismantle {volume : Object} (hpolicy : policy? volume ≠ some "Retain") :
    (dismantle s volume.knownMetadata.name).Keeps (Dismantles s volume) (fun _ _ => True) past := by
  have hdelete {p} : (Backing.delete s (nameOf volume)).Keeps (Dismantles s volume)
      (fun _ _ => True) p :=
    Backing.keeps_delete.mono (fun _ _ => .backing hpolicy) fun _ _ _ => trivial
  apply Action.keeps_ite
  · intro _
    apply Action.Keeps.bind (M := fun _ _ => True) _ (fun _ _ _ => hdelete) fun _ _ _ => trivial
    exact Action.Keeps.bind (Backing.keeps_modify_hooked (fun _ _ => Dismantles.quiet)
      (fun _ _ => .read) fun t o body p _ => .replace hpolicy)
      (fun _ _ _ => Action.keeps_pure trivial) fun _ _ _ => trivial
  · intro _
    exact hdelete

theorem keeps_withdraw {volume : Object} (htracks : past.Untracked) :
    (withdraw s volume).Keeps (Withdraws s volume) (fun _ p => p.Untracked) past := by
  apply Action.keeps_lift _ fun _ _ => htracks
  intro m hm
  obtain rfl := Claim.knownMetadata_of_metadata hm
  refine (Action.Keeps.tracked (M := Dismantles s volume) (G := fun _ _ => True) ?_
    (fun _ _ => Dismantles.within) .track (fun _ => .untrack) ?_ htracks).mono (fun _ _ h => h) ?_
  · apply Action.keeps_lift _ fun _ _ => trivial
    intro spec hspec
    have hspec : policy? volume = reclaimPolicy spec := by
      rw [policy?, Claim.path?_of_spec hspec, Option.bind_some]
    apply Action.keeps_ite
    · intro _
      exact Action.keeps_log_quiet (.quiet trivial) fun _ _ _ => trivial
    · intro hretain
      apply Action.Keeps.bind (M := fun _ _ => True) (Action.Keeps.orElseFault
        (keeps_dismantle (by rwa [hspec])) (fun _ _ h => h) fun _ _ h => h) _ fun _ _ _ => trivial
      intro _ p _
      exact Action.keeps_log_quiet (.quiet trivial) fun _ _ _ => trivial
  · intro q p htracks h
    cases h with
    | quiet hq => exact .quiet hq
    | read => exact .read htracks
    | replace hpolicy hbody => exact .replace hpolicy hbody htracks
    | backing hpolicy h => exact .backing hpolicy htracks h
  · intro x _ hafter
    obtain ⟨p, rfl, -, hp⟩ := hafter
    exact hp

end Provisioning

end VolumeExport
