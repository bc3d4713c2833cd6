import VolumeExport.Proofs.Backing.Parts

namespace VolumeExport

open VolumeExport.Action (either)

namespace Action

variable {α β σ : Type} {B : Fault → Past → Prop}

/-- What an action fails with comes from what it was told. -/
def Blames (B : Fault → Past → Prop) (a : Action α) : Prop :=
  ∀ past, a.Keeps (fun _ _ => True) (either (fun _ _ => True) B) past

theorem blames_pure (x : α) : Blames B (pure x) := fun _ => keeps_pure trivial

theorem Blames.bind {a : Action α} {f : α → Action β} (h : a.Blames B)
    (hf : ∀ x, (f x).Blames B) : (a >>= f).Blames B :=
  fun past => (h past).bind (fun x p _ => hf x p) fun _ _ he => he

theorem blames_ite {c : Prop} [Decidable c] {a b : Action α} (ha : c → a.Blames B)
    (hb : ¬c → b.Blames B) : Blames B (if c then a else b) :=
  fun past => keeps_ite (fun h => ha h past) fun h => hb h past

end Action

namespace Backing

open VolumeExport.Action (Blames blames_pure blames_ite)

/-- What was told last, and the fault that comes from it. -/
inductive Blamed (s : Setup) (volume : String) : Fault → Past → Prop
  | call {c e p} : Blamed s volume (.api e) (⟨.call c, .error e⟩ :: p)
  | log {text t p} : Blamed s volume (.clock t) (⟨.log text, .error t⟩ :: p)
  | now {t p} : Blamed s volume (.clock t) (⟨.now, .error t⟩ :: p)
  | late {claim p} {deadline uptime : Rat} : isBound claim = false →
      ⟨.deadline s.settings.bindTimeout, deadline⟩ ∈ p → deadline ≤ uptime →
      Blamed s volume
        (.notBound s.settings.bindTimeout s.settings.serverNamespace (Name.backing volume))
        (⟨.uptime, uptime⟩ :: ⟨.call (.read .claim (some s.settings.serverNamespace)
          (some (Name.backing volume))), .ok claim⟩ :: p)
  | bare {service p} : service.hasSpec = false →
      Blamed s volume (.absent "cluster_ip")
        (⟨.call (.read .service (some s.settings.serverNamespace) (some (Name.backing volume))),
          .ok service⟩ :: p)
  | unassigned {service p} : (service.text? ["spec", "clusterIP"]).filter (· ≠ "") = none →
      Blamed s volume (.noAddress s.settings.serverNamespace (Name.backing volume))
        (⟨.call (.read .service (some s.settings.serverNamespace) (some (Name.backing volume))),
          .ok service⟩ :: p)

def Missed (s : Setup) (volume : String) (r : Resource) (p : Past) : Prop :=
  ∃ e before, p = ⟨.call (.read r (some s.settings.serverNamespace) (some (Name.backing volume))),
    .error e⟩ :: before ∧ e.isNotFound

variable {s : Setup} {volume : String}

theorem clock_of_hooked {target : Hook.Target} {event : Hook.Event} {r : Resource}
    {now : Except Instant.Fault Instant} {o : Object} {f : Fault} (hkind : r.kind = target.kind)
    (h : hooked s.hooks target event r now o = .error f) : ∃ t, now = .error t ∧ f = .clock t := by
  rw [hooked, Hooks.apply.eq_def] at h
  split at h
  · cases h
  · rw [if_neg (fun h => h hkind)] at h
    cases now with
    | ok t => cases h
    | error t =>
      dsimp only at h
      split at h
      · cases h
        exact ⟨t, rfl, rfl⟩
      · cases h

theorem blamed_of_hooked {target : Hook.Target} {event : Hook.Event} {r : Resource}
    {now : Except Instant.Fault Instant} {o : Object} {f : Fault} {p : Past}
    (hkind : r.kind = target.kind) (h : hooked s.hooks target event r now o = .error f) :
    Blamed s volume f (⟨.now, now⟩ :: p) := by
  obtain ⟨t, rfl, rfl⟩ := clock_of_hooked hkind h
  exact .now

theorem blames_log (text : String) : (Action.log text).Blames (Blamed s volume) :=
  fun _ => Action.keeps_log trivial trivial fun _ => .log

theorem blames_get (r : Resource) (ns name : Option String) :
    (Access.get r ns name).Blames (Blamed s volume) :=
  fun _ => Access.keeps_get trivial (fun _ => trivial) (fun _ _ => trivial) fun _ => .call

theorem blames_create (r : Resource) (ns : Option String) (body : Object) :
    (Access.create r ns body).Blames (Blamed s volume) :=
  fun _ => Access.keeps_create trivial (fun _ => trivial) (fun _ _ => trivial) fun _ => .call

theorem blames_delete (r : Resource) (ns name : Option String) :
    (Access.delete r ns name).Blames (Blamed s volume) :=
  fun _ => Access.keeps_delete trivial trivial (fun _ _ => trivial) fun _ => .call

theorem blames_modify {target : Hook.Target} {r : Resource} (hkind : r.kind = target.kind)
    (event : Hook.Event) (ns name : Option String) :
    (Access.modify r ns name (hooked s.hooks target event r)).Blames (Blamed s volume) := by
  intro past
  apply Action.keeps_rounds (I := fun _ _ => True) trivial fun _ _ _ => trivial
  intro n p _ (x : Except ApiError Object)
  cases x with
  | error e =>
    exact Action.keeps_ite (fun _ => Action.keeps_pure trivial) fun _ => Action.keeps_fail .call
  | ok o =>
    apply Action.keeps_ask trivial
    intro t
    apply Action.keeps_ofExcept_bind _ fun f hf => blamed_of_hooked hkind hf
    intro body _
    apply Action.keeps_ite fun _ => Action.keeps_pure trivial
    intro _
    apply Action.keeps_ask trivial
    intro y
    cases y with
    | ok written => exact Action.keeps_pure trivial
    | error e =>
      exact Action.keeps_ite (fun _ => Action.keeps_pure trivial) fun _ =>
        Action.keeps_ite (fun _ => Action.keeps_pure trivial) fun _ => Action.keeps_fail .call

theorem blames_make {target : Hook.Target} {r : Resource} (hkind : r.kind = target.kind)
    (body : Object) : (make s target r body).Blames (Blamed s volume) := by
  intro past
  apply Action.keeps_ask trivial
  intro t
  apply Action.keeps_ofExcept_bind _ fun f hf => blamed_of_hooked hkind hf
  intro body _
  apply (blames_create r _ body).bind
  intro created
  cases created with
  | none => exact blames_log _
  | some o => exact blames_log _

theorem blames_ensure {target : Hook.Target} {r : Resource} (hkind : r.kind = target.kind)
    (name present : String) (body : Object) :
    (ensure s target r name present body).Blames (Blamed s volume) := by
  apply (blames_get r _ _).bind
  intro found
  cases found with
  | none => exact blames_make hkind body
  | some o => exact blames_log present

theorem blames_hookVolume (event : Hook.Event) (claim : Object) :
    (hookVolume s event claim).Blames (Blamed s volume) := by
  apply blames_ite
  · intro _
    cases (claim.text? ["spec", "volumeName"]).filter (· ≠ "") with
    | none => exact blames_pure ()
    | some name => exact (blames_modify rfl event none _).bind fun _ => blames_pure ()
  · exact fun _ => blames_pure ()

theorem blames_removeFound (r : Resource) (ns name : Option String) (text : String) :
    Action.Blames (Blamed s volume)
      (do if ← Access.delete r ns name then Action.log text) := by
  apply (blames_delete r ns name).bind
  intro deleted
  exact blames_ite (fun _ => blames_log text) fun _ => blames_pure ()

theorem blames_remove {target : Hook.Target} {r : Resource} (hkind : r.kind = target.kind)
    (name : String) : (remove s target r name).Blames (Blamed s volume) := by
  apply blames_ite
  · intro _
    apply (blames_modify hkind .delete _ _).bind
    intro m
    obtain ⟨found, n⟩ := m
    cases found with
    | none => exact blames_pure ()
    | some o => exact blames_removeFound r _ _ _
  · intro _
    apply (blames_get r _ _).bind
    intro found
    cases found with
    | none => exact blames_pure ()
    | some o => exact blames_removeFound r _ _ _

theorem blames_awaitBound : (awaitBound s (Name.backing volume)).Blames
    fun f p => Blamed s volume f p ∨ Missed s volume .claim p := by
  intro past
  apply Action.keeps_ask trivial
  intro (deadline : Rat)
  apply Action.keeps_rounds
    (I := fun _ p => ⟨.deadline s.settings.bindTimeout, deadline⟩ ∈ p) List.mem_cons_self
    fun _ _ _ => trivial
  intro _ p hp (x : Except ApiError Object)
  cases x with
  | error e =>
    apply Action.keeps_ite
    · intro he
      exact Action.keeps_fail (.inr ⟨e, p, rfl, he⟩)
    · exact fun _ => Action.keeps_fail (.inl .call)
  | ok claim =>
    apply Action.keeps_ite fun _ => Action.keeps_pure trivial
    intro hpending
    apply Action.keeps_ask trivial
    intro (uptime : Rat)
    apply Action.keeps_ite
    · intro hlate
      exact Action.keeps_fail (.inl (.late (Bool.eq_false_iff.2 hpending) hp hlate))
    · intro _
      apply Action.keeps_ask trivial
      intro _
      exact Action.keeps_pure
        (List.mem_cons_of_mem _ (List.mem_cons_of_mem _ (List.mem_cons_of_mem _ hp)))

theorem blames_address : (address s (Name.backing volume)).Blames
    fun f p => Blamed s volume f p ∨ Missed s volume .service p := by
  intro past
  apply Action.keeps_ite fun _ => Action.keeps_pure trivial
  intro _
  have hread : (Access.get .service (some s.settings.serverNamespace)
      (some (Name.backing volume))).Keeps (fun _ _ => True)
      (either (fun found p => found.elim (Missed s volume .service p) fun service =>
          ∃ before, p = ⟨.call (.read .service (some s.settings.serverNamespace)
            (some (Name.backing volume))), .ok service⟩ :: before)
        (Blamed s volume)) past :=
    Access.keeps_get trivial (fun _ => ⟨past, rfl⟩) (fun e he => ⟨e, past, rfl, he⟩) fun _ => .call
  apply hread.bind _ fun _ _ he => .inl he
  intro found p hfound
  cases found with
  | none => exact Action.keeps_fail (.inr hfound)
  | some service =>
    obtain ⟨before, rfl⟩ := hfound
    apply Action.keeps_ite
    · intro hbare
      exact Action.keeps_fail (.inl (.bare (by simpa using hbare)))
    · intro _
      cases haddress : (service.text? ["spec", "clusterIP"]).filter (· ≠ "") with
      | none => exact Action.keeps_fail (.inl (.unassigned haddress))
      | some ip => exact Action.keeps_pure trivial

end Backing

end VolumeExport
