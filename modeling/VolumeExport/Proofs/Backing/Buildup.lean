import VolumeExport.Proofs.Backing.Parts

namespace VolumeExport.Backing

open Past (Since Unseen)

/-- What making the backing of a volume asks. -/
inductive Buildup (s : Setup) (volume : String) (plan : Plan) : Request → Past → Prop
  | quiet {q p} : q.Quiet → Buildup s volume plan q p
  | read {r n m p} : Belongs s.settings.serverNamespace volume p r n m →
      Buildup s volume plan (.call (.read r n m)) p
  | replace {m o body t p} : Belongs s.settings.serverNamespace volume p .volume none m →
      o.Remarks body →
      Buildup s volume plan (.call (.replace .volume none m body))
        (⟨.now, t⟩ :: ⟨.call (.read .volume none m), .ok o⟩ :: p)
  | createClaim {body p} : (Manifest.claim s.settings.serverNamespace volume plan).Remarks body →
      Unseen (key s.settings.serverNamespace .claim volume) p →
      Buildup s volume plan (.call (.create .claim (some s.settings.serverNamespace) body)) p
  | createServer {body p} : (Manifest.server s.settings volume plan.config).Remarks body →
      Unseen (key s.settings.serverNamespace .server volume) p →
      Past.shows (key s.settings.serverNamespace .claim volume) p = some true →
      Buildup s volume plan (.call (.create .server (some s.settings.serverNamespace) body)) p
  | createService {body p} : (Manifest.service s.settings.serverNamespace volume).Remarks body →
      Unseen (key s.settings.serverNamespace .service volume) p →
      Past.shows (key s.settings.serverNamespace .claim volume) p = some true →
      Past.shows (key s.settings.serverNamespace .server volume) p = some true →
      Buildup s volume plan (.call (.create .service (some s.settings.serverNamespace) body)) p

theorem Buildup.within {s : Setup} {volume : String} {plan : Plan} {q : Request} {p : Past}
    (h : Buildup s volume plan q p) : q.Within (Concerned s.settings.serverNamespace volume) := by
  have hcreate {r : Resource} {manifest body : Object} (hr : r.isNamespaced)
      (hname : manifest.knownMetadata.name = some (Name.backing volume))
      (hbody : manifest.Remarks body) :
      (Request.call (.create r (some s.settings.serverNamespace) body)).Within
        (Concerned s.settings.serverNamespace volume) :=
    Request.within_of_key rfl (.inr ⟨r, hr, by rw [hbody.name_eq, hname, of_backing hr]⟩)
  cases h with
  | quiet hq => exact hq.within _
  | read h => exact Request.within_of_key rfl (.of_belongs h)
  | replace h => exact Request.within_of_key rfl (.of_belongs h)
  | createClaim hbody => exact hcreate rfl rfl hbody
  | createServer hbody => exact hcreate rfl rfl hbody
  | createService hbody => exact hcreate rfl rfl hbody

def There {α : Type} (ns : String) (r : Resource) (volume : String) (before : Past) :
    Except Fault α → Past → Prop :=
  Action.either
    (fun _ p => Since (OnPart ns r volume) before p ∧ Past.shows (key ns r volume) p = some true)
    fun _ p => Since (OnPart ns r volume) before p

variable {s : Setup} {volume : String} {may : Request → Past → Prop} {past : Past}

theorem There.later {α : Type} {ns : String} {r : Resource} {before p p' : Past}
    {x : Except Fault α} (h : Since (OnPart ns r volume) before p)
    (hshows : Past.shows (key ns r volume) p = some true) (hp : Since Request.Quiet p p') :
    There ns r volume before x p' := by
  have hsince := h.trans (hp.mono fun _ hq => hq.within _)
  cases x with
  | ok a => exact ⟨hsince, (hp.shows_quiet _).trans hshows⟩
  | error e => exact hsince

theorem keeps_make {target : Hook.Target} {r : Resource} {manifest : Object} (hr : r.isNamespaced)
    (hname : manifest.knownMetadata.name = some (Name.backing volume))
    (hunseen : Unseen (key s.settings.serverNamespace r volume) past)
    (hquiet : ∀ q p, q.Quiet → may q p)
    (hcreate : ∀ body p, manifest.Remarks body →
      Unseen (key s.settings.serverNamespace r volume) p →
      Since (OnPart s.settings.serverNamespace r volume) past p →
      may (.call (.create r (some s.settings.serverNamespace) body)) p) :
    (make s target r manifest).Keeps may (There s.settings.serverNamespace r volume past) past := by
  apply Action.keeps_ask (hquiet .now past trivial)
  intro t
  have hnow : Since (OnPart s.settings.serverNamespace r volume) past (⟨.now, t⟩ :: past) :=
    (Since.refl _ _).cons trivial
  apply Action.keeps_ofExcept_bind _ fun _ _ => hnow
  intro body hbody
  have hremarks := hooked_remarks hbody
  have hunseen' : Unseen (key s.settings.serverNamespace r volume) (⟨.now, t⟩ :: past) :=
    List.forall_mem_cons.2 ⟨nofun, hunseen⟩
  have hkey : Call.key? (.create r (some s.settings.serverNamespace) body) =
      some (key s.settings.serverNamespace r volume) := by
    rw [Call.key?, hremarks.name_eq, hname, of_backing hr]
  have hcreated {x} : Since (OnPart s.settings.serverNamespace r volume) past
      (⟨.call (.create r (some s.settings.serverNamespace) body), x⟩ :: ⟨.now, t⟩ :: past) :=
    hnow.cons (Request.within_of_key hkey rfl)
  refine Action.Keeps.bind (M := There s.settings.serverNamespace r volume past)
    (Access.keeps_create (hcreate body _ hremarks hunseen' hnow) ?_ ?_ ?_) ?_ ?_
  · intro o
    exact ⟨hcreated, Past.shows_call hkey rfl⟩
  · intro e he
    exact ⟨hcreated, Past.shows_call hkey (if_pos he)⟩
  · intro e
    exact hcreated
  · intro made p hafter
    obtain ⟨hp, hshows⟩ := hafter
    cases made with
    | none => exact Action.keeps_log_quiet (hquiet _ _ trivial) fun _ _ => There.later hp hshows
    | some o => exact Action.keeps_log_quiet (hquiet _ _ trivial) fun _ _ => There.later hp hshows
  · intro e p hp
    exact hp

theorem keeps_ensure {target : Hook.Target} {r : Resource} {present : String} {manifest : Object}
    (hr : r.isNamespaced) (hname : manifest.knownMetadata.name = some (Name.backing volume))
    (hunseen : Unseen (key s.settings.serverNamespace r volume) past)
    (hquiet : ∀ q p, q.Quiet → may q p)
    (hread : may (.call (.read r (some s.settings.serverNamespace) (some (Name.backing volume))))
      past)
    (hcreate : ∀ body p, manifest.Remarks body →
      Unseen (key s.settings.serverNamespace r volume) p →
      Since (OnPart s.settings.serverNamespace r volume) past p →
      may (.call (.create r (some s.settings.serverNamespace) body)) p) :
    (ensure s target r (Name.backing volume) present manifest).Keeps may
      (There s.settings.serverNamespace r volume past) past := by
  have hkey : Key.of r (some s.settings.serverNamespace) (some (Name.backing volume)) =
      key s.settings.serverNamespace r volume := of_backing hr
  have hone {x} : Since (OnPart s.settings.serverNamespace r volume) past
      (⟨.call (.read r (some s.settings.serverNamespace) (some (Name.backing volume))), x⟩ ::
        past) :=
    (Since.refl _ _).cons (onPart_read hr)
  refine Action.Keeps.bind (M := Action.either
    (fun (found : Option Object) p => Since (OnPart s.settings.serverNamespace r volume) past p ∧
      Past.shows (key s.settings.serverNamespace r volume) p = some found.isSome ∧
      (found = none → Unseen (key s.settings.serverNamespace r volume) p))
    fun _ p => Since (OnPart s.settings.serverNamespace r volume) past p)
    (Access.keeps_get hread ?_ ?_ ?_) ?_ ?_
  · intro o
    exact ⟨hone, Past.shows_call (congrArg some hkey) rfl, nofun⟩
  · intro e he
    refine ⟨hone, Past.shows_call (congrArg some hkey) (if_pos he), fun _ => ?_⟩
    apply List.forall_mem_cons.2 ⟨_, hunseen⟩
    simp [Turn.shows, Call.shows, he]
  · intro e
    exact hone
  · intro found p hafter
    obtain ⟨hp, hshows, hun⟩ := hafter
    cases found with
    | some o =>
      exact Action.keeps_log_quiet (hquiet _ _ trivial) fun _ _ => There.later hp hshows
    | none =>
      apply (keeps_make hr hname (hun rfl) hquiet fun body p' hbody hu hp' =>
        hcreate body p' hbody hu (hp.trans hp')).mono (fun _ _ h => h)
      intro x p' hx
      cases x with
      | ok => exact ⟨hp.trans hx.1, hx.2⟩
      | error e => exact hp.trans hx
  · intro e p hp
    exact hp

theorem keeps_awaitBound (hquiet : ∀ q p, q.Quiet → may q p)
    (hread : ∀ p, may (.call (.read .claim (some s.settings.serverNamespace)
      (some (Name.backing volume)))) p) :
    (awaitBound s (Name.backing volume)).Keeps may
      (Action.either
        (fun claim p => Since (OnPart s.settings.serverNamespace .claim volume) past p ∧
          Past.shows (key s.settings.serverNamespace .claim volume) p = some true ∧
          ⟨.call (.read .claim (some s.settings.serverNamespace) (some (Name.backing volume))),
            .ok claim⟩ ∈ p)
        fun _ p => Since (OnPart s.settings.serverNamespace .claim volume) past p) past := by
  apply Action.keeps_ask (hquiet (.deadline s.settings.bindTimeout) past trivial)
  intro (deadline : Rat)
  refine Action.keeps_rounds
    (I := fun _ p => Since (OnPart s.settings.serverNamespace .claim volume) past p)
    ((Since.refl _ _).cons trivial) (fun _ p _ => hread p)
    fun _ p hp (x : Except ApiError Object) => ?_
  have hp' : Since (OnPart s.settings.serverNamespace .claim volume) past
      (⟨.call (.read .claim (some s.settings.serverNamespace) (some (Name.backing volume))), x⟩ ::
        p) := hp.cons (onPart_read rfl)
  cases x with
  | error e =>
    exact Action.keeps_ite (fun _ => Action.keeps_fail hp') fun _ => Action.keeps_fail hp'
  | ok claim =>
    refine Action.keeps_ite (fun _ => Action.keeps_pure ?_) fun _ => ?_
    · exact ⟨hp', Past.shows_call (congrArg some (of_backing rfl)) rfl, List.mem_cons_self⟩
    · apply Action.keeps_ask (hquiet .uptime _ trivial)
      intro (uptime : Rat)
      have hp' := hp'.cons (e := ⟨.uptime, uptime⟩) trivial
      apply Action.keeps_ite (fun _ => Action.keeps_fail hp')
      intro _
      apply Action.keeps_ask (hquiet (.sleep pollInterval) _ trivial)
      intro _
      exact Action.keeps_pure (hp'.cons trivial)

theorem keeps_address (hshows : Past.shows (key s.settings.serverNamespace .service volume) past =
      some true)
    (hread : may (.call (.read .service (some s.settings.serverNamespace)
      (some (Name.backing volume)))) past) :
    (address s (Name.backing volume)).Keeps may
      (There s.settings.serverNamespace .service volume past) past := by
  apply Action.keeps_ite
  · intro _
    exact Action.keeps_pure ⟨.refl _ _, hshows⟩
  · intro _
    have hone {x} : Since (OnPart s.settings.serverNamespace .service volume) past
        (⟨.call (.read .service (some s.settings.serverNamespace) (some (Name.backing volume))),
          x⟩ :: past) :=
      (Since.refl _ _).cons (onPart_read rfl)
    apply Action.Keeps.bind (M := Action.either
      (fun (found : Option Object) p =>
        Since (OnPart s.settings.serverNamespace .service volume) past p ∧
        Past.shows (key s.settings.serverNamespace .service volume) p = some found.isSome)
      fun _ p => Since (OnPart s.settings.serverNamespace .service volume) past p)
      (Access.keeps_get hread
        (fun o => ⟨hone, Past.shows_call (congrArg some (of_backing rfl)) rfl⟩)
        (fun e he => ⟨hone, Past.shows_call (congrArg some (of_backing rfl)) (if_pos he)⟩)
        fun e => hone)
    · intro found p hafter
      obtain ⟨hp, hfound⟩ := hafter
      cases found with
      | none => exact Action.keeps_fail hp
      | some service =>
        apply Action.keeps_ite (fun _ => Action.keeps_fail hp)
        intro _
        cases (service.text? ["spec", "clusterIP"]).filter (· ≠ "") with
        | none => exact Action.keeps_fail hp
        | some ip => exact Action.keeps_pure ⟨hp, hfound⟩
    · intro e p hp
      exact hp

/-- Where making a backing ends with a value, all of it is known to be there. -/
theorem keeps_create (plan : Plan)
    (hunseen : ∀ r : Resource, r.isNamespaced →
      Unseen (key s.settings.serverNamespace r volume) past) :
    (create s volume plan).Keeps (Buildup s volume plan)
      (Action.either
        (fun _ p => ∀ r : Resource, r.isNamespaced →
          Past.shows (key s.settings.serverNamespace r volume) p = some true)
        fun _ _ => True) past := by
  apply keeps_during_bind (keeps_ensure rfl rfl (hunseen .claim rfl) (fun _ _ => .quiet)
    (.read (.part rfl)) fun body p hbody hu _ => .createClaim hbody hu) (fun _ _ => trivial)
  -- The index counts the steps; by `u` and `v` the server and the service were not seen before.
  intro _ p₁ hafter
  obtain ⟨h₁, claim₁⟩ := hafter
  have u₁ := unseen_part h₁ (by decide) (hunseen .server rfl)
  have v₁ := unseen_part h₁ (by decide) (hunseen .service rfl)
  refine keeps_during_bind (keeps_ensure rfl rfl u₁ (fun _ _ => .quiet) (.read (.part rfl))
    fun body p hbody hu hp => ?_) (fun _ _ => trivial) ?_
  · exact .createServer hbody hu (shows_part hp (by decide) claim₁)
  intro _ p₂ hafter
  obtain ⟨h₂, server₂⟩ := hafter
  have v₂ := unseen_part h₂ (by decide) v₁
  apply keeps_during_bind (keeps_awaitBound (fun _ _ => .quiet) fun p => .read (.part rfl))
    (fun _ _ => trivial)
  intro claim p₃ hafter
  obtain ⟨h₃, claim₃, hclaim⟩ := hafter
  have v₃ := unseen_part h₃ (by decide) v₂
  have server₃ := shows_part h₃ (by decide) server₂
  apply keeps_during_bind (keeps_hookVolume (fun _ _ => .quiet)
    (fun name p hp hn => .read (.storage (hp.mem hclaim) hn))
    fun name t o body p hp hn hbody => .replace (.storage (hp.mem hclaim) hn) hbody)
    (fun _ _ => trivial)
  intro _ p₄ h₄
  have v₄ := h₄.unseen (by simp [key]) v₃
  have claim₄ := (h₄.shows_eq (by simp [key])).trans claim₃
  have server₄ := (h₄.shows_eq (by simp [key])).trans server₃
  refine keeps_during_bind (keeps_ensure rfl rfl v₄ (fun _ _ => .quiet) (.read (.part rfl))
    fun body p hbody hu hp => ?_) (fun _ _ => trivial) ?_
  · exact .createService hbody hu (shows_part hp (by decide) claim₄)
      (shows_part hp (by decide) server₄)
  intro _ p₅ hafter
  obtain ⟨h₅, service₅⟩ := hafter
  have claim₅ := shows_part h₅ (by decide) claim₄
  have server₅ := shows_part h₅ (by decide) server₄
  apply keeps_during (keeps_address service₅ (.read (.part rfl))) (fun _ _ => trivial)
  intro ip p₆ hafter r hr
  obtain ⟨h₆, service₆⟩ := hafter
  cases r with
  | claim => exact shows_part h₆ (by decide) claim₅
  | server => exact shows_part h₆ (by decide) server₅
  | service => exact service₆
  | _ => cases hr

end VolumeExport.Backing
