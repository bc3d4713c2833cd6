import VolumeExport.Proofs.Backing.Parts

namespace VolumeExport

def Call.alters : Call → Bool
  | .replace .. => true
  | .delete .. => true
  | _ => false

namespace Backing

open Past (Since)

variable {s : Setup} {volume : String} {may : Request → Past → Prop} {past : Past}

/-- What taking down the backing of a volume asks. -/
inductive Takedown (ns volume : String) : Request → Past → Prop
  | quiet {q p} : q.Quiet → Takedown ns volume q p
  | read {r n m p} : Belongs ns volume p r n m → Takedown ns volume (.call (.read r n m)) p
  | replace {r n m o body t p} : Belongs ns volume p r n m → o.Remarks body →
      Takedown ns volume (.call (.replace r n m body))
        (⟨.now, t⟩ :: ⟨.call (.read r n m), .ok o⟩ :: p)
  | deleteService {p} :
      Takedown ns volume (.call (.delete .service (some ns) (some (Name.backing volume)))) p
  | deleteServer {p} : Past.shows (key ns .service volume) p = some false →
      Takedown ns volume (.call (.delete .server (some ns) (some (Name.backing volume)))) p
  | deleteClaim {p} : Past.shows (key ns .service volume) p = some false →
      Past.shows (key ns .server volume) p = some false →
      Takedown ns volume (.call (.delete .claim (some ns) (some (Name.backing volume)))) p

theorem Takedown.within {ns volume : String} {q : Request} {p : Past}
    (h : Takedown ns volume q p) : q.Within (Concerned ns volume) := by
  cases h with
  | quiet hq => exact hq.within _
  | read h => exact Request.within_of_key rfl (.of_belongs h)
  | replace h => exact Request.within_of_key rfl (.of_belongs h)
  | deleteService => exact Request.within_of_key rfl (.of_belongs (p := p) (.part rfl))
  | deleteServer => exact Request.within_of_key rfl (.of_belongs (p := p) (.part rfl))
  | deleteClaim => exact Request.within_of_key rfl (.of_belongs (p := p) (.part rfl))

inductive Alters (ns volume : String) (p : Past) : Call → Prop
  | replace {r n m body} : Belongs ns volume p r n m → Alters ns volume p (.replace r n m body)
  | delete {r n m} : Belongs ns volume p r n m → Alters ns volume p (.delete r n m)

theorem Takedown.alters {ns volume : String} {c : Call} {p : Past}
    (h : Takedown ns volume (.call c) p) (hc : c.alters) : Alters ns volume p c := by
  cases h with
  | quiet hq => exact hq.elim
  | read => cases hc
  | replace h =>
    exact .replace (h.mem fun e he => List.mem_cons_of_mem _ (List.mem_cons_of_mem _ he))
  | deleteService => exact .delete (.part rfl)
  | deleteServer => exact .delete (.part rfl)
  | deleteClaim => exact .delete (.part rfl)

theorem Takedown.name_of_delete {ns volume : String} {r : Resource} {n m : Option String} {p : Past}
    (h : Takedown ns volume (.call (.delete r n m)) p) : m = some (Name.backing volume) := by
  cases h with
  | quiet hq => exact hq.elim
  | deleteService => rfl
  | deleteServer => rfl
  | deleteClaim => rfl

def Gone (ns : String) (r : Resource) (volume : String) (before : Past) :
    Except Fault Unit → Past → Prop :=
  Action.either
    (fun _ p => Since (OnPart ns r volume) before p ∧ Past.shows (key ns r volume) p = some false)
    fun _ p => Since (OnPart ns r volume) before p

theorem keeps_removeFound {goal : Except Fault Unit → Past → Prop} {r : Resource}
    {ns name : Option String} {text : String} (hquiet : ∀ q p, q.Quiet → may q p)
    (hdelete : may (.call (.delete r ns name)) past)
    (hgone : ∀ x p, Call.shows (.delete r ns name) x = some false →
      Since Request.Quiet (⟨.call (.delete r ns name), x⟩ :: past) p → goal (.ok ()) p)
    (hfault : ∀ e x p, Since Request.Quiet (⟨.call (.delete r ns name), x⟩ :: past) p →
      goal (.error e) p) :
    Action.Keeps may goal (do if ← Access.delete r ns name then Action.log text) past := by
  have hdeleted : (Access.delete r ns name).Keeps may
      (Action.either
        (fun _ p => ∃ x, Call.shows (.delete r ns name) x = some false ∧
          p = ⟨.call (.delete r ns name), x⟩ :: past)
        fun _ p => ∃ x, p = ⟨.call (.delete r ns name), x⟩ :: past) past := by
    apply Access.keeps_delete hdelete
    · exact ⟨.ok (), rfl, rfl⟩
    · intro e he
      exact ⟨.error e, if_pos he, rfl⟩
    · intro e
      exact ⟨.error e, rfl⟩
  apply Action.Keeps.bind hdeleted
  · intro deleted _ hafter
    obtain ⟨x, hx, rfl⟩ := hafter
    have hlog {y : Except Instant.Fault Unit} := (Since.refl Request.Quiet
      (⟨.call (.delete r ns name), x⟩ :: past)).cons (e := ⟨.log text, y⟩) trivial
    apply Action.keeps_ite
    · intro _
      exact Action.keeps_log (hquiet _ _ trivial) (hgone x _ hx hlog) fun e => hfault _ x _ hlog
    · intro _
      exact Action.keeps_pure (hgone x _ hx (.refl _ _))
  · intro e _ hafter
    obtain ⟨x, rfl⟩ := hafter
    exact hfault e x _ (.refl _ _)

theorem keeps_remove {target : Hook.Target} {r : Resource} (hr : r.isNamespaced)
    (hdelete : ∀ p, Since (OnPart s.settings.serverNamespace r volume) past p →
      Takedown s.settings.serverNamespace volume
        (.call (.delete r (some s.settings.serverNamespace) (some (Name.backing volume)))) p) :
    (remove s target r (Name.backing volume)).Keeps (Takedown s.settings.serverNamespace volume)
      (Gone s.settings.serverNamespace r volume past) past := by
  have hpart {p} : Belongs s.settings.serverNamespace volume p r (some s.settings.serverNamespace)
      (some (Name.backing volume)) := .part hr
  have hkey : Key.of r (some s.settings.serverNamespace) (some (Name.backing volume)) =
      key s.settings.serverNamespace r volume := of_backing hr
  have hfound {p : Past} (hp : Since (OnPart s.settings.serverNamespace r volume) past p) :
      Action.Keeps (Takedown s.settings.serverNamespace volume)
        (Gone s.settings.serverNamespace r volume past)
        (do
          if ← Access.delete r (some s.settings.serverNamespace) (some (Name.backing volume)) then
            Action.log s!"Deleted {r.kind} {s.settings.serverNamespace}/{Name.backing volume}")
        p := by
    have hdeleted {x p'} (h : Since Request.Quiet (⟨.call (.delete r (some
        s.settings.serverNamespace) (some (Name.backing volume))), x⟩ :: p) p') :=
      (hp.cons (onPart_delete hr)).trans (h.mono fun _ hq => hq.within _)
    apply keeps_removeFound (fun _ _ => .quiet) (hdelete p hp)
    · intro x p' hx hp'
      refine ⟨hdeleted hp', ?_⟩
      rw [hp'.shows_quiet]
      exact Past.shows_call (congrArg some hkey) hx
    · intro e x p' hp'
      exact hdeleted hp'
  apply Action.keeps_ite
  · intro _
    apply Action.Keeps.bind (keeps_modify_hooked (fun _ _ => .quiet) (fun p _ => .read hpart)
      fun t o body p _ hbody => .replace hpart hbody)
    · intro hafter p hafter'
      obtain ⟨found, n⟩ := hafter
      obtain ⟨hp, hshows⟩ := hafter'
      rw [hkey] at hshows
      have hp := hp.widen fun k hk => hk.trans hkey
      cases found with
      | none => exact Action.keeps_pure ⟨hp, hshows⟩
      | some o => exact hfound hp
    · intro e p hp
      exact hp.widen fun k hk => hk.trans hkey
  · intro _
    have hread {x} : Since (OnPart s.settings.serverNamespace r volume) past
        (⟨.call (.read r (some s.settings.serverNamespace) (some (Name.backing volume))), x⟩ ::
          past) :=
      (Since.refl _ _).cons (onPart_read hr)
    refine Action.Keeps.bind (M := Action.either
      (fun (o : Option Object) p => Since (OnPart s.settings.serverNamespace r volume) past p ∧
        Past.shows (key s.settings.serverNamespace r volume) p = some o.isSome)
      fun _ p => Since (OnPart s.settings.serverNamespace r volume) past p)
      (Access.keeps_get (.read hpart) ?_ ?_ ?_) ?_ ?_
    · intro o
      exact ⟨hread, Past.shows_call (congrArg some hkey) rfl⟩
    · intro e he
      exact ⟨hread, Past.shows_call (congrArg some hkey) (if_pos he)⟩
    · intro e
      exact hread
    · intro found p hafter
      obtain ⟨hp, hshows⟩ := hafter
      cases found with
      | none => exact Action.keeps_pure ⟨hp, hshows⟩
      | some o => exact hfound hp
    · intro e p hp
      exact hp

theorem keeps_hookLast :
    Action.Keeps (Takedown s.settings.serverNamespace volume)
      (fun (_ : Except Fault Unit) p => Since (OnStorage s.settings.serverNamespace volume) past p)
      (do
        match ← Access.get .claim (some s.settings.serverNamespace)
            (some (Name.backing volume)) with
        | some claim => hookVolume s .delete claim
        | none => return) past := by
  have hread {x} : Since (OnStorage s.settings.serverNamespace volume) past
      (⟨.call (.read .claim (some s.settings.serverNamespace) (some (Name.backing volume))), x⟩ ::
        past) :=
    (Since.refl _ _).cons (Request.within_of_key rfl (.inr (of_backing rfl)))
  apply Action.Keeps.bind (M := fun found p => ∃ x : Except ApiError Object,
      p = ⟨.call (.read .claim (some s.settings.serverNamespace) (some (Name.backing volume))),
        x⟩ :: past ∧ ∀ claim, found = .ok (some claim) → x = .ok claim)
    (Access.keeps_get (.read (.part rfl)) (fun o => ⟨_, rfl, by rintro _ ⟨⟩; rfl⟩)
      (fun e _ => ⟨_, rfl, nofun⟩) fun e => ⟨_, rfl, nofun⟩)
  · intro found _ hafter
    obtain ⟨x, rfl, hx⟩ := hafter
    cases found with
    | none => exact Action.keeps_pure hread
    | some claim =>
      obtain rfl := hx claim rfl
      have hmem {p} (hp : Since (Request.Within (·.resource = .volume)) _ p) :=
        hp.mem (List.mem_cons_self (a := (⟨.call (.read .claim (some s.settings.serverNamespace)
          (some (Name.backing volume))), .ok claim⟩ : Turn)) (l := past))
      refine (keeps_hookVolume (fun _ _ => .quiet)
        (fun name p hp hn => .read (.storage (hmem hp) hn))
        fun name t o body p hp hn hbody => .replace (.storage (hmem hp) hn) hbody).mono
        (fun _ _ h => h) fun _ p hp => hread.trans (hp.widen fun k hk => .inl hk)
  · intro e _ hafter
    obtain ⟨x, rfl, -⟩ := hafter
    exact hread

/-- Where taking down a backing ends with a value, all of it is known to be gone. -/
theorem keeps_delete :
    (delete s volume).Keeps (Takedown s.settings.serverNamespace volume)
      (Action.either
        (fun _ p => ∀ r : Resource, r.isNamespaced →
          Past.shows (key s.settings.serverNamespace r volume) p = some false)
        fun _ _ => True) past := by
  apply keeps_during_bind (keeps_remove rfl fun _ _ => .deleteService) (fun _ _ => trivial)
  intro _ p₁ hafter
  obtain ⟨h₁, service₁⟩ := hafter
  refine keeps_during_bind (keeps_remove rfl fun p hp => ?_) (fun _ _ => trivial) ?_
  · exact .deleteServer (shows_part hp (by decide) service₁)
  intro _ p₂ hafter
  obtain ⟨h₂, server₂⟩ := hafter
  have service₂ := shows_part h₂ (by decide) service₁
  apply keeps_during_bind keeps_hookLast (fun _ _ => trivial)
  intro _ p₃ h₃
  have server₃ := (h₃.shows_eq (by simp [key])).trans server₂
  have service₃ := (h₃.shows_eq (by simp [key])).trans service₂
  refine keeps_during (keeps_remove rfl fun p hp => ?_) (fun _ _ => trivial) ?_
  · exact .deleteClaim (shows_part hp (by decide) service₃) (shows_part hp (by decide) server₃)
  intro _ p₄ hafter r hr
  obtain ⟨h₄, claim₄⟩ := hafter
  cases r with
  | claim => exact claim₄
  | server => exact shows_part h₄ (by decide) server₃
  | service => exact shows_part h₄ (by decide) service₃
  | _ => cases hr

end Backing

end VolumeExport
