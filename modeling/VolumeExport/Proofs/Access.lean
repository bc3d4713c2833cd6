import VolumeExport.Proofs.Evidence

namespace VolumeExport.Access

open Past (Since)

variable {may : Request → Past → Prop} {past : Past} {r : Resource} {ns name : Option String}

theorem keeps_get {goal : Except Fault (Option Object) → Past → Prop}
    (hmay : may (.call (.read r ns name)) past)
    (hsome : ∀ o, goal (.ok (some o)) (⟨.call (.read r ns name), .ok o⟩ :: past))
    (hnone : ∀ e : ApiError, e.isNotFound →
      goal (.ok none) (⟨.call (.read r ns name), .error e⟩ :: past))
    (hfault : ∀ e : ApiError,
      goal (.error (.api e)) (⟨.call (.read r ns name), .error e⟩ :: past)) :
    (get r ns name).Keeps may goal past := by
  apply Action.keeps_ask hmay
  intro x
  cases x with
  | ok o => exact Action.keeps_pure (hsome o)
  | error e =>
    exact Action.keeps_ite (fun he => Action.keeps_pure (hnone e he)) fun _ =>
      Action.keeps_fail (hfault e)

theorem keeps_create {body : Object} {goal : Except Fault (Option Object) → Past → Prop}
    (hmay : may (.call (.create r ns body)) past)
    (hsome : ∀ o, goal (.ok (some o)) (⟨.call (.create r ns body), .ok o⟩ :: past))
    (hnone : ∀ e : ApiError, e.isConflict →
      goal (.ok none) (⟨.call (.create r ns body), .error e⟩ :: past))
    (hfault : ∀ e : ApiError,
      goal (.error (.api e)) (⟨.call (.create r ns body), .error e⟩ :: past)) :
    (create r ns body).Keeps may goal past := by
  apply Action.keeps_ask hmay
  intro x
  cases x with
  | ok o => exact Action.keeps_pure (hsome o)
  | error e =>
    exact Action.keeps_ite (fun he => Action.keeps_pure (hnone e he)) fun _ =>
      Action.keeps_fail (hfault e)

theorem keeps_delete {goal : Except Fault Bool → Past → Prop}
    (hmay : may (.call (.delete r ns name)) past)
    (htrue : goal (.ok true) (⟨.call (.delete r ns name), .ok ()⟩ :: past))
    (hfalse : ∀ e : ApiError, e.isNotFound →
      goal (.ok false) (⟨.call (.delete r ns name), .error e⟩ :: past))
    (hfault : ∀ e : ApiError,
      goal (.error (.api e)) (⟨.call (.delete r ns name), .error e⟩ :: past)) :
    (delete r ns name).Keeps may goal past := by
  apply Action.keeps_ask hmay
  intro x
  cases x with
  | ok => exact Action.keeps_pure htrue
  | error e =>
    exact Action.keeps_ite (fun he => Action.keeps_pure (hfalse e he)) fun _ =>
      Action.keeps_fail (hfault e)

theorem keeps_listAll {selector : Option String} {goal : Except Fault (List Object) → Past → Prop}
    (hmay : may (.call (.list r ns selector)) past)
    (hok : ∀ page : Page, goal (.ok page.items) (⟨.call (.list r ns selector), .ok page⟩ :: past))
    (hfault : ∀ x f, goal (.error f) (⟨.call (.list r ns selector), x⟩ :: past)) :
    (listAll r ns selector).Keeps may goal past := by
  apply Action.keeps_ask hmay
  intro x
  cases x with
  | ok page =>
    exact Action.keeps_ite (fun _ => Action.keeps_fail (hfault (.ok page) _)) fun _ =>
      Action.keeps_pure (hok page)
  | error e => exact Action.keeps_fail (hfault (.error e) _)

abbrev On (r : Resource) (ns name : Option String) : Request → Prop :=
  Request.Within (· = Key.of r ns name)

theorem on_read : On r ns name (.call (.read r ns name)) := Request.within_of_key rfl rfl

theorem on_replace {body : Object} : On r ns name (.call (.replace r ns name body)) :=
  Request.within_of_key rfl rfl

section

variable {change : Except Instant.Fault Instant → Object → Except Fault Object}

/-- Rounds of a change, each lost because the object had been written since it was read. -/
inductive Lost (r : Resource) (ns name : Option String)
    (change : Except Instant.Fault Instant → Object → Except Fault Object) (before : Past) :
    Past → Prop
  | start : Lost r ns name change before before
  | round {t o body e p} : Lost r ns name change before p → change t o = .ok body → body ≠ o →
      e.isConflict → Lost r ns name change before
        (⟨.call (.replace r ns name body), .error e⟩ :: ⟨.now, t⟩ ::
          ⟨.call (.read r ns name), .ok o⟩ :: p)

/-- What a change asks: an object is written back only as the change has made it from what was read
right before. -/
inductive Asks (r : Resource) (ns name : Option String)
    (change : Except Instant.Fault Instant → Object → Except Fault Object) (before : Past) :
    Request → Past → Prop
  | read {p} : Lost r ns name change before p →
      Asks r ns name change before (.call (.read r ns name)) p
  | now {o p} : Lost r ns name change before p →
      Asks r ns name change before .now (⟨.call (.read r ns name), .ok o⟩ :: p)
  | replace {t o body p} : Lost r ns name change before p → change t o = .ok body → body ≠ o →
      Asks r ns name change before (.call (.replace r ns name body))
        (⟨.now, t⟩ :: ⟨.call (.read r ns name), .ok o⟩ :: p)

/-- How the last round of a change ends with a value. -/
inductive Settles (r : Resource) (ns name : Option String)
    (change : Except Instant.Fault Instant → Object → Except Fault Object) (before : Past) :
    Modified → Past → Prop
  | absent {e n p} : Lost r ns name change before p → e.isNotFound →
      Settles r ns name change before ⟨none, n⟩ (⟨.call (.read r ns name), .error e⟩ :: p)
  | same {t o n p} : Lost r ns name change before p → change t o = .ok o →
      Settles r ns name change before ⟨some o, n⟩
        (⟨.now, t⟩ :: ⟨.call (.read r ns name), .ok o⟩ :: p)
  | written {t o body o' n p} : Lost r ns name change before p → change t o = .ok body →
      Settles r ns name change before ⟨some o', n⟩
        (⟨.call (.replace r ns name body), .ok o'⟩ :: ⟨.now, t⟩ ::
          ⟨.call (.read r ns name), .ok o⟩ :: p)
  | gone {t o body e n p} : Lost r ns name change before p → change t o = .ok body →
      e.isNotFound → Settles r ns name change before ⟨none, n⟩
        (⟨.call (.replace r ns name body), .error e⟩ :: ⟨.now, t⟩ ::
          ⟨.call (.read r ns name), .ok o⟩ :: p)

theorem Lost.since {p : Past} (h : Lost r ns name change past p) : Since (On r ns name) past p := by
  induction h with
  | start => exact .refl _ _
  | round _ _ _ _ ih => exact ((ih.cons on_read).cons (e := ⟨.now, _⟩) trivial).cons on_replace

theorem Settles.since {m : Modified} {p : Past} (h : Settles r ns name change past m p) :
    Since (On r ns name) past p := by
  cases h with
  | absent h => exact h.since.cons on_read
  | same h => exact (h.since.cons on_read).cons trivial
  | written h => exact ((h.since.cons on_read).cons (e := ⟨.now, _⟩) trivial).cons on_replace
  | gone h => exact ((h.since.cons on_read).cons (e := ⟨.now, _⟩) trivial).cons on_replace

theorem Settles.shows {m : Modified} {p : Past} (h : Settles r ns name change past m p) :
    Past.shows (.of r ns name) p = some m.object.isSome := by
  cases h with
  | absent _ he => exact Past.shows_call rfl (if_pos he)
  | same =>
    rw [Past.shows_skip rfl]
    exact Past.shows_call rfl rfl
  | written => exact Past.shows_call rfl rfl
  | gone _ _ he => exact Past.shows_call rfl (if_pos he)

theorem keeps_modify_rounds :
    (modify r ns name change).Keeps (Asks r ns name change past)
      (Action.either (Settles r ns name change past) fun _ p => Since (On r ns name) past p)
      past := by
  apply Action.keeps_rounds (I := fun _ p => Lost r ns name change past p) .start
    (fun _ _ hp => .read hp)
  intro n p hp (x : Except ApiError Object)
  have hp' : Since (On r ns name) past (⟨.call (.read r ns name), x⟩ :: p) :=
    hp.since.cons on_read
  cases x with
  | error e =>
    refine Action.keeps_ite (fun he => Action.keeps_pure ?_) fun _ => Action.keeps_fail hp'
    exact Settles.absent hp he
  | ok o =>
    apply Action.keeps_ask (.now hp)
    intro t
    have hnow' : Since (On r ns name) past
        (⟨.now, t⟩ :: ⟨.call (.read r ns name), .ok o⟩ :: p) := hp'.cons trivial
    apply Action.keeps_ofExcept_bind _ fun _ _ => hnow'
    intro body hbody
    refine Action.keeps_ite (fun heq => Action.keeps_pure ?_) fun hne => ?_
    · exact Settles.same hp (heq ▸ hbody)
    · apply Action.keeps_ask (.replace hp hbody hne)
      intro y
      cases y with
      | ok written => exact Action.keeps_pure (Settles.written hp hbody)
      | error e =>
        refine Action.keeps_ite (fun he => ?_) fun _ => Action.keeps_ite (fun he => ?_) fun _ => ?_
        · exact Action.keeps_pure (Settles.gone hp hbody he)
        · exact Action.keeps_pure (.round hp hbody hne he)
        · exact Action.keeps_fail (hnow'.cons on_replace)

theorem keeps_modify
    (hread : ∀ p, Since (On r ns name) past p → may (.call (.read r ns name)) p)
    (hnow : ∀ p, Since (On r ns name) past p → may .now p)
    (hreplace : ∀ t o body p, Since (On r ns name) past p → change t o = .ok body → body ≠ o →
      may (.call (.replace r ns name body)) (⟨.now, t⟩ :: ⟨.call (.read r ns name), .ok o⟩ :: p)) :
    (modify r ns name change).Keeps may
      (Action.either
        (fun m p => Since (On r ns name) past p ∧
          Past.shows (.of r ns name) p = some m.object.isSome)
        fun _ p => Since (On r ns name) past p) past := by
  refine keeps_modify_rounds.mono (fun q p hq => ?_) fun x p hx => ?_
  · cases hq with
    | read h => exact hread p h.since
    | now h => exact hnow _ (h.since.cons on_read)
    | replace h hbody hne => exact hreplace _ _ _ _ h.since hbody hne
  · cases x with
    | ok m => exact ⟨hx.since, hx.shows⟩
    | error e => exact hx

end

end VolumeExport.Access
