import VolumeExport.Proofs.Access
import VolumeExport.Proofs.Remark

namespace VolumeExport

theorem Name.backing_inj {v w : String} : Name.backing v = Name.backing w ↔ v = w :=
  String.append_right_inj Name.backingStem

theorem Name.volumeOf?_eq_some {name v : String} :
    Name.volumeOf? name = some v ↔ name = Name.backing v := by
  rw [Name.volumeOf?]
  constructor
  · intro h
    split at h
    · next hprefix =>
      obtain ⟨t, ht⟩ := List.isPrefixOf_iff_prefix.1 hprefix
      rw [← ht, List.drop_left] at h
      cases h
      rw [← String.toList_inj, ← ht, Name.backing, String.toList_append, String.toList_ofList]
    · cases h
  · rintro rfl
    rw [Name.backing, String.toList_append, List.drop_left, String.ofList_toList, if_pos]
    exact List.isPrefixOf_iff_prefix.2 (List.prefix_append _ _)

namespace Backing

open Past (Since Unseen)

def key (ns : String) (r : Resource) (volume : String) : Key :=
  ⟨r, some ns, some (Name.backing volume)⟩

theorem of_backing {ns volume : String} {r : Resource} (h : r.isNamespaced) :
    Key.of r (some ns) (some (Name.backing volume)) = key ns r volume := by
  rw [Key.of, if_pos h, key]

theorem key_inj {ns v w : String} {r t : Resource} : key ns r v = key ns t w ↔ r = t ∧ v = w := by
  simp only [key, Key.mk.injEq, Option.some.injEq, Name.backing_inj, true_and]

theorem key_ne {ns v w : String} {r t : Resource} (h : r ≠ t) : key ns r v ≠ key ns t w :=
  fun hk => h (key_inj.1 hk).1

abbrev OnPart (ns : String) (r : Resource) (volume : String) : Request → Prop :=
  Request.Within (· = key ns r volume)

theorem onPart_read {ns volume : String} {r : Resource} (h : r.isNamespaced) :
    OnPart ns r volume (.call (.read r (some ns) (some (Name.backing volume)))) :=
  Request.within_of_key rfl (of_backing h)

theorem onPart_delete {ns volume : String} {r : Resource} (h : r.isNamespaced) :
    OnPart ns r volume (.call (.delete r (some ns) (some (Name.backing volume)))) :=
  Request.within_of_key rfl (of_backing h)

/-- The objects that an operation on a volume may touch: the parts of the backing, and the volume
that it has read to be the one that the claim is bound to. -/
inductive Belongs (ns volume : String) (p : Past) : Resource → Option String → Option String → Prop
  | part {r : Resource} : r.isNamespaced →
      Belongs ns volume p r (some ns) (some (Name.backing volume))
  | storage {name : String} {claim : Object} :
      ⟨.call (.read .claim (some ns) (some (Name.backing volume))), .ok claim⟩ ∈ p →
      claim.text? ["spec", "volumeName"] = some name →
      Belongs ns volume p .volume none (some name)

theorem Belongs.mem {ns volume : String} {p p' : Past} {r : Resource} {n m : Option String}
    (h : Belongs ns volume p r n m) (hp : ∀ e ∈ p, e ∈ p') : Belongs ns volume p' r n m := by
  cases h with
  | part hr => exact .part hr
  | storage hc hn => exact .storage (hp _ hc) hn

def Concerned (ns volume : String) (k : Key) : Prop :=
  k.resource = .volume ∨ ∃ r : Resource, r.isNamespaced ∧ k = key ns r volume

theorem Concerned.of_belongs {ns volume : String} {p : Past} {r : Resource} {n m : Option String}
    (h : Belongs ns volume p r n m) : Concerned ns volume (.of r n m) := by
  cases h with
  | part hr => exact .inr ⟨r, hr, of_backing hr⟩
  | storage => exact .inl rfl

/-- A request about the storage of a volume, which is its claim and what that is bound to. -/
abbrev OnStorage (ns volume : String) : Request → Prop :=
  Request.Within fun k => k.resource = .volume ∨ k = key ns .claim volume

variable {s : Setup} {volume : String} {may : Request → Past → Prop} {past : Past}

theorem shows_part {ns : String} {r t : Resource} {before : Past} {b : Bool}
    (h : Since (OnPart ns t volume) before past) (hrt : r ≠ t)
    (hb : Past.shows (key ns r volume) before = some b) :
    Past.shows (key ns r volume) past = some b :=
  (h.shows_eq (key_ne hrt)).trans hb

theorem unseen_part {ns : String} {r t : Resource} {before : Past}
    (h : Since (OnPart ns t volume) before past) (hrt : r ≠ t)
    (hu : Unseen (key ns r volume) before) : Unseen (key ns r volume) past :=
  h.unseen (key_ne hrt) hu

section

variable {α β : Type} {step : Step} {M : Except Fault α → Past → Prop} {a : Action α}

theorem keeps_during {goal : Except Fault α → Past → Prop} (h : a.Keeps may M past)
    (herror : ∀ e p, goal (.error e) p) (hok : ∀ x p, M (.ok x) p → goal (.ok x) p) :
    (during step volume a).Keeps may goal past :=
  h.orElseFault hok fun _ p _ => herror _ p

theorem keeps_during_bind {goal : Except Fault β → Past → Prop} {f : α → Action β}
    (h : a.Keeps may M past) (herror : ∀ e p, goal (.error e) p)
    (hok : ∀ x p, M (.ok x) p → (f x).Keeps may goal p) :
    (during step volume a >>= f).Keeps may goal past :=
  Action.Keeps.bind (M := Action.either (fun x p => M (.ok x) p) fun _ _ => True)
    (keeps_during h (fun _ _ => trivial) fun _ _ hx => hx) hok fun e p _ => herror e p

end

theorem keeps_modify_hooked {target : Hook.Target} {event : Hook.Event} {r : Resource}
    {n m : Option String}
    (hquiet : ∀ q p, q.Quiet → may q p)
    (hread : ∀ p, Since (Access.On r n m) past p → may (.call (.read r n m)) p)
    (hreplace : ∀ t o body p, Since (Access.On r n m) past p → o.Remarks body →
      may (.call (.replace r n m body)) (⟨.now, t⟩ :: ⟨.call (.read r n m), .ok o⟩ :: p)) :
    (Access.modify r n m (hooked s.hooks target event r)).Keeps may
      (Action.either
        (fun c p => Since (Access.On r n m) past p ∧
          Past.shows (.of r n m) p = some c.object.isSome)
        fun _ p => Since (Access.On r n m) past p) past :=
  Access.keeps_modify hread (fun p _ => hquiet .now p trivial) fun t o body p hp hbody _ =>
    hreplace t o body p hp (hooked_remarks hbody)

theorem keeps_hookVolume {event : Hook.Event} {claim : Object}
    (hquiet : ∀ q p, q.Quiet → may q p)
    (hread : ∀ name p, Since (Request.Within (·.resource = .volume)) past p →
      claim.text? ["spec", "volumeName"] = some name → may (.call (.read .volume none name)) p)
    (hreplace : ∀ name t o body p, Since (Request.Within (·.resource = .volume)) past p →
      claim.text? ["spec", "volumeName"] = some name → o.Remarks body →
      may (.call (.replace .volume none name body))
        (⟨.now, t⟩ :: ⟨.call (.read .volume none name), .ok o⟩ :: p)) :
    (hookVolume s event claim).Keeps may
      (fun _ p => Since (Request.Within (·.resource = .volume)) past p) past := by
  apply Action.keeps_ite
  · intro _
    cases hname : (claim.text? ["spec", "volumeName"]).filter (· ≠ "") with
    | none => exact Action.keeps_pure (.refl _ _)
    | some name =>
      have hbound := (Option.filter_eq_some_iff.1 hname).1
      have hon {p} (hp : Since (Access.On .volume none name) past p) :
          Since (Request.Within (·.resource = .volume)) past p := by
        apply hp.widen
        rintro _ rfl
        rfl
      apply Action.Keeps.bind (keeps_modify_hooked hquiet (fun p hp => hread name p (hon hp) hbound)
        fun t o body p hp => hreplace name t o body p (hon hp) hbound)
      · intro m p hp
        exact Action.keeps_pure (hon hp.1)
      · intro e p hp
        exact hon hp
  · intro _
    exact Action.keeps_pure (.refl _ _)

end Backing

end VolumeExport
