import VolumeExport.Backing

namespace VolumeExport

/-- An object that differs from another in its annotations and finalizers at most. -/
def Object.Remarks (o body : Object) : Prop :=
  body.rest = o.rest ∧
    ∃ annotations finalizers, body.knownMetadata =
      { o.knownMetadata with annotations := annotations, finalizers := finalizers }

namespace Object.Remarks

variable {o body : Object}

theorem refl (o : Object) : o.Remarks o := ⟨rfl, _, _, rfl⟩

theorem name_eq (h : o.Remarks body) : body.knownMetadata.name = o.knownMetadata.name := by
  obtain ⟨-, _, _, hm⟩ := h
  rw [hm]

theorem labels_eq (h : o.Remarks body) : body.knownMetadata.labels = o.knownMetadata.labels := by
  obtain ⟨-, _, _, hm⟩ := h
  rw [hm]

theorem resourceVersion_eq (h : o.Remarks body) :
    body.knownMetadata.resourceVersion = o.knownMetadata.resourceVersion := by
  obtain ⟨-, _, _, hm⟩ := h
  rw [hm]

theorem key_eq (h : o.Remarks body) (r : Resource) :
    Key.ofMetadata r body.knownMetadata = Key.ofMetadata r o.knownMetadata := by
  obtain ⟨-, _, _, hm⟩ := h
  rw [hm]
  rfl

end Object.Remarks

namespace Hook

theorem perform_eq (h : Hook) (target : Target) (event : Hook.Event) (now : Instant)
    (m : Metadata) :
    ∃ annotations finalizers,
      h.perform target event now m =
        { m with annotations := annotations, finalizers := finalizers } := by
  rw [perform]
  split
  · split
    · cases h.action with
      | add => exact ⟨_, _, rfl⟩
      | remove => exact ⟨_, _, rfl⟩
    · exact ⟨m.annotations, m.finalizers, rfl⟩
  · exact ⟨m.annotations, m.finalizers, rfl⟩

end Hook

namespace Hooks

open Hook (Target)

theorem performAll_eq (hooks : Hooks) (target : Target) (event : Hook.Event) (now : Instant)
    (m : Metadata) :
    ∃ annotations finalizers,
      performAll hooks target event now m =
        { m with annotations := annotations, finalizers := finalizers } := by
  induction hooks generalizing m with
  | nil => exact ⟨m.annotations, m.finalizers, rfl⟩
  | cons h hooks ih =>
    obtain ⟨a, f, hm⟩ := h.perform_eq target event now m
    obtain ⟨a', f', hm'⟩ := ih (h.perform target event now m)
    refine ⟨a', f', ?_⟩
    rw [performAll, List.foldl_cons]
    rw [performAll] at hm'
    rw [hm', hm]

theorem apply_remarks {hooks : Hooks} {target : Target} {event : Hook.Event}
    {now : Except Instant.Fault Instant} {kind : String} {o body : Object}
    (h : hooks.apply target event now kind o = .ok body) : o.Remarks body := by
  have hperform (t : Instant) : o.Remarks (o.modifyMetadata (performAll hooks target event t)) :=
    ⟨rfl, performAll_eq hooks target event t o.knownMetadata⟩
  rw [Hooks.apply.eq_def] at h
  split at h
  · cases h
    exact .refl o
  · split at h
    · cases h
    · cases now with
      | ok t =>
        cases h
        exact hperform t
      | error e =>
        simp only at h
        split at h
        · cases h
        · cases h
          exact hperform .first

theorem apply_ok (hooks : Hooks) (target : Target) (event : Hook.Event) (t : Instant)
    (o : Object) : ∃ body, hooks.apply target event (.ok t) target.kind o = .ok body := by
  rw [Hooks.apply.eq_def]
  split
  · exact ⟨o, rfl⟩
  · rw [if_neg (not_not_intro rfl)]
    exact ⟨_, rfl⟩

end Hooks

theorem Backing.hooked_remarks {hooks : Hooks} {target : Hook.Target} {event : Hook.Event}
    {r : Resource} {now : Except Instant.Fault Instant} {o body : Object}
    (h : hooked hooks target event r now o = .ok body) : o.Remarks body := by
  rw [hooked] at h
  cases ha : hooks.apply target event now r.kind o with
  | error e =>
    rw [ha] at h
    cases h
  | ok b =>
    rw [ha] at h
    cases h
    exact Hooks.apply_remarks ha

theorem Backing.hooked_ok (hooks : Hooks) (target : Hook.Target) (event : Hook.Event) {r : Resource}
    (hr : r.kind = target.kind) (t : Instant) (o : Object) :
    ∃ body, hooked hooks target event r (.ok t) o = .ok body ∧ o.Remarks body := by
  obtain ⟨body, hbody⟩ := hooks.apply_ok target event t o
  refine ⟨body, ?_, Hooks.apply_remarks hbody⟩
  rw [hooked, hr, hbody]
  rfl

end VolumeExport
