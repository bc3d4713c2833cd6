import VolumeExport.Proofs.Hooks

namespace VolumeExport

open Hook (Target Event)

variable {hooks : Hooks} {target : Target} {event : Event} {o o' o'' body : Object}

theorem Hooks.performAll_of_not_covers (h : hooks.covers target event = false) (now : Instant)
    (m : Metadata) : hooks.performAll target event now m = m := by
  rw [performAll]
  rw [not_covers_iff] at h
  induction hooks with
  | nil => rfl
  | cons hook hooks ih =>
    obtain ⟨hhook, hhooks⟩ := List.forall_mem_cons.1 h
    have hsame : hook.perform target event now m = m := by
      rw [Hook.perform]
      cases hchange : hook.change? target with
      | none => rfl
      | some c =>
        have hevent : hook.event ≠ event := by
          intro hevent
          rw [hhook hevent] at hchange
          cases hchange
        exact if_neg hevent
    rw [List.foldl_cons, hsame]
    exact ih hhooks

theorem Backing.hooked_eq {r : Resource} {now : Except Instant.Fault Instant}
    (h : hooked hooks target event r now o = .ok body) :
    body.rest = o.rest ∧ (o.metadata.isSome → body.metadata.isSome) ∧
      ∃ t, body.knownMetadata = hooks.performAll target event t o.knownMetadata := by
  rw [hooked, Hooks.apply.eq_def] at h
  split at h
  · next hcovers =>
    cases h
    rw [Bool.not_eq_true'] at hcovers
    exact ⟨rfl, id, .first, (Hooks.performAll_of_not_covers hcovers ..).symm⟩
  · split at h
    · cases h
    · cases now with
      | ok t =>
        cases h
        exact ⟨rfl, fun _ => rfl, t, rfl⟩
      | error e =>
        dsimp only at h
        split at h
        · cases h
        · cases h
          exact ⟨rfl, fun _ => rfl, .first, rfl⟩

theorem Backing.hooked_of_not_covers (h : hooks.covers target event = false) (r : Resource)
    (now : Except Instant.Fault Instant) (o : Object) :
    hooked hooks target event r now o = .ok o := by
  rw [hooked, Hooks.apply.eq_def, h]
  rfl

namespace Object

theorem metadata_of_uid (h : o.knownMetadata.uid.isSome) : o.metadata = some o.knownMetadata := by
  rw [knownMetadata] at h ⊢
  cases hm : o.metadata with
  | none =>
    rw [hm] at h
    cases h
  | some m => rfl

/-- An object as it is after hooks: it differs in the annotations and finalizers that the hooks
leave, and in its version. -/
structure Dressed (hooks : Hooks) (target : Target) (event : Event) (o o' : Object) : Prop where
  rest : o'.rest = o.rest
  same : ∃ annotations finalizers version, o'.metadata = some { o.knownMetadata with
    annotations := annotations, finalizers := finalizers, resourceVersion := version }
  annotations : ∃ t, o'.knownMetadata.annotations =
    (hooks.performAll target event t o.knownMetadata).annotations
  finalizers : ∀ t, o'.knownMetadata.SameFinalizers (hooks.performAll target event t o.knownMetadata)

theorem dressed_of_hooked {r : Resource} {now : Except Instant.Fault Instant}
    (h : Backing.hooked hooks target event r now o = .ok body) (huid : o.knownMetadata.uid.isSome)
    (write : Nat) : Dressed hooks target event o (Cluster.stamped write body) := by
  obtain ⟨hrest, -, t, hm⟩ := Backing.hooked_eq h
  obtain ⟨a, f, heq⟩ := hooks.performAll_eq target event t o.knownMetadata
  obtain ⟨uid, huid⟩ := Option.isSome_iff_exists.1 huid
  refine ⟨hrest, ⟨a, f, some (toString write), ?_⟩, ⟨t, ?_⟩, fun t' => ?_⟩
  · rw [Cluster.stamped, modifyMetadata, hm, heq]
    simp only [huid, Option.getD_some]
  · exact (congrArg Metadata.annotations hm :)
  · apply Metadata.SameFinalizers.of_eq
    exact (congrArg Metadata.finalizers hm).trans (Hooks.finalizers_performAll rfl)

theorem dressed_self {r : Resource} {now : Except Instant.Fault Instant}
    (h : Backing.hooked hooks target event r now o = .ok o) (huid : o.knownMetadata.uid.isSome) :
    Dressed hooks target event o o := by
  obtain ⟨-, -, t, hm⟩ := Backing.hooked_eq h
  refine ⟨rfl, ⟨_, _, _, metadata_of_uid huid⟩, ⟨t, congrArg Metadata.annotations hm⟩, fun t' => ?_⟩
  apply Metadata.SameFinalizers.of_eq
  exact (congrArg Metadata.finalizers hm).trans (Hooks.finalizers_performAll rfl)

/-- Hooks again leave an object as hooks once would. -/
theorem Dressed.trans (h : Dressed hooks target event o o')
    (h' : Dressed hooks target event o' o'') : Dressed hooks target event o o'' := by
  obtain ⟨a, f, v, hm⟩ := h.same
  obtain ⟨a', f', v', hm'⟩ := h'.same
  obtain ⟨t, ht⟩ := h.annotations
  obtain ⟨t', ht'⟩ := h'.annotations
  refine ⟨h'.rest.trans h.rest, ⟨a', f', v', ?_⟩, ⟨t', ?_⟩, fun t'' => ?_⟩
  · rw [hm', knownMetadata, hm]
    rfl
  · exact ht'.trans (Hooks.annotations_again ht)
  · exact (h'.finalizers t'').trans (Hooks.finalizers_again (h.finalizers t''))

theorem dressed_trans {found found' found'' : Option Object}
    (h : Option.Rel (Dressed hooks target event) found found')
    (h' : Option.Rel (Dressed hooks target event) found' found'') :
    Option.Rel (Dressed hooks target event) found found'' := by
  cases h with
  | none => exact h'
  | some h =>
    cases h' with
    | some h' => exact .some (h.trans h')

theorem isSome_of_dressed {found found' : Option Object}
    (h : Option.Rel (Dressed hooks target event) found found') :
    found'.isSome = found.isSome := by
  cases h with
  | none => rfl
  | some => rfl

/-- Objects that differ at most in their identities and versions, in the values of some annotations,
and in their finalizers as a relation allows. -/
structure Akin (timed : String → Prop) (finalizers : Metadata → Metadata → Prop) (o o' : Object) :
    Prop where
  rest : o'.rest = o.rest
  same : ∃ uid version annotations finalizers, o'.metadata = some { o.knownMetadata with
    uid := uid, resourceVersion := version, annotations := annotations, finalizers := finalizers }
  annotations : o'.knownMetadata.annotations.isSome = o.knownMetadata.annotations.isSome
  keys : ∀ key, (o'.knownMetadata.annotation? key).isSome = (o.knownMetadata.annotation? key).isSome
  values : ∀ key, ¬timed key → o'.knownMetadata.annotation? key = o.knownMetadata.annotation? key
  finalizers : finalizers o.knownMetadata o'.knownMetadata

theorem Akin.refl {timed : String → Prop} {finalizers : Metadata → Metadata → Prop}
    (huid : o.knownMetadata.uid.isSome) (hfinalizers : ∀ m, finalizers m m) :
    Akin timed finalizers o o where
  rest := rfl
  same := ⟨_, _, _, _, metadata_of_uid huid⟩
  annotations := rfl
  keys _ := rfl
  values _ _ := rfl
  finalizers := hfinalizers _

/-- An object that has come from another one by hooks, at some time. -/
structure Clothed (hooks : Hooks) (target : Target) (event : Event) (o o' : Object) : Prop where
  rest : o'.rest = o.rest
  same : ∃ uid version annotations finalizers, o'.metadata = some { o.knownMetadata with
    uid := uid, resourceVersion := version, annotations := annotations, finalizers := finalizers }
  annotations : ∃ t, o'.knownMetadata.annotations =
    (hooks.performAll target event t o.knownMetadata).annotations

theorem Dressed.clothed (h : Dressed hooks target event o o') :
    Clothed hooks target event o o' := by
  obtain ⟨a, f, v, hm⟩ := h.same
  exact ⟨h.rest, ⟨_, v, a, f, hm⟩, h.annotations⟩

theorem Clothed.akin {finalizers : Metadata → Metadata → Prop}
    (h : Clothed hooks target event o o') (h' : Clothed hooks target event o o'')
    (hfinalizers : finalizers o'.knownMetadata o''.knownMetadata) :
    Akin (hooks.Timed target event) finalizers o' o'' := by
  obtain ⟨_, _, _, _, hm⟩ := h.same
  obtain ⟨uid, version, a, f, hm'⟩ := h'.same
  obtain ⟨t, ht⟩ := h.annotations
  obtain ⟨t', ht'⟩ := h'.annotations
  have hvalue (key : String) : o'.knownMetadata.annotation? key =
      (hooks.performAll target event t o.knownMetadata).annotation? key :=
    congrArg (Option.bind · (Dict.get? · key)) ht
  have hvalue' (key : String) : o''.knownMetadata.annotation? key =
      (hooks.performAll target event t' o.knownMetadata).annotation? key :=
    congrArg (Option.bind · (Dict.get? · key)) ht'
  refine ⟨h'.rest.trans h.rest.symm, ⟨uid, version, a, f, ?_⟩, ?_, fun key => ?_, fun key hkey => ?_,
    hfinalizers⟩
  · rw [hm', knownMetadata, knownMetadata, hm]
    rfl
  · rw [ht, ht', Hooks.isSome_annotations_performAll, Hooks.isSome_annotations_performAll]
  · rw [hvalue, hvalue', Hooks.annotation?_isSome_eq]
  · rw [hvalue, hvalue', Hooks.annotation?_eq hkey]

theorem akin_of_dressed {found found' found'' : Option Object}
    (h : Option.Rel (Dressed hooks target event) found found')
    (h' : Option.Rel (Dressed hooks target event) found found'') :
    Option.Rel (Akin (hooks.Timed target event) Metadata.SameFinalizers) found' found'' := by
  cases h with
  | none =>
    cases h' with
    | none => exact .none
  | some h =>
    cases h' with
    | some h' =>
      have hfinalizers := (h.finalizers .first).trans (h'.finalizers .first).symm
      exact .some (h.clothed.akin h'.clothed hfinalizers)

structure Made (hooks : Hooks) (target : Target) (o o' : Object) : Prop
    extends Clothed hooks target .create o o' where
  finalizers : o'.knownMetadata.finalizers =
    (hooks.performAll target .create .first o.knownMetadata).finalizers

theorem Made.akin (h : Made hooks target o o') (h' : Made hooks target o o'') :
    Akin (hooks.Timed target .create) (fun m m' => m'.finalizers = m.finalizers) o' o'' :=
  h.toClothed.akin h'.toClothed (h'.finalizers.trans h.finalizers.symm)

end Object

end VolumeExport
