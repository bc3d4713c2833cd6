import VolumeExport.Proofs.Concert
import VolumeExport.Proofs.Modification
import VolumeExport.Proofs.Steps

namespace VolumeExport

namespace Cluster

variable {c c' : Cluster} {k : Key}

theorem writes_replace_le (r : Resource) (body : Object) :
    (c.replace r k body).2.writes ≤ c.writes + 1 := by
  rw [replace]
  split
  · exact Nat.le_succ _
  · split
    · exact Nat.le_refl _
    · exact Nat.le_succ _

theorem writes_delete (k : Key) : (c.delete k).2.writes = c.writes := by
  rw [delete]
  split
  · rfl
  · rfl

theorem Renews.writes_lt (h : Renews c c') {o : Object} (ho : c'.store.get? k = some o)
    (hne : c.store.get? k ≠ some o) : c.writes < c'.writes := by
  rcases h.found k o ho with hold | hfresh
  · exact absurd hold hne
  · obtain ⟨n, hlt, hle, -⟩ := hfresh
    exact hlt.trans_le hle

/-- A replacement is refused if the object has been written since it was read. -/
theorem Renews.replace_conflict (h : Renews c c') (hsealed : c.Sealed) {r : Resource}
    {o body : Object} (ho : c.store.get? k = some o) (hbody : o.Remarks body)
    (hthere : c'.contains k) (hne : c'.store.get? k ≠ some o) :
    c'.replace r k body = (.error .conflict, c') ∧ c.writes < c'.writes := by
  obtain ⟨o', ho'⟩ := Option.isSome_iff_exists.1 hthere
  have hlt : c.writes < c'.writes := by
    apply h.writes_lt ho'
    rw [ho]
    exact fun hsame => hne (ho'.trans hsame.symm)
  refine ⟨?_, hlt⟩
  rcases c'.replace_cases r k body with ⟨hnone, -⟩ | ⟨o'', ho'', ⟨hversion, -⟩ | ⟨-, hconflict⟩⟩
  · cases ho'.symm.trans hnone
  · have hold := h.eq_of_version hsealed ho ho'' (hversion.symm.trans hbody.resourceVersion_eq)
    exact absurd (hold ▸ ho'') hne
  · exact hconflict

theorem replace_of_absent (r : Resource) (body : Object) (h : c.contains k = false) :
    c.replace r k body = (.error .notFound, c) := by
  rw [replace, get?_of_absent h]

end Cluster

namespace Site

variable {hooks : Hooks} {target : Hook.Target} {event : Hook.Event} {k : Key} {w : Site}

theorem dresses_of_absent (h : w.cluster.store.get? k = none) :
    w.Dresses hooks target event k w := by
  refine ⟨.refl k w, ?_⟩
  rw [h]
  exact .none

theorem dresses_self (hw : w.cluster.Sealed) {r : Resource} {now : Except Instant.Fault Instant}
    {o : Object} (ho : w.cluster.store.get? k = some o)
    (h : Backing.hooked hooks target event r now o = .ok o) : w.Dresses hooks target event k w := by
  obtain ⟨_, -, hstamped⟩ := hw k o ho
  refine ⟨.refl k w, ?_⟩
  rw [ho]
  exact .some (Object.dressed_self h hstamped.uid)

theorem dresses_of_replace (hw : w.cluster.Sealed) {r : Resource} {ns name : Option String}
    {now : Except Instant.Fault Instant} {o body : Object}
    (ho : w.cluster.store.get? (.of r ns name) = some o)
    (h : Backing.hooked hooks target event r now o = .ok body) :
    (∃ written, (w.cluster.respond (.replace r ns name body)).1 = .ok written) ∧
      w.Dresses hooks target event (.of r ns name) (w.after (.replace r ns name body)) := by
  obtain ⟨_, -, hstamped⟩ := hw _ o ho
  obtain ⟨hwritten, honly, hget⟩ := only_of_replace ho (Backing.hooked_remarks h)
  refine ⟨hwritten, honly, ?_⟩
  rw [ho, hget]
  exact .some (Object.dressed_of_hooked h hstamped.uid _)

theorem Dresses.contains_eq {w' : Site} (h : w.Dresses hooks target event k w') :
    w'.cluster.contains k = w.cluster.contains k :=
  Object.isSome_of_dressed h.dressed

end Site

/-- Whoever keeps to it leaves only objects that were there before or that have a version of their
own. -/
def Accord.Renews (A : Accord) : Prop := ∀ w w', A.moves w w' → w.cluster.Renews w'.cluster

namespace Access

open Backing (hooked)

variable {A : Accord} {a : Stand} {r : Resource} {ns name : Option String} {k l : Nat}

theorem amid_delete (ha : a.Has (k + 1) l)
    (hmoves : ∀ v, A.moves a.site v → A.moves v (v.after (.delete r ns name))) :
    (delete r ns name).Amid A (fun _ b => b.Has k l ∧
      b.site.cluster.store.get? (.of r ns name) = none) a := by
  apply Action.amid_call (d := 0) ha
  intro v hv
  have hgone := (v.only_of_delete r ns name).2
  refine ⟨hmoves v hv, (Cluster.writes_delete _).le, fun hleft => ?_⟩
  rw [Cluster.respond]
  cases hthere : v.cluster.contains (.of r ns name) with
  | true =>
    rw [Cluster.delete_of_contains hthere]
    exact Action.amid_pure (x := true) ⟨hleft, hgone⟩
  | false =>
    rw [Cluster.delete_of_absent hthere]
    exact Action.amid_pure (x := false) ⟨hleft, hgone⟩

section

variable {hooks : Hooks} {target : Hook.Target} {event : Hook.Event}

/-- A replacement of what was read and hooked is written, or refused because others have written or
deleted the object since it was read. -/
theorem replaced_or_lost {v v' : Site} {o body : Object} {now : Except Instant.Fault Instant}
    (hw : v.cluster.Sealed) (h : v.cluster.Renews v'.cluster)
    (ho : v.cluster.store.get? (.of r ns name) = some o)
    (hbody : hooked hooks target event r now o = .ok body) :
    (∃ written, (v'.cluster.respond (.replace r ns name body)).1 = .ok written ∧
        (v'.after (.replace r ns name body)).cluster.contains (.of r ns name) ∧
        v'.Dresses hooks target event (.of r ns name) (v'.after (.replace r ns name body))) ∨
      ((v'.cluster.respond (.replace r ns name body)).1 = .error .notFound ∧
        v'.after (.replace r ns name body) = v' ∧
        v'.cluster.store.get? (.of r ns name) = none) ∨
      ((v'.cluster.respond (.replace r ns name body)).1 = .error .conflict ∧
        v'.after (.replace r ns name body) = v' ∧ v.cluster.writes < v'.cluster.writes) := by
  by_cases hsame : v'.cluster.store.get? (.of r ns name) = some o
  · obtain ⟨⟨written, hwritten⟩, hdresses⟩ := Site.dresses_of_replace (hw.renews h) hsame hbody
    have hthere := hdresses.contains_eq.trans (congrArg Option.isSome hsame)
    exact .inl ⟨written, hwritten, hthere, hdresses⟩
  cases hthere : v'.cluster.contains (.of r ns name) with
  | true =>
    obtain ⟨hconflict, hlt⟩ :=
      h.replace_conflict hw (r := r) ho (Backing.hooked_remarks hbody) hthere hsame
    have hafter := Site.eq_of_cluster (w := v'.after (.replace r ns name body))
      (congrArg Prod.snd hconflict) rfl
    exact .inr (.inr ⟨congrArg Prod.fst hconflict, hafter, hlt⟩)
  | false =>
    have hgone := Cluster.replace_of_absent r body hthere
    have hafter := Site.eq_of_cluster (w := v'.after (.replace r ns name body))
      (congrArg Prod.snd hgone) rfl
    exact .inr (.inl ⟨congrArg Prod.fst hgone, hafter, Cluster.get?_of_absent hthere⟩)

/-- A change by hooks, however often others come in between: a round that is lost to them is paid
for by their writes. -/
theorem amid_modify_hooked (hA : A.Renews) (hr : r.kind = target.kind)
    (hw : a.site.cluster.Sealed)
    (hmoves : ∀ v v', A.moves a.site v → v.Dresses hooks target event (.of r ns name) v' →
      A.moves v v') (ha : a.Has (k + 3) (l + 1)) :
    (modify r ns name (hooked hooks target event r)).Amid A
      (fun m b => b.Has k l ∧ ∃ v v', A.moves a.site v ∧
        v.Dresses hooks target event (.of r ns name) v' ∧
        m.object.isSome = v'.cluster.contains (.of r ns name) ∧ A.moves v' b.site) a := by
  apply Action.amid_rounds
    (I := fun _ b => b.Has (k + 3) (l + 1) ∧ A.moves a.site b.site) ⟨ha, A.refl _⟩
  · exact fun _ _ hb => hb.1.mono (by omega) (by omega)
  rintro n b ⟨hb, hto⟩ v₁ hv₁
  -- By the index the sites are those at which the round reads, looks at the time, and writes.
  have h₁ : A.moves a.site v₁ := A.trans hto hv₁
  have hsealed : v₁.cluster.Sealed := hw.renews (hA _ _ h₁)
  rw [Cluster.read]
  cases hget : v₁.cluster.store.get? (.of r ns name) with
  | none =>
    apply Action.amid_pure (x := (.inr ⟨none, n⟩ : Nat ⊕ Modified))
    refine ⟨(hb.next v₁).mono (by omega) (by omega), v₁, v₁, h₁, Site.dresses_of_absent hget, ?_,
      A.refl _⟩
    exact (congrArg Option.isSome hget).symm
  | some o =>
    apply Action.amid_quiet (q := .now) trivial (hb.next v₁)
    intro t v₂ ht hv₂ hb₂
    cases t with
    | error e => cases ht
    | ok t =>
      obtain ⟨body, hbody, -⟩ := Backing.hooked_ok hooks target event hr t o
      rw [hbody]
      apply Action.amid_ite
      · rintro rfl
        apply Action.amid_pure (x := (.inr ⟨some body, n + 1⟩ : Nat ⊕ Modified))
        refine ⟨hb₂.mono (by omega) (by omega), v₁, v₁, h₁, Site.dresses_self hsealed hget hbody,
          ?_, hv₂⟩
        exact (congrArg Option.isSome hget).symm
      · intro _
        apply Action.amid_call hb₂
        intro v₃ hv₃
        have h₃ : A.moves a.site v₃ := A.trans h₁ (A.trans hv₂ hv₃)
        have hwrites := v₃.cluster.writes_replace_le (k := .of r ns name) r body
        rcases replaced_or_lost hsealed (hA _ _ (A.trans hv₂ hv₃)) hget hbody with
          ⟨written, hwritten, hthere, hdresses⟩ | ⟨hnone, hafter, hgone⟩ | ⟨hconflict, hafter, hlt⟩
        · refine ⟨hmoves _ _ h₃ hdresses, hwrites, fun hleft => ?_⟩
          rw [hwritten]
          apply Action.amid_pure (x := (.inr ⟨some written, n + 1⟩ : Nat ⊕ Modified))
          exact ⟨hleft, v₃, _, h₃, hdresses, hthere.symm, A.refl _⟩
        · rw [hafter, hnone]
          refine ⟨A.refl v₃, Nat.le_succ _, fun hleft => ?_⟩
          apply Action.amid_pure (x := (.inr ⟨none, n + 1⟩ : Nat ⊕ Modified))
          refine ⟨hleft, v₃, v₃, h₃, Site.dresses_of_absent hgone, ?_, A.refl _⟩
          exact (congrArg Option.isSome hgone).symm
        · rw [hafter, hconflict]
          refine ⟨A.refl v₃, Nat.le_succ _, fun _ => ?_⟩
          have hround := hb.round (hA _ _ hv₂).writes (hA _ _ hv₃).writes hlt
          exact Action.amid_pure (x := (.inl (n + 1) : Nat ⊕ Modified))
            ⟨hround, A.trans h₁ (A.trans hv₂ hv₃)⟩

end

end Access

namespace Backing

variable {A : Accord} {a : Stand} {s : Setup} {k l : Nat}

theorem amid_during {α : Type} {goal : α → Stand → Prop} {step : Step} {volume : String}
    {action : Action α} (h : action.Amid A goal a) :
    (during step volume action).Amid A (fun x b => goal x b ∧ A.moves a.site b.site) a :=
  (Action.Amid.orElseFault h).since

theorem amid_hookVolume {event : Hook.Event} {claim : Object} (hA : A.Renews)
    (hw : a.site.cluster.Sealed)
    (hmoves : ∀ name v v', bound? claim = some name → A.moves a.site v →
      v.Dresses s.hooks .backendVolume event (volumeKey name) v' → A.moves v v')
    (ha : a.Has (k + 3) (l + 1)) :
    (hookVolume s event claim).Amid A
      (fun _ b => b.Has k l ∧ ∃ v v', A.moves a.site v ∧
        ((bound? claim = none ∧ v' = v) ∨ ∃ name, bound? claim = some name ∧
          v.Dresses s.hooks .backendVolume event (volumeKey name) v') ∧
        A.moves v' b.site) a := by
  have hleft : a.Has k l := ha.mono (by omega) (by omega)
  cases hcovers : s.hooks.covers .backendVolume event with
  | true =>
    rw [hookVolume, if_pos hcovers]
    cases hname : bound? claim with
    | none =>
      rw [bound?] at hname
      rw [hname]
      exact Action.amid_pure ⟨hleft, a.site, a.site, A.refl _, .inl ⟨rfl, rfl⟩, A.refl _⟩
    | some name =>
      have hmoves := fun v v' => hmoves name v v' hname
      rw [bound?] at hname
      rw [hname]
      apply Action.Amid.bind (Access.amid_modify_hooked hA rfl hw hmoves ha)
      rintro m b ⟨hb, v, v', hto, hdresses, -, hsince⟩
      exact Action.amid_pure ⟨hb, v, v', hto, .inr ⟨name, rfl, hdresses⟩, hsince⟩
  | false =>
    rw [hookVolume, if_neg (Bool.eq_false_iff.1 hcovers)]
    refine Action.amid_pure ⟨hleft, a.site, a.site, A.refl _, ?_, A.refl _⟩
    cases bound? claim with
    | none => exact .inl ⟨rfl, rfl⟩
    | some name => exact .inr ⟨name, rfl, a.site.dresses_of_not_covers hw hcovers _⟩

end Backing

end VolumeExport
