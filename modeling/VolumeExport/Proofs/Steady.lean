import VolumeExport.Proofs.Creation

namespace VolumeExport

def Request.Builds : Request → Prop
  | .call (.delete ..) => False
  | .call (.replace r ..) => r.isNamespaced = false
  | _ => True

def Turn.creates (k : Key) : Turn → Bool
  | ⟨.call (.create r ns body), .ok _⟩ => Key.of r ns body.knownMetadata.name = k
  | _ => false

namespace Cluster

/-- What may become of an object: it stays as it is, and if there was none, there is one if and
only if it was created. -/
structure Steady (k : Key) (c : Cluster) (created : Bool) (c' : Cluster) : Prop where
  stays : ∀ o, c.store.get? k = some o → c'.store.get? k = some o
  count : (c'.contains k).toNat = (c.contains k).toNat + created.toNat

variable {c : Cluster} {k : Key}

theorem steady_of_same {c' : Cluster} {created : Bool} (hcreated : created = false)
    (h : c'.store.get? k = c.store.get? k) : c.Steady k created c' := by
  refine ⟨fun o ho => h.trans ho, ?_⟩
  rw [hcreated]
  exact congrArg (fun found : Option Object => found.isSome.toNat) h

theorem steady_create (c : Cluster) (r : Resource) (ns : Option String) (body : Object)
    (hk : k.resource.isNamespaced) :
    c.Steady k (Turn.creates k ⟨.call (.create r ns body), (c.create r ns body).1⟩)
      (c.create r ns body).2 := by
  cases hm : body.metadata with
  | none =>
    rw [create, hm]
    exact steady_of_same rfl rfl
  | some m =>
    cases hthere : c.contains (.of r ns m.name) with
    | true =>
      have hconflict : c.create r ns body = (.error .conflict, c) := by
        rw [create, hm]
        exact if_pos hthere
      rw [hconflict]
      exact steady_of_same rfl rfl
    | false =>
      obtain ⟨created, hcreated⟩ := ok_of_absent hm hthere
      have hname : body.knownMetadata.name = m.name := by
        rw [Object.knownMetadata, hm, Option.getD_some]
      have hturn : Turn.creates k ⟨.call (.create r ns body), (c.create r ns body).1⟩ =
          decide (Key.of r ns m.name = k) := by
        rw [hcreated, ← hname]
        rfl
      rw [hturn]
      by_cases hkey : Key.of r ns m.name = k
      · subst hkey
        have hself := get?_create_self hm hthere
        refine ⟨fun o ho => ?_, ?_⟩
        · cases (congrArg Option.isSome ho).symm.trans hthere
        · rw [hthere, contains, Store.contains, hself, decide_eq_true rfl]
          rfl
      · apply steady_of_same (decide_eq_false hkey)
        apply get?_create_of_ne hm hthere hkey
        rintro - - rfl
        cases hk

theorem steady_replace (c : Cluster) (r : Resource) (ns name : Option String) (body : Object)
    (hr : r.isNamespaced = false) (hk : k.resource.isNamespaced) :
    c.Steady k false (c.replace r (.of r ns name) body).2 := by
  apply steady_of_same rfl
  rw [replace]
  split
  · rfl
  · split
    · have hkey : Key.ofMetadata r body.knownMetadata ≠ k := by
        rintro rfl
        exact absurd hk (Bool.eq_false_iff.1 hr)
      exact (Store.get?_put ..).trans (if_neg hkey)
    · rfl

end Cluster

namespace Site

variable {w w' : Site} {k : Key}

theorem steady_of_answers {faults : ApiError → Prop} {q : Request} {x : q.Answer}
    (h : w.Answers faults q x w') (hq : q.Builds) (hk : k.resource.isNamespaced) :
    w.cluster.Steady k (Turn.creates k ⟨q, x⟩) w'.cluster := by
  cases q with
  | call c =>
    rcases h with ⟨rfl, rfl⟩ | ⟨e, -, rfl, rfl⟩
    · cases c with
      | create r ns body => exact w.cluster.steady_create r ns body hk
      | replace r ns name body => exact w.cluster.steady_replace r ns name body hq hk
      | delete => exact hq.elim
      | read => exact Cluster.steady_of_same rfl rfl
      | list => exact Cluster.steady_of_same rfl rfl
    · cases c with
      | _ => exact Cluster.steady_of_same rfl rfl
  | _ =>
    have hcluster := cluster_eq_of_answers h fun _ => nofun
    exact Cluster.steady_of_same rfl (congrArg (·.store.get? k) hcluster)

/-- What has become of an object over some moments. -/
structure SteadyAlong (k : Key) (w : Site) (ms : List Moment) : Prop where
  stays : ∀ o, w.cluster.store.get? k = some o →
    (w.along ms).cluster.store.get? k = some o ∧ ∀ m ∈ ms, m.after.cluster.store.get? k = some o
  count : ((w.along ms).cluster.contains k).toNat =
    (w.cluster.contains k).toNat + ms.countP (·.turn.creates k)

theorem SteadyAlong.start : SteadyAlong k w [] :=
  ⟨fun _ ho => ⟨ho, fun _ hm => nomatch hm⟩, rfl⟩

theorem SteadyAlong.step {m : Moment} {ms : List Moment} (h : SteadyAlong k w ms)
    (hbefore : m.before = w.along ms)
    (hsteady : m.before.cluster.Steady k (m.turn.creates k) m.after.cluster) :
    SteadyAlong k w (m :: ms) := by
  rw [hbefore] at hsteady
  refine ⟨fun o ho => ?_, ?_⟩
  · obtain ⟨hnow, hall⟩ := h.stays o ho
    have hafter := hsteady.stays o hnow
    exact ⟨hafter, List.forall_mem_cons.2 ⟨hafter, hall⟩⟩
  · rw [along, hsteady.count, h.count, List.countP_cons, Nat.add_assoc]
    cases m.turn.creates k with
    | true => rfl
    | false => rfl

/-- What is there in the end was created once, unless it was there before. -/
theorem SteadyAlong.created {ms : List Moment} (h : SteadyAlong k w ms)
    (hthere : (w.along ms).cluster.contains k) :
    ms.countP (·.turn.creates k) = if w.cluster.contains k then 0 else 1 := by
  have hcount := h.count
  rw [hthere] at hcount
  cases hbefore : w.cluster.contains k with
  | true =>
    rw [hbefore] at hcount
    rw [if_pos rfl]
    omega
  | false =>
    rw [hbefore] at hcount
    rw [if_neg nofun]
    simpa using hcount.symm

end Site

theorem Action.Attempts.steady {α : Type} {w : Site} {a : Action α} {past : List Moment} {k : Key}
    {may : Request → Past → Prop} {M : Except Fault α → Past → Prop}
    (h : a.Attempts .alone w past) (ha : a.Keeps may M [])
    (hmay : ∀ q p, may q p → q.Builds) (hk : k.resource.isNamespaced) :
    w.SteadyAlong k past :=
  h.inv_moments ha .start fun _ _ _ hms hmoves hx hq =>
    hms.step hmoves (Site.steady_of_answers hx (hmay _ _ hq) hk)

end VolumeExport
