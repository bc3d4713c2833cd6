import VolumeExport.Proofs.Backing.Parts
import VolumeExport.Proofs.Dressing
import VolumeExport.Proofs.Leads

namespace VolumeExport

open VolumeExport.Action (either)

theorem Site.Mute.not_isNotFound {e : ApiError} (h : Mute e) : e.isNotFound = false :=
  decide_eq_false h.1

theorem Site.Mute.not_isConflict {e : ApiError} (h : Mute e) : e.isConflict = false :=
  decide_eq_false h.2

structure Cluster.SameWays (c c' : Cluster) : Prop where
  addresses : c'.addresses = c.addresses
  binds : c'.binds = c.binds
  assigns : c'.assigns = c.assigns

theorem Cluster.SameWays.trans {c c' c'' : Cluster} (h : c.SameWays c') (h' : c'.SameWays c'') :
    c.SameWays c'' :=
  ⟨h'.addresses.trans h.addresses, h'.binds.trans h.binds, h'.assigns.trans h.assigns⟩

theorem Cluster.delete_of_contains {c : Cluster} {k : Key} (h : c.contains k) :
    c.delete k = (.ok (), { c with store := c.store.erase k }) :=
  if_pos h

theorem Cluster.delete_of_absent {c : Cluster} {k : Key} (h : c.contains k = false) :
    c.delete k = (.error .notFound, c) :=
  if_neg (Bool.eq_false_iff.1 h)

namespace Site

/-- At most the object of a key has changed. -/
structure Only (k : Key) (w w' : Site) : Prop where
  others : ∀ l, l ≠ k → w'.cluster.store.get? l = w.cluster.store.get? l
  renews : w.cluster.Renews w'.cluster
  ways : w.cluster.SameWays w'.cluster

variable {w w' w'' : Site} {k : Key}

theorem Only.refl (k : Key) (w : Site) : Only k w w := ⟨fun _ _ => rfl, .refl _, rfl, rfl, rfl⟩

theorem Only.trans (h : Only k w w') (h' : Only k w' w'') : Only k w w'' where
  others l hl := (h'.others l hl).trans (h.others l hl)
  renews := h.renews.trans h'.renews
  ways := h.ways.trans h'.ways

theorem after_delete_of_absent {r : Resource} {ns name : Option String}
    (h : w.cluster.contains (.of r ns name) = false) : w.after (.delete r ns name) = w :=
  eq_of_cluster (congrArg Prod.snd (Cluster.delete_of_absent h)) rfl

theorem only_of_delete (w : Site) (r : Resource) (ns name : Option String) :
    Only (.of r ns name) w (w.after (.delete r ns name)) ∧
      (w.after (.delete r ns name)).cluster.store.get? (.of r ns name) = none := by
  cases hthere : w.cluster.contains (.of r ns name) with
  | true =>
    have hcluster : (w.after (.delete r ns name)).cluster =
        { w.cluster with store := w.cluster.store.erase (.of r ns name) } :=
      congrArg Prod.snd (Cluster.delete_of_contains hthere)
    refine ⟨⟨fun l hl => ?_, w.cluster.renews_respond _, ?_⟩, ?_⟩
    · rw [hcluster, Store.get?_erase, if_neg (Ne.symm hl)]
    · rw [hcluster]
      exact ⟨rfl, rfl, rfl⟩
    · rw [hcluster, Store.get?_erase, if_pos rfl]
  | false =>
    rw [after_delete_of_absent hthere]
    exact ⟨.refl _ _, Cluster.get?_of_absent hthere⟩

theorem key_of_get? {o : Object} (h : w.cluster.store.get? k = some o) :
    Key.ofMetadata k.resource o.knownMetadata = k :=
  w.keyed k _ (congrArg (Option.map Object.knownMetadata) h)

theorem only_of_replace {r : Resource} {ns name : Option String} {o body : Object}
    (h : w.cluster.store.get? (.of r ns name) = some o) (hbody : o.Remarks body) :
    (∃ written, (w.cluster.respond (.replace r ns name body)).1 = .ok written) ∧
      Only (.of r ns name) w (w.after (.replace r ns name body)) ∧
      (w.after (.replace r ns name body)).cluster.store.get? (.of r ns name) =
        some (Cluster.stamped (w.cluster.writes + 1) body) := by
  have hkey : Key.ofMetadata r body.knownMetadata = .of r ns name :=
    (hbody.key_eq r).trans (key_of_get? h)
  have hreplace : (w.cluster.replace r (.of r ns name) body).2 = w.cluster.put r body ∧
      ∃ written, (w.cluster.replace r (.of r ns name) body).1 = .ok written := by
    rw [Cluster.replace, h]
    dsimp only
    rw [if_pos hbody.resourceVersion_eq]
    exact ⟨rfl, _, rfl⟩
  have hcluster : (w.after (.replace r ns name body)).cluster = w.cluster.put r body := hreplace.1
  refine ⟨hreplace.2, ⟨fun l hl => ?_, w.cluster.renews_respond _, ?_⟩, ?_⟩
  · rw [hcluster, Cluster.put, Store.get?_put, hkey, if_neg (Ne.symm hl)]
  · rw [hcluster]
    exact ⟨rfl, rfl, rfl⟩
  · rw [hcluster, Cluster.put, Store.get?_put, hkey, if_pos rfl]

/-- At most the object of a key has changed, and if there is one, it was hooked. -/
structure Dresses (hooks : Hooks) (target : Hook.Target) (event : Hook.Event) (k : Key)
    (w w' : Site) : Prop where
  only : Only k w w'
  dressed : Option.Rel (Object.Dressed hooks target event) (w.cluster.store.get? k)
    (w'.cluster.store.get? k)

theorem dresses_of_not_covers {hooks : Hooks} {target : Hook.Target} {event : Hook.Event}
    (hw : w.cluster.Sealed) (hcovers : hooks.covers target event = false) (k : Key) :
    w.Dresses hooks target event k w := by
  refine ⟨.refl _ _, ?_⟩
  cases hget : w.cluster.store.get? k with
  | none => exact .none
  | some o =>
    obtain ⟨_, -, hstamped⟩ := hw _ o hget
    have hhooked := Backing.hooked_of_not_covers hcovers .volume (.ok .first) o
    exact .some (Object.dressed_self hhooked hstamped.uid)

end Site

namespace Access

variable {w : Site} {r : Resource} {ns name : Option String}

theorem leads_of_mute {α : Type} {e : ApiError} (he : Site.Mute e)
    {goal : Except Fault α → Site → Prop} {a b : Action α} (hb : b.Leads goal w) :
    (if e.isNotFound then a else b).Leads goal w := by
  rwa [if_neg (Bool.eq_false_iff.1 he.not_isNotFound)]

theorem leads_get :
    (get r ns name).Leads
      (either (fun o w' => o = w.cluster.store.get? (.of r ns name) ∧ w' = w)
        fun _ w' => w' = w) w := by
  apply Action.leads_ask
  intro x w' hx
  rcases hx with ⟨rfl, rfl⟩ | ⟨e, he, rfl, rfl⟩
  · rw [Cluster.respond, Cluster.read]
    cases w.cluster.store.get? (.of r ns name) with
    | none => exact Action.leads_pure ⟨rfl, rfl⟩
    | some o => exact Action.leads_pure ⟨rfl, rfl⟩
  · exact leads_of_mute he (Action.leads_fail rfl)

theorem leads_delete :
    (delete r ns name).Leads
      (either (fun _ w' => Site.Only (.of r ns name) w w' ∧
          w'.cluster.store.get? (.of r ns name) = none)
        fun _ w' => w' = w) w := by
  apply Action.leads_ask
  intro x w' hx
  rcases hx with ⟨rfl, rfl⟩ | ⟨e, he, rfl, rfl⟩
  · have honly := w.only_of_delete r ns name
    rw [Cluster.respond]
    cases hthere : w.cluster.contains (.of r ns name) with
    | true =>
      rw [Cluster.delete_of_contains hthere]
      exact Action.leads_pure (x := true) honly
    | false =>
      rw [Cluster.delete_of_absent hthere]
      exact Action.leads_pure (x := false) honly
  · exact leads_of_mute he (Action.leads_fail rfl)

section

variable {hooks : Hooks} {target : Hook.Target} {event : Hook.Event}

theorem leads_modifyRound {n : Nat} (hw : w.cluster.Sealed) :
    (modifyRound r ns name (Backing.hooked hooks target event r) n
      (w.cluster.read (.of r ns name))).Leads
      (either (fun x w' => ∃ m, x = .inr m ∧
          m.object.isSome = (w'.cluster.store.get? (.of r ns name)).isSome ∧
          w.Dresses hooks target event (.of r ns name) w')
        fun _ w' => w' = w) w := by
  rw [Cluster.read]
  cases hget : w.cluster.store.get? (.of r ns name) with
  | none =>
    apply Action.leads_pure (x := (.inr ⟨none, n⟩ : Nat ⊕ Modified))
    refine ⟨_, rfl, ?_, .refl _ _, ?_⟩
    · rw [hget]
    · rw [hget]
      exact .none
  | some o =>
    obtain ⟨_, -, hstamped⟩ := hw _ o hget
    apply Action.leads_ask
    intro t w' ht
    obtain rfl : w' = w := ht
    apply Action.leads_ofExcept_bind _ fun _ _ => rfl
    intro body hbody
    have hremarks := Backing.hooked_remarks hbody
    apply Action.leads_ite
    · rintro rfl
      apply Action.leads_pure (x := (.inr ⟨some body, n + 1⟩ : Nat ⊕ Modified))
      refine ⟨_, rfl, ?_, .refl _ _, ?_⟩
      · rw [hget]
      · rw [hget]
        exact .some (Object.dressed_self hbody hstamped.uid)
    · intro _
      apply Action.leads_ask
      intro y w'' hy
      rcases hy with ⟨rfl, rfl⟩ | ⟨e, he, rfl, rfl⟩
      · obtain ⟨⟨written, hwritten⟩, honly, hget'⟩ := Site.only_of_replace hget hremarks
        rw [hwritten]
        apply Action.leads_pure (x := (.inr ⟨some written, n + 1⟩ : Nat ⊕ Modified))
        refine ⟨_, rfl, ?_, honly, ?_⟩
        · rw [hget']
          rfl
        · rw [hget, hget']
          exact .some (Object.dressed_of_hooked hbody hstamped.uid _)
      · apply leads_of_mute he
        rw [if_neg (Bool.eq_false_iff.1 he.not_isConflict)]
        exact Action.leads_fail rfl

theorem leads_modify_hooked (hw : w.cluster.Sealed) :
    (modify r ns name (Backing.hooked hooks target event r)).Leads
      (either (fun m w' => m.object.isSome = (w'.cluster.store.get? (.of r ns name)).isSome ∧
          w.Dresses hooks target event (.of r ns name) w')
        fun _ w' => w' = w) w := by
  apply Action.leads_rounds (I := fun _ w' => w' = w) rfl
  intro n v hstart x w' hx
  obtain rfl : v = w := hstart
  rcases hx with ⟨rfl, rfl⟩ | ⟨e, he, rfl, rfl⟩
  · apply (leads_modifyRound hw).mono
    intro r w' hr
    cases r with
    | ok x =>
      obtain ⟨m, rfl, hm⟩ := hr
      exact hm
    | error e => exact hr
  · exact leads_of_mute he (Action.leads_fail rfl)

end

end Access

namespace Backing

variable {s : Setup} {w : Site}

section

variable {α β : Type} {step : Step} {volume : String} {M : Except Fault α → Site → Prop}
  {a : Action α}

theorem leads_during {goal : Except Fault α → Site → Prop} (h : a.Leads M w)
    (herror : ∀ e e' w, M (.error e) w → goal (.error e') w)
    (hok : ∀ x w, M (.ok x) w → goal (.ok x) w) : (during step volume a).Leads goal w :=
  h.orElseFault hok fun e w he => herror e _ w he

theorem leads_during_bind {goal : Except Fault β → Site → Prop} {f : α → Action β}
    (h : a.Leads M w) (herror : ∀ e e' w, M (.error e) w → goal (.error e') w)
    (hok : ∀ x w, M (.ok x) w → (f x).Leads goal w) :
    (during step volume a >>= f).Leads goal w :=
  Action.Leads.bind
    (M := either (fun x w => M (.ok x) w) fun _ w => ∀ e, goal (.error e) w)
    (leads_during h (fun e _ w hw e' => herror e e' w hw) fun _ _ hx => hx) hok fun e _ hw => hw e

end

def bound? (claim : Object) : Option String :=
  (claim.text? ["spec", "volumeName"]).filter (· ≠ "")

def volumeKey (name : String) : Key := .of .volume none (some name)

theorem key_not_volume {ns volume : String} {r : Resource} (hr : r.isNamespaced) :
    (key ns r volume).resource ≠ .volume := by
  rintro rfl
  cases hr

theorem volumeKey_ne {name ns volume : String} {r : Resource} (hr : r.isNamespaced) :
    volumeKey name ≠ key ns r volume :=
  fun hk => key_not_volume hr (congrArg Key.resource hk).symm

theorem bound?_congr {o o' : Object} (h : o'.rest = o.rest) : bound? o' = bound? o := by
  rw [bound?, bound?, Object.text?, Object.text?, Object.path?, Object.path?, h]

def storage? (w : Site) (ns volume : String) : Option String :=
  (w.cluster.store.get? (key ns .claim volume)).bind bound?

/-- An object that neither is a part of a backing nor the storage that it is bound to. -/
def Aside (w : Site) (ns volume : String) (k : Key) : Prop :=
  (∀ r : Resource, r.isNamespaced → k ≠ key ns r volume) ∧
    ∀ name, storage? w ns volume = some name → k ≠ volumeKey name

/-- The hooks for the storage behind a volume have been stored. -/
def Hooked (s : Setup) (event : Hook.Event) (volume : String) (w v : Site) : Prop :=
  ∀ name, storage? w s.settings.serverNamespace volume = some name →
    Option.Rel (Object.Dressed s.hooks .backendVolume event)
      (w.cluster.store.get? (volumeKey name)) (v.cluster.store.get? (volumeKey name))

def Unhooked (s : Setup) (volume : String) (w v : Site) : Prop :=
  ∀ name, storage? w s.settings.serverNamespace volume = some name →
    v.cluster.store.get? (volumeKey name) = w.cluster.store.get? (volumeKey name)

theorem hooked_of_dresses {event : Hook.Event} {volume name : String} {v v' : Site}
    (h : Hooked s event volume w v ∨ Unhooked s volume w v)
    (hname : storage? w s.settings.serverNamespace volume = some name)
    (hdresses : v.Dresses s.hooks .backendVolume event (volumeKey name) v') :
    Hooked s event volume w v' := by
  intro name' hname'
  obtain rfl : name = name' := Option.some.inj (hname.symm.trans hname')
  have hnew := hdresses.dressed
  rcases h with hold | hsame
  · exact Object.dressed_trans (hold name hname) hnew
  · rw [hsame name hname] at hnew
    exact hnew

theorem leads_hookVolume {event : Hook.Event} {claim : Object} (hw : w.cluster.Sealed) :
    (hookVolume s event claim).Leads
      (either (fun _ w' => (bound? claim = none ∧ w' = w) ∨ ∃ name, bound? claim = some name ∧
          w.Dresses s.hooks .backendVolume event (volumeKey name) w')
        fun _ w' => w' = w) w := by
  cases hcovers : s.hooks.covers .backendVolume event with
  | true =>
    rw [hookVolume, if_pos hcovers]
    cases hname : bound? claim with
    | none =>
      rw [bound?] at hname
      rw [hname]
      exact Action.leads_pure (.inl ⟨rfl, rfl⟩)
    | some name =>
      have hname' := hname
      rw [bound?] at hname'
      rw [hname']
      apply Action.Leads.bind (Access.leads_modify_hooked hw)
      · intro m w' hafter
        exact Action.leads_pure (.inr ⟨name, rfl, hafter.2⟩)
      · intro e w' hafter
        exact hafter
  | false =>
    rw [hookVolume, if_neg (Bool.eq_false_iff.1 hcovers)]
    apply Action.leads_pure
    cases bound? claim with
    | none => exact .inl ⟨rfl, rfl⟩
    | some name => exact .inr ⟨name, rfl, w.dresses_of_not_covers hw hcovers _⟩

end Backing

end VolumeExport
