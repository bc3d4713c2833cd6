import VolumeExport.Proofs.Backing.Ready
import VolumeExport.Proofs.Contention

namespace VolumeExport

namespace Cluster

variable {c c' : Cluster} {k : Key}

theorem writes_adjust (f : Object → Object) : (c.adjust k f).writes = c.writes := by
  rw [adjust]
  split
  · rfl
  · rfl

theorem writes_welcome_le (o : Object) : (c.welcome k o).writes ≤ c.writes + 1 := by
  rw [welcome]
  split
  · rw [bind]
    split
    · exact (writes_adjust _).le
    · exact Nat.le_succ _
  · rw [assign]
    split
    · exact (writes_adjust _).trans_le (Nat.le_succ _)
    · exact Nat.le_succ _
  · exact Nat.le_succ _

theorem create_of_contains {r : Resource} {ns : Option String} {body : Object} {m : Metadata}
    (hm : body.metadata = some m) (h : c.contains (.of r ns m.name)) :
    c.create r ns body = (.error .conflict, c) := by
  rw [create, hm]
  exact if_pos h

end Cluster

namespace Access

variable {A : Accord} {a : Stand} {r : Resource} {ns : Option String} {body : Object} {m : Metadata}
  {k l : Nat}

theorem amid_create (hm : body.metadata = some m) (ha : a.Has (k + 1) (l + 2))
    (hmoves : ∀ v, A.moves a.site v → v.cluster.contains (.of r ns m.name) = false →
      A.moves v (v.after (.create r ns body))) :
    (create r ns body).Amid A
      (fun _ b => b.Has k l ∧ b.site.cluster.contains (.of r ns m.name)) a := by
  apply Action.amid_call ha
  intro v hv
  cases hthere : v.cluster.contains (.of r ns m.name) with
  | true =>
    have hconflict := Cluster.create_of_contains hm hthere
    have hafter : v.after (.create r ns body) = v :=
      Site.eq_of_cluster (congrArg Prod.snd hconflict) rfl
    rw [hafter, Cluster.respond, hconflict]
    refine ⟨A.refl v, Nat.le_add_right .., fun hleft => ?_⟩
    exact Action.amid_ite (fun _ => Action.amid_pure ⟨hleft, hthere⟩) fun h => absurd rfl h
  | false =>
    have hwrites : (v.after (.create r ns body)).cluster.writes ≤ v.cluster.writes + 2 := by
      have hcluster : (v.after (.create r ns body)).cluster = _ := Cluster.create_of_absent hm hthere
      rw [hcluster]
      exact Cluster.writes_welcome_le _
    refine ⟨hmoves v hv hthere, hwrites, fun hleft => ?_⟩
    obtain ⟨created, hcreated⟩ := Cluster.ok_of_absent hm hthere
    rw [Cluster.respond, hcreated]
    apply Action.amid_pure (x := some created)
    exact ⟨hleft, congrArg Option.isSome (Cluster.get?_create_self hm hthere)⟩

end Access

namespace Backing

open Hook (Target)

variable {s : Setup} {volume : String} {plan : Plan} {r : Resource} {w v v' v'' : Site} {a : Stand}
  {k l : Nat}

/-- A site where a backing has come to some point and its storage is hooked. -/
def Fitted (s : Setup) (volume : String) (plan : Plan) (w v : Site) : Prop :=
  ∃ w₀, Ensures s volume plan .claim w w₀ ∧ Grown s volume plan w₀ v ∧
    Hooked s .create volume w₀ v

namespace Rising

theorem grown (hw : w.cluster.Sealed) (h : Rising s volume plan w v)
    (hthere : v.cluster.contains (key s.settings.serverNamespace .claim volume)) :
    ∃ w₀, Ensures s volume plan .claim w w₀ ∧ Grown s volume plan w₀ v :=
  h.begin hw (.found hthere)

theorem isSealed (hw : w.cluster.Sealed) (h : Rising s volume plan w v) : v.cluster.Sealed := by
  rcases h with rfl | ⟨_, -, hgrown⟩
  · exact hw
  · exact hgrown.isSealed

theorem hook (hw : w.cluster.Sealed) (h : Rising s volume plan w v) {claim : Object}
    (hclaim : v.cluster.store.get? (key s.settings.serverNamespace .claim volume) = some claim)
    (hafter : (bound? claim = none ∧ v' = v) ∨ ∃ name, bound? claim = some name ∧
      v.Dresses s.hooks .backendVolume .create (volumeKey name) v') :
    Fitted s volume plan w v' := by
  obtain ⟨w₀, hbegun, hgrown⟩ := h.grown hw (congrArg Option.isSome hclaim)
  exact ⟨w₀, hbegun, hgrown.hook hclaim hafter⟩

end Rising

theorem Fitted.rising (h : Fitted s volume plan w v) : Rising s volume plan w v := by
  obtain ⟨w₀, hbegun, hgrown, -⟩ := h
  exact .inr ⟨w₀, hbegun, hgrown⟩

theorem Fitted.complete (h : Fitted s volume plan w v) {claim : Object} {x : String}
    (hbound : isBound claim)
    (hclaim : v.cluster.store.get? (key s.settings.serverNamespace .claim volume) = some claim)
    (hserver : v.cluster.contains (key s.settings.serverNamespace .server volume))
    (hservice : v.cluster.contains (key s.settings.serverNamespace .service volume))
    (hexported : exported? s volume v = some x) : ∃ w₀, Complete s volume plan w w₀ v x := by
  obtain ⟨w₀, hbegun, hgrown, hhooked⟩ := h
  refine ⟨w₀, hbegun, hgrown, hhooked, fun r hr => ?_, hexported, claim, hbound, hclaim⟩
  cases r with
  | claim => exact congrArg Option.isSome hclaim
  | server => exact hserver
  | service => exact hservice
  | _ => cases hr

/-- What runs that make a backing make of a site: they take nothing away, they leave the parts that
are there as they are, and whatever a backing has come to it stays at. -/
structure Onward (s : Setup) (volume : String) (plan : Plan) (w v v' : Site) : Prop where
  renews : v.cluster.Renews v'.cluster
  there : ∀ k, v.cluster.contains k → v'.cluster.contains k
  parts : ∀ r : Resource, r.isNamespaced → ∀ o,
    v.cluster.store.get? (key s.settings.serverNamespace r volume) = some o →
      v'.cluster.store.get? (key s.settings.serverNamespace r volume) = some o
  rising : Rising s volume plan w v → Rising s volume plan w v'
  fitted : Fitted s volume plan w v → Fitted s volume plan w v'

namespace Onward

theorem refl (v : Site) : Onward s volume plan w v v :=
  ⟨.refl _, fun _ h => h, fun _ _ _ h => h, id, id⟩

theorem trans (h : Onward s volume plan w v v') (h' : Onward s volume plan w v' v'') :
    Onward s volume plan w v v'' where
  renews := h.renews.trans h'.renews
  there k hk := h'.there k (h.there k hk)
  parts r hr o ho := h'.parts r hr o (h.parts r hr o ho)
  rising hv := h'.rising (h.rising hv)
  fitted hv := h'.fitted (h.fitted hv)

theorem of_ensures (hw : w.cluster.Sealed) (h : Rising s volume plan w v) (hr : r.isNamespaced)
    (hclaim : r ≠ .claim → v.cluster.contains (key s.settings.serverNamespace .claim volume))
    (he : Ensures s volume plan r v v') : Onward s volume plan w v v' := by
  cases he with
  | found => exact .refl v
  | @made now body habsent hbody =>
    have he := Ensures.made habsent hbody
    have hanswers :=
      (v.succeeds_reply (.call (.create r (some s.settings.serverNamespace) body))).1
    refine ⟨v.cluster.renews_respond _, fun k hk => ?_, fun t ht o ho => ?_, fun _ => ?_,
      fun hfitted => ?_⟩
    · exact Site.contains_of_answers hanswers trivial hk fun _ _ _ hdelete => by cases hdelete
    · exact (Site.steady_of_answers hanswers trivial ht).stays o ho
    · by_cases hrc : r = .claim
      · subst hrc
        exact .inr (h.begin hw he)
      · obtain ⟨w₀, hbegun, hgrown⟩ := h.grown hw (hclaim hrc)
        exact .inr ⟨w₀, hbegun, hgrown.part hr hrc he⟩
    · obtain ⟨w₀, hbegun, hgrown, hhooked⟩ := hfitted
      have hrc : r ≠ .claim := by
        rintro rfl
        have hthere := (congrArg Option.isSome hgrown.claim).trans (hbegun.there rfl)
        cases hthere.symm.trans habsent
      exact ⟨w₀, hbegun, hgrown.part hr hrc he, he.hooked hr hrc hhooked⟩

theorem of_dresses (hw : w.cluster.Sealed) {claim : Object} {name : String}
    (hclaim : v.cluster.store.get? (key s.settings.serverNamespace .claim volume) = some claim)
    (hname : bound? claim = some name)
    (h : v.Dresses s.hooks .backendVolume .create (volumeKey name) v') :
    Onward s volume plan w v v' := by
  have hhook (hrising : Rising s volume plan w v) : Fitted s volume plan w v' :=
    hrising.hook hw hclaim (.inr ⟨name, hname, h⟩)
  refine ⟨h.only.renews, fun k hk => ?_, fun r hr o ho => ?_, fun hrising => (hhook hrising).rising,
    fun hfitted => hhook hfitted.rising⟩
  · by_cases hkey : k = volumeKey name
    · subst hkey
      exact (Object.isSome_of_dressed h.dressed).trans hk
    · exact (congrArg Option.isSome (h.only.others k hkey)).trans hk
  · exact (h.only.others _ (volumeKey_ne hr).symm).trans ho

theorem exported (h : Onward s volume plan w v v') {x : String}
    (hx : exported? s volume v = some x) : exported? s volume v' = some x := by
  rw [exported?] at hx ⊢
  split at hx
  · next hip =>
    obtain ⟨service, hservice, haddress⟩ := Option.bind_eq_some_iff.1 hx
    rw [if_pos hip, h.parts .service rfl service hservice]
    exact haddress
  · next hnamed =>
    rw [if_neg hnamed]
    exact hx

theorem complete (h : Onward s volume plan w v v') {w₀ : Site} {x : String}
    (hcomplete : Complete s volume plan w w₀ v x) : ∃ w₁, Complete s volume plan w w₁ v' x := by
  obtain ⟨claim, hbound, hclaim⟩ := hcomplete.bound
  have hfitted := h.fitted ⟨w₀, hcomplete.begun, hcomplete.grown, hcomplete.hooked⟩
  exact hfitted.complete hbound (h.parts .claim rfl claim hclaim)
    (h.there _ (hcomplete.there .server rfl)) (h.there _ (hcomplete.there .service rfl))
    (h.exported hcomplete.exported)

end Onward

def accord (s : Setup) (volume : String) (plan : Plan) (w : Site) : Accord where
  moves := Onward s volume plan w
  refl := .refl
  trans := .trans

theorem amid_make (hw : w.cluster.Sealed) (hr : r.isNamespaced)
    (h : Rising s volume plan w a.site)
    (hclaim : r ≠ .claim → a.site.cluster.contains (key s.settings.serverNamespace .claim volume))
    (ha : a.Has (k + 3) (l + 2)) :
    (make s (partTarget r) r (blueprint s volume plan r)).Amid (accord s volume plan w)
      (fun _ b => b.Has k l ∧
        b.site.cluster.contains (key s.settings.serverNamespace r volume)) a := by
  apply Action.amid_quiet (q := .now) trivial ha
  intro t v ht hv ha
  cases t with
  | error e => cases ht
  | ok t =>
    obtain ⟨body, hbody, -⟩ := hooked_ok s.hooks (partTarget r) .create (kind_partTarget hr) t
      (blueprint s volume plan r)
    obtain ⟨m, hm, -, hkey⟩ := metadata_of_hooked hr hbody
    rw [hbody]
    apply Action.Amid.bind (Access.amid_create hm ha _)
    · rintro created b ⟨hb, hthere⟩
      have hlog (text : String) : (Action.log text).Amid (accord s volume plan w)
          (fun _ b => b.Has k l ∧
            b.site.cluster.contains (key s.settings.serverNamespace r volume)) b := by
        apply (Action.amid_log hb).since.mono
        rintro _ b' ⟨hb', hmoves⟩
        exact ⟨hb', hmoves.there _ (hkey ▸ hthere)⟩
      cases created with
      | none => exact hlog _
      | some o => exact hlog _
    · intro v' hv' habsent
      have hto : Onward s volume plan w a.site v' := hv.trans hv'
      have hclaim' := fun hrc => hto.there _ (hclaim hrc)
      exact .of_ensures hw (hto.rising h) hr hclaim' (.made (hkey ▸ habsent) hbody)

theorem amid_ensure {present : String} (hw : w.cluster.Sealed) (hr : r.isNamespaced)
    (h : Rising s volume plan w a.site)
    (hclaim : r ≠ .claim → a.site.cluster.contains (key s.settings.serverNamespace .claim volume))
    (ha : a.Has (k + 4) (l + 2)) :
    (ensure s (partTarget r) r (Name.backing volume) present (blueprint s volume plan r)).Amid
      (accord s volume plan w)
      (fun _ b => b.Has k l ∧
        b.site.cluster.contains (key s.settings.serverNamespace r volume)) a := by
  apply Action.Amid.bind (Access.amid_get ha).since
  rintro found b ⟨⟨hb, hfound⟩, hmoves⟩
  rw [of_backing hr] at hfound
  cases found with
  | none => exact amid_make hw hr (hmoves.rising h) (fun hrc => hmoves.there _ (hclaim hrc)) hb
  | some o =>
    have hleft : b.Has (k + 1) l := hb.mono (by omega) (by omega)
    apply (Action.amid_log hleft).since.mono
    rintro _ b' ⟨hb', hmoves'⟩
    exact ⟨hb', hmoves'.there _ (congrArg Option.isSome hfound.symm)⟩

theorem amid_awaitBound {claim : Object} (hbound : isBound claim)
    (hclaim : a.site.cluster.store.get? (key s.settings.serverNamespace .claim volume) = some claim)
    (ha : a.Has (k + 2) l) :
    (awaitBound s (Name.backing volume)).Amid (accord s volume plan w)
      (fun found b => b.Has k l ∧ found = claim) a := by
  apply Action.amid_quiet (q := .deadline s.settings.bindTimeout) trivial ha
  intro (deadline : Rat) v _ hv hleft
  apply Action.amid_rounds (I := fun _ b => b = a.next v v) rfl
  · rintro _ _ rfl
    exact hleft.mono (by omega) (by omega)
  · rintro _ _ rfl v' hv'
    have hto : Onward s volume plan w a.site v' := Onward.trans hv hv'
    rw [Cluster.read, of_backing rfl, hto.parts .claim rfl claim hclaim]
    apply Action.amid_ite
    · exact fun _ => Action.amid_pure ⟨hleft.next v', rfl⟩
    · exact fun hpending => absurd hbound hpending

theorem renews_accord : (accord s volume plan w).Renews := fun _ _ h => Onward.renews h

/-- Hooks are applied to the storage, however often others come in between. -/
theorem amid_fit {claim : Object} (hw : w.cluster.Sealed) (h : Rising s volume plan w a.site)
    (hclaim : a.site.cluster.store.get? (key s.settings.serverNamespace .claim volume) = some claim)
    (ha : a.Has (k + 3) (l + 1)) :
    (hookVolume s .create claim).Amid (accord s volume plan w)
      (fun _ b => b.Has k l ∧ Fitted s volume plan w b.site) a := by
  have hclaim' {v : Site} (hto : Onward s volume plan w a.site v) := hto.parts .claim rfl claim hclaim
  apply (amid_hookVolume renews_accord (h.isSealed hw) _ ha).mono
  · rintro _ b ⟨hb, v, v', hto, hafter, hsince⟩
    have hrising : Rising s volume plan w v := Onward.rising hto h
    exact ⟨hb, Onward.fitted hsince (hrising.hook hw (hclaim' hto) hafter)⟩
  · intro name v v' hname hto hdresses
    exact .of_dresses hw (hclaim' hto) hname hdresses

theorem amid_address {x : String} (hx : exported? s volume a.site = some x)
    (ha : a.Has (k + 1) l) :
    (address s (Name.backing volume)).Amid (accord s volume plan w) (fun found _ => found = x) a := by
  rw [exported?] at hx
  apply Action.amid_ite
  · intro hnamed
    rw [if_neg (by simpa using hnamed)] at hx
    exact Action.amid_pure (Option.some.inj hx)
  · intro hip
    rw [if_pos (by simpa using hip)] at hx
    obtain ⟨service, hservice, hip⟩ := Option.bind_eq_some_iff.1 hx
    apply Action.Amid.bind (Access.amid_get ha).since
    rintro found b ⟨⟨-, hfound⟩, hmoves⟩
    rw [of_backing rfl, Onward.parts hmoves .service rfl service hservice] at hfound
    subst hfound
    apply Action.amid_ite
    · intro hbare
      rw [Object.hasSpec_of_text? (Option.filter_eq_some_iff.1 hip).1] at hbare
      cases hbare
    · intro _
      rw [hip]
      exact Action.amid_pure rfl

/-- Among others that do the same a run comes to its end with a complete backing. Unless others
write it makes at most 18 requests, and it writes at most 7 objects. -/
theorem amid_create (hw : w.cluster.Sealed) (h : Able s volume plan w) :
    (create s volume plan).Amid (accord s volume plan w)
      (fun x b => ∃ w₀, Complete s volume plan w w₀ b.site x) ⟨w, 18, 7⟩ := by
  have hstart : Stand.Has ⟨w, 18, 7⟩ 18 7 := ⟨Nat.le_refl _, Nat.le_refl _⟩
  apply Action.Amid.bind (amid_during (amid_ensure (r := .claim) hw rfl (.inl rfl)
    (absurd rfl) hstart))
  rintro _ a₁ ⟨⟨ha₁, hthere⟩, h₁⟩
  have hrising₁ : Rising s volume plan w a₁.site := h₁.rising (.inl rfl)
  obtain ⟨w₀, hbegun, hgrown⟩ := hrising₁.grown hw hthere
  obtain ⟨claim, hbound, hclaim⟩ := h.claim w₀ hbegun
  have hclaim₁ := hgrown.claim.trans hclaim
  apply Action.Amid.bind (amid_during (amid_ensure (r := .server) hw rfl hrising₁
    (fun _ => hthere) ha₁))
  rintro _ a₂ ⟨⟨ha₂, hserver₂⟩, h₂⟩
  have hclaim₂ := h₂.parts .claim rfl claim hclaim₁
  apply Action.Amid.bind (amid_during (amid_awaitBound hbound hclaim₂ ha₂))
  rintro _ a₃ ⟨⟨ha₃, rfl⟩, h₃⟩
  have hclaim₃ := h₃.parts .claim rfl _ hclaim₂
  apply Action.Amid.bind (amid_during (amid_fit hw (h₃.rising (h₂.rising hrising₁))
    hclaim₃ ha₃))
  rintro _ a₄ ⟨⟨ha₄, hfitted₄⟩, h₄⟩
  have hclaim₄ := h₄.parts .claim rfl _ hclaim₃
  apply Action.Amid.bind (amid_during (amid_ensure (r := .service) hw rfl hfitted₄.rising
    (fun _ => congrArg Option.isSome hclaim₄) ha₄))
  rintro _ a₅ ⟨⟨ha₅, hservice₅⟩, h₅⟩
  have hclaim₅ := h₅.parts .claim rfl _ hclaim₄
  have hserver₅ := h₅.there _ (h₄.there _ (h₃.there _ hserver₂))
  obtain ⟨w₁, hbegun₁, hgrown₁, hhooked₁⟩ := h₅.fitted hfitted₄
  obtain ⟨x, hx⟩ := h.exported w₁ a₅.site hbegun₁ hgrown₁ hservice₅
  apply (amid_during (amid_address hx ha₅)).mono
  rintro _ a₆ ⟨rfl, h₆⟩
  obtain ⟨w₂, hcomplete⟩ := Fitted.complete ⟨w₁, hbegun₁, hgrown₁, hhooked₁⟩ hbound hclaim₅ hserver₅
    hservice₅ hx
  exact h₆.complete hcomplete

/-- Any number of runs that make the backing of one volume side by side, in whatever order they are
answered: together they make a bounded number of requests, so that all come to an end. Each that
has ended has done so with the address with which a single run ends, and as soon as one has, the
site is as a single run leaves it, but for identities, versions, times and the order of the
storage's finalizers. Each part was created once then, unless it was there before; and what was
there before never changes. -/
theorem runs_converge {n : Nat} {ms : List (Fin n × Moment)}
    {rest : Fin n → Prog (Except Fault String)} (hw : w.cluster.Sealed) (hready : Ready s volume w)
    (h : Prog.Concert w (create s volume plan).run ms rest) :
    ms.length ≤ n * (18 + 3 * n * 7) ∧
    (∃ more rest', Prog.Concert w (create s volume plan).run (more ++ ms) rest' ∧
      ∀ i, ∃ r, (rest' i).head = .done r) ∧
    ∃ x, (∀ i r, (rest i).head = .done r → r = .ok x) ∧
      (create s volume plan).Yields (fun x' w' => x' = x ∧
        ∀ i r, (rest i).head = .done r → Same s volume w' (w.along (ms.map Prod.snd))) w ∧
      ∀ r : Resource, r.isNamespaced →
        (∀ i x, (rest i).head = .done x →
          (ms.map Prod.snd).countP (·.turn.creates (key s.settings.serverNamespace r volume)) =
            if w.cluster.contains (key s.settings.serverNamespace r volume) then 0 else 1) ∧
        ∀ o, w.cluster.store.get? (key s.settings.serverNamespace r volume) = some o →
          ∀ m ∈ ms.map Prod.snd,
            m.after.cluster.store.get? (key s.settings.serverNamespace r volume) = some o := by
  have hable : Able s volume plan w := hready.able
  have hsingle := hable.yields hw
  have hamid := amid_create hw hable
  have hbound {ms : List (Fin n × Moment)} {rest}
      (h : Prog.Concert w (create s volume plan).run ms rest) :
      ms.length ≤ n * (18 + 3 * n * 7) := by
    obtain ⟨_, -, hlength⟩ := h.amid hamid
    exact (Nat.le_add_right ..).trans hlength
  have hended {i r} (hr : (rest i).head = .done r) :
      ∃ x w₀, r = .ok x ∧ Complete s volume plan w w₀ (w.along (ms.map Prod.snd)) x := by
    obtain ⟨stand, hstand, -⟩ := h.amid hamid
    obtain ⟨hgoal, hmoves⟩ := hstand i
    have hdone := hgoal.head
    rw [hr] at hdone
    cases r with
    | ok x =>
      obtain ⟨w₀, hcomplete⟩ := hdone
      obtain ⟨w₁, hcomplete⟩ := Onward.complete hmoves hcomplete
      exact ⟨x, w₁, rfl, hcomplete⟩
    | error e => exact hdone.elim
  have hsteady {r : Resource} (hr : r.isNamespaced) :
      w.SteadyAlong (key s.settings.serverNamespace r volume) (ms.map Prod.snd) :=
    h.inv (keeps_create plan fun _ _ _ he => nomatch he) .start
      fun _ _ _ hms hbefore hx hq => hms.step hbefore (Site.steady_of_answers hx hq.builds hr)
  obtain ⟨_, r, w', -, hr⟩ := hsingle.run
  cases r with
  | error e => exact hr.elim
  | ok x =>
    obtain ⟨w₀, hone⟩ := hr
    refine ⟨hbound h, h.finishes fun _ _ => hbound, x, fun i r hr => ?_, ?_, fun r hr =>
      ⟨fun i y hy => ?_, fun o ho => ((hsteady hr).stays o ho).2⟩⟩
    · obtain ⟨y, w₁, rfl, hcomplete⟩ := hended hr
      rw [(hone.same hcomplete).1]
    · apply hsingle.mono
      rintro x' w'' ⟨w₁, honce⟩
      refine ⟨(hone.same honce).1, fun i r hr => ?_⟩
      obtain ⟨y, w₂, -, hcomplete⟩ := hended hr
      exact (honce.same hcomplete).2
    · obtain ⟨_, _, -, hcomplete⟩ := hended hy
      exact (hsteady hr).created (hcomplete.there r hr)

theorem ready_serving : Ready dating "v" serving := by
  have hclaim : serving.cluster.store.get? (key "nfs" .claim "v") = none := by decide +kernel
  have hservice : serving.cluster.store.get? (key "nfs" .service "v") = none := by decide +kernel
  refine ⟨rfl, rfl, fun claim h => ?_, fun service h => ?_⟩
  · cases hclaim.symm.trans h
  · cases hservice.symm.trans h

/-- Two runs that are answered in turns, so that one of them is refused at each write. -/
def alternating : List (Fin 2 × Moment) × (Fin 2 → Prog (Except Fault String)) :=
  Prog.concert serving (create dating "v" smallPlan).run (List.replicate 19 [0, 1]).flatten

theorem runs_converge_alternating :
    (∀ i, (alternating.2 i).result? = some (.ok "10.96.0.1")) ∧
    (create dating "v" smallPlan).Yields (fun x w => x = "10.96.0.1" ∧
      Same dating "v" w (serving.along (alternating.1.map Prod.snd))) serving ∧
    ∀ r : Resource, r.isNamespaced →
      (alternating.1.map Prod.snd).countP (·.turn.creates (key "nfs" r "v")) =
        (if serving.cluster.contains (key "nfs" r "v") then 0 else 1) ∧
      ∀ o, serving.cluster.store.get? (key "nfs" r "v") = some o →
        ∀ m ∈ alternating.1.map Prod.snd,
          m.after.cluster.store.get? (key "nfs" r "v") = some o := by
  have hresult : ∀ i, (alternating.2 i).result? = some (.ok "10.96.0.1") := by decide +kernel
  have hended := Prog.head_of_result? (hresult 0)
  obtain ⟨-, -, x, haddress, hyields, hparts⟩ :=
    runs_converge (Site.sealed_holding _) ready_serving (Prog.concert_runs serving _ _)
  cases haddress 0 _ hended
  refine ⟨hresult, hyields.mono ?_, fun r hr => ⟨(hparts r hr).1 0 _ hended, (hparts r hr).2⟩⟩
  exact fun _ _ ⟨hx, hsame⟩ => ⟨hx, hsame 0 _ hended⟩

end Backing

end VolumeExport
