import VolumeExport.Proofs.Backing.Advance
import VolumeExport.Proofs.Backing.Procedure
import VolumeExport.Proofs.Backing.Retreat

namespace VolumeExport

open VolumeExport.Action (either)

structure Object.Retouched (o o' : Object) : Prop where
  rest : o'.rest = o.rest
  same : ∃ annotations finalizers version, o'.metadata = some { o.knownMetadata with
    annotations := annotations, finalizers := finalizers, resourceVersion := version }

theorem Object.Dressed.retouched {hooks : Hooks} {target : Hook.Target} {event : Hook.Event}
    {o o' : Object} (h : Dressed hooks target event o o') : Retouched o o' :=
  ⟨h.rest, h.same⟩

theorem Cluster.Sealed.retouched_self {c : Cluster} (h : c.Sealed) (k : Key) :
    Option.Rel Object.Retouched (c.store.get? k) (c.store.get? k) := by
  cases hget : c.store.get? k with
  | none => exact .none
  | some o =>
    obtain ⟨_, -, hstamped⟩ := h _ o hget
    exact .some ⟨rfl, _, _, _, Object.metadata_of_uid hstamped.uid⟩

theorem Site.Dresses.retouched {hooks : Hooks} {target : Hook.Target} {event : Hook.Event} {k : Key}
    {w w' : Site} (h : w.Dresses hooks target event k w') :
    Option.Rel Object.Retouched (w.cluster.store.get? k) (w'.cluster.store.get? k) := by
  have hdressed := h.dressed
  generalize w.cluster.store.get? k = found at hdressed
  generalize w'.cluster.store.get? k = found' at hdressed
  cases hdressed with
  | none => exact .none
  | some hdressed => exact .some hdressed.retouched

theorem Action.leads_log_dated {w : Site} {text : String} {goal : Except Fault Unit → Site → Prop}
    (hok : goal (.ok ()) w) (herror : ∀ t, goal (.error (.clock t)) w) :
    (log text).Leads goal w := by
  apply leads_ask
  intro x w' hx
  obtain rfl : w' = w := hx
  cases x with
  | ok => exact leads_pure hok
  | error e => exact leads_fail (herror e)

namespace Backing

open Site (Spares)

variable {s : Setup} {volume : String} {plan : Plan} {r : Resource} {w v : Site}

/-! ### Making -/

/-- What the steps of making a backing do. The claim is waited for when it was made, and the address
is looked for when the service was. -/
inductive Makes (s : Setup) (volume : String) (plan : Plan) :
    List Step → Step → (α : Type) → Action α → Prop
  | createClaim {done present} : Makes s volume plan done .createClaim Unit
      (ensure s .backendClaim .claim (Name.backing volume) present
        (Manifest.claim s.settings.serverNamespace volume plan))
  | createServer {done present} : Makes s volume plan done .createServer Unit
      (ensure s .server .server (Name.backing volume) present
        (Manifest.server s.settings volume plan.config))
  | awaitClaim {done} : .createClaim ∈ done → Makes s volume plan done .awaitClaim Object
      (awaitBound s (Name.backing volume))
  | hookVolume {done claim} : Makes s volume plan done .hookVolume Unit
      (Backing.hookVolume s .create claim)
  | createService {done present} : Makes s volume plan done .createService Unit
      (ensure s .service .service (Name.backing volume) present
        (Manifest.service s.settings.serverNamespace volume))
  | findAddress {done} : .createService ∈ done → Makes s volume plan done .findAddress String
      (address s (Name.backing volume))

/-- Making a backing. A part is there when its step is done, and is as it was if the step fails. -/
def making (s : Setup) (volume : String) (plan : Plan) : Procedure where
  steps := [.createClaim, .createServer, .awaitClaim, .hookVolume, .createService, .findAddress]
  acts := Makes s volume plan
  object? := Step.part?
  finished found := found.isSome
  kept found found' := found' = found

theorem staged_create :
    (making s volume plan).Staged volume [] (making s volume plan).steps String
      (create s volume plan) := by
  apply Procedure.Staged.step Makes.createClaim
  intro _
  apply Procedure.Staged.step Makes.createServer
  intro _
  apply Procedure.Staged.step (Makes.awaitClaim (by decide))
  intro claim
  apply Procedure.Staged.step Makes.hookVolume
  intro _
  apply Procedure.Staged.step Makes.createService
  intro _
  exact .last (.findAddress (by decide))

theorem Ensures.spares {v' : Site} {place : Step} (hr : r.isNamespaced)
    (hplace : r ∈ place.touches) (hclaim : r = .claim → .volume ∈ place.touches)
    (h : Ensures s volume plan r v v') : v.Spares place v' := by
  intro k hk
  apply h.others hr
  · intro hkey
    rw [← hkey] at hk
    exact hk hplace
  · intro hrclaim hvolume
    rw [hvolume] at hk
    exact hk (hclaim hrclaim)

theorem Ensures.renews {v' : Site} (h : Ensures s volume plan r v v') :
    v.cluster.Renews v'.cluster := by
  cases h with
  | found => exact .refl _
  | made => exact v.cluster.renews_respond _

theorem leads_make_kept (hr : r.isNamespaced)
    (habsent : w.cluster.contains (key s.settings.serverNamespace r volume) = false) :
    (make s (partTarget r) r (blueprint s volume plan r)).Leads
      (either (fun _ _ => True) fun e v => (∀ t, e ≠ .clock t) → v = w) w := by
  apply Action.leads_ask
  intro t w' ht
  obtain rfl : w' = w := ht
  apply Action.leads_ofExcept_bind _ fun _ _ _ => rfl
  intro body hbody
  obtain ⟨m, hm, -, hkey⟩ := metadata_of_hooked hr hbody
  apply Action.Leads.bind (Access.leads_create hm (hkey ▸ habsent))
  · intro created v _
    have hlog (text : String) : (Action.log text).Leads
        (either (fun _ _ => True) fun e v => (∀ t, e ≠ .clock t) → v = w') v :=
      Action.leads_log_dated trivial fun t hdated => absurd rfl (hdated t)
    cases created with
    | none => exact hlog _
    | some o => exact hlog _
  · intro e v hv _
    exact hv

theorem leads_ensure_kept {present : String} (hr : r.isNamespaced) :
    (ensure s (partTarget r) r (Name.backing volume) present (blueprint s volume plan r)).Leads
      (either (fun _ _ => True) fun e v => (∀ t, e ≠ .clock t) → v = w) w := by
  apply Action.Leads.bind Access.leads_get
  · intro found w' hafter
    obtain ⟨hfound, rfl⟩ := hafter
    rw [of_backing hr] at hfound
    cases found with
    | none => exact leads_make_kept hr (congrArg Option.isSome hfound.symm)
    | some o => exact Action.leads_log_dated trivial fun _ _ => rfl
  · intro e w' hw _
    exact hw

theorem performs_ensure {place : Step} {present : String} (hr : r.isNamespaced)
    (hpart : place.part? = some r) (htouches : r ∈ place.touches)
    (hclaim : r = .claim → .volume ∈ place.touches) :
    (making s volume plan).Performs s volume place
      (ensure s (partTarget r) r (Name.backing volume) present (blueprint s volume plan r)) := by
  intro v _
  apply ((leads_ensure hr).and (leads_ensure_kept hr)).mono
  intro x v' hx
  obtain ⟨hensures, hkept⟩ := hx
  cases x with
  | ok =>
    refine ⟨Ensures.spares hr htouches hclaim hensures, Ensures.renews hensures, fun t ht => ?_⟩
    obtain rfl : r = t := Option.some.inj (hpart.symm.trans ht)
    exact Ensures.there hr hensures
  | error e =>
    constructor
    · rcases hensures with rfl | hensures
      · exact .refl place v'
      · exact Ensures.spares hr htouches hclaim hensures
    · intro hdated _ _ k _
      rw [hkept hdated]
      exact (rfl : v.cluster.store.get? k = v.cluster.store.get? k)

theorem spares_of_hooked {event : Hook.Event} {claim : Object} {v' : Site}
    (h : (bound? claim = none ∧ v' = v) ∨ ∃ name, bound? claim = some name ∧
      v.Dresses s.hooks .backendVolume event (volumeKey name) v') :
    v.Spares .hookVolume v' ∧ v.cluster.Renews v'.cluster := by
  rcases h with ⟨-, rfl⟩ | ⟨name, -, hdresses⟩
  · exact ⟨.refl _ _, .refl _⟩
  · refine ⟨fun k hk => hdresses.only.others k ?_, hdresses.only.renews⟩
    rintro rfl
    exact hk List.mem_cons_self

theorem making_kept (v : Site) (_ : v.cluster.Sealed) (k : Key) :
    (making s volume plan).kept (v.cluster.store.get? k) (v.cluster.store.get? k) :=
  Eq.refl (v.cluster.store.get? k)

theorem performs_of_makes {done : List Step} {place : Step} {α : Type} {a : Action α}
    (h : Makes s volume plan done place α a) :
    (making s volume plan).Performs s volume place a := by
  cases h with
  | createClaim => exact performs_ensure (r := .claim) rfl rfl (by decide) (by decide)
  | createServer => exact performs_ensure (r := .server) rfl rfl (by decide) (by decide)
  | createService => exact performs_ensure (r := .service) rfl rfl (by decide) (by decide)
  | awaitClaim =>
    apply Procedure.performs_of_idle rfl making_kept
    intro v _
    apply leads_awaitBound.mono
    intro x v' hx
    cases x with
    | ok claim =>
      obtain rfl := hx.1
      exact ⟨.refl _ _, .refl _⟩
    | error e => exact hx
  | hookVolume =>
    apply Procedure.performs_of_idle rfl making_kept
    intro v hv
    apply (leads_hookVolume hv).mono
    intro x v' hx
    cases x with
    | ok => exact spares_of_hooked hx
    | error e => exact hx
  | findAddress =>
    apply Procedure.performs_of_idle rfl making_kept
    intro v _
    apply leads_address.mono
    intro x v' hx
    cases x with
    | ok found =>
      obtain rfl := hx.1
      exact ⟨.refl _ _, .refl _⟩
    | error e => exact hx

/-- Where an object is missed that nobody else can have taken away, there is none. -/
theorem absent_of_missed {α : Type} {p rest : Prog α} {ms : List Moment} (hr : r.isNamespaced)
    (h : p.Course .alone w ms rest) (hmissed : Missed s volume r (ms.map Moment.turn)) :
    (w.along ms).cluster.contains (key s.settings.serverNamespace r volume) = false := by
  obtain ⟨e, before, hpast, he⟩ := hmissed
  obtain ⟨m, ms, rfl, hturn, -⟩ := List.map_eq_cons_iff.1 hpast
  have hshows : m.turn.shows (key s.settings.serverNamespace r volume) = some false := by
    rw [hturn]
    exact (if_pos (congrArg some (of_backing hr))).trans (if_pos he)
  have hfits : m.turn.request.Fits := by
    rw [hturn]
    trivial
  exact Site.contains_of_shows (fun _ hmute => hmute) h.moment.2 hfits hshows

theorem blamed_of_makes {done later : List Step} {place : Step} {α : Type} {a : Action α}
    {own : List Moment} {cause : Fault} (h : Makes s volume plan done place α a)
    (hreached : (making s volume plan).Reached s volume done (place :: later) w v)
    (hruns : a.Runs .alone v own (.error cause)) :
    Blamed s volume cause (own.map Moment.turn) := by
  -- What was there when the step began is there where it fails, so it was not missed.
  have hthere {b : Step} {t : Resource} (hb : b ∈ done) (hpart : b.part? = some t)
      (ht : t.isNamespaced) (hsame : v.along own = v)
      (hmissed : Missed s volume t (own.map Moment.turn)) : False := by
    obtain ⟨rest, hcourse, -⟩ := hruns
    have habsent := absent_of_missed ht hcourse hmissed
    rw [hsame] at habsent
    cases (hreached.finished b hb t hpart).symm.trans habsent
  cases h with
  | createClaim => exact (blames_ensure rfl _ _ _ []).runs hruns
  | createServer => exact (blames_ensure rfl _ _ _ []).runs hruns
  | createService => exact (blames_ensure rfl _ _ _ []).runs hruns
  | hookVolume => exact (blames_hookVolume _ _ []).runs hruns
  | awaitClaim hdone =>
    rcases (blames_awaitBound []).runs hruns with hblamed | hmissed
    · exact hblamed
    · exact (hthere hdone rfl rfl (leads_awaitBound.runs hruns) hmissed).elim
  | findAddress hdone =>
    rcases (blames_address []).runs hruns with hblamed | hmissed
    · exact hblamed
    · exact (hthere hdone rfl rfl (leads_address.runs hruns) hmissed).elim

theorem sound_making : (making s volume plan).Sound s volume where
  apart := by
    have hapart : List.Pairwise (Procedure.Apart Step.part?) [.createClaim, .createServer,
        .awaitClaim, .hookVolume, .createService, .findAddress] := by decide
    exact hapart
  performs := performs_of_makes
  blamed := blamed_of_makes

/-! ### Taking down -/

inductive Razes (s : Setup) (volume : String) :
    List Step → Step → (α : Type) → Action α → Prop
  | deleteService {done} : Razes s volume done .deleteService Unit
      (remove s .service .service (Name.backing volume))
  | deleteServer {done} : Razes s volume done .deleteServer Unit
      (remove s .server .server (Name.backing volume))
  | hookVolume {done} : Razes s volume done .hookVolume Unit (do
      match ← Access.get .claim (some s.settings.serverNamespace) (some (Name.backing volume)) with
      | some claim => Backing.hookVolume s .delete claim
      | none => return)
  | deleteClaim {done} : Razes s volume done .deleteClaim Unit
      (remove s .backendClaim .claim (Name.backing volume))

/-- What a step of taking down a backing is about: the part that goes, or the storage. -/
def withStorage? : Step → Option Resource
  | .hookVolume => some .volume
  | step => step.part?

theorem withStorage?_of_part? {place : Step} (h : place.part? = some r) :
    withStorage? place = some r := by
  cases place with
  | hookVolume => cases h
  | _ => exact h

/-- Taking down a backing. A part is gone when its step is done, and if the step fails, the part is
there as before, but that hooks may have marked it. -/
def razing (s : Setup) (volume : String) : Procedure where
  steps := [.deleteService, .deleteServer, .hookVolume, .deleteClaim]
  acts := Razes s volume
  object? := withStorage?
  finished found := found = none
  kept := Option.Rel Object.Retouched

theorem staged_delete :
    (razing s volume).Staged volume [] (razing s volume).steps Unit (delete s volume) := by
  apply Procedure.Staged.step Razes.deleteService
  intro _
  apply Procedure.Staged.step Razes.deleteServer
  intro _
  apply Procedure.Staged.step Razes.hookVolume
  intro _
  exact .last .deleteClaim

theorem leads_removeFound_kept {ns name : Option String} {text : String} {found : Option Object}
    (h : Option.Rel Object.Retouched found (w.cluster.store.get? (.of r ns name))) :
    Action.Leads
      (either (fun _ _ => True) fun e w' => (∀ t, e ≠ .clock t) →
        Option.Rel Object.Retouched found (w'.cluster.store.get? (.of r ns name)))
      (do if ← Access.delete r ns name then Action.log text) w := by
  apply Action.Leads.bind Access.leads_delete
  · intro deleted w' _
    apply Action.leads_ite
    · intro _
      exact Action.leads_log_dated trivial fun t hdated => absurd rfl (hdated t)
    · exact fun _ => Action.leads_pure trivial
  · intro e w' hsame _
    obtain rfl : w' = w := hsame
    exact h

theorem leads_remove_kept {target : Hook.Target} (hr : r.isNamespaced) (hw : w.cluster.Sealed) :
    (remove s target r (Name.backing volume)).Leads
      (either (fun _ _ => True) fun e w' => (∀ t, e ≠ .clock t) →
        Option.Rel Object.Retouched
          (w.cluster.store.get? (key s.settings.serverNamespace r volume))
          (w'.cluster.store.get? (key s.settings.serverNamespace r volume))) w := by
  rw [← of_backing hr]
  apply Action.leads_ite
  · intro _
    apply Action.Leads.bind (Access.leads_modify_hooked hw)
    · intro m w' hafter
      obtain ⟨-, hdresses⟩ := hafter
      obtain ⟨found, n⟩ := m
      cases found with
      | none => exact Action.leads_pure trivial
      | some o => exact leads_removeFound_kept hdresses.retouched
    · intro e w' hsame _
      obtain rfl : w' = w := hsame
      exact hw.retouched_self _
  · intro _
    apply Action.Leads.bind Access.leads_get
    · intro found w' hafter
      obtain ⟨-, rfl⟩ := hafter
      cases found with
      | none => exact Action.leads_pure trivial
      | some o => exact leads_removeFound_kept (hw.retouched_self _)
    · intro e w' hsame _
      obtain rfl : w' = w := hsame
      exact hw.retouched_self _

theorem performs_remove {place : Step} {target : Hook.Target} (hr : r.isNamespaced)
    (hpart : withStorage? place = some r) (htouches : r ∈ place.touches) :
    (razing s volume).Performs s volume place (remove s target r (Name.backing volume)) := by
  intro v hv
  have hspares {v' : Site} (h : Site.Takes (key s.settings.serverNamespace r volume) v v') :
      v.Spares place v' := by
    intro k hk
    apply h.only.others
    rintro rfl
    exact hk htouches
  apply ((leads_remove hr hv).and (leads_remove_kept hr hv)).mono
  intro x v' hx
  cases x with
  | ok =>
    obtain ⟨⟨htakes, hgone⟩, -⟩ := hx
    refine ⟨hspares htakes, htakes.only.renews, fun t ht => ?_⟩
    obtain rfl : r = t := Option.some.inj (hpart.symm.trans (withStorage?_of_part? ht))
    exact hgone
  | error e =>
    obtain ⟨htakes, hkept⟩ := hx
    constructor
    · exact hspares htakes
    · intro hdated _ _ k _
      by_cases hkey : k = key s.settings.serverNamespace r volume
      · rw [hkey]
        exact hkept hdated
      · rw [htakes.only.others k hkey]
        exact hv.retouched_self k

theorem razing_kept (v : Site) (hv : v.cluster.Sealed) (k : Key) :
    (razing s volume).kept (v.cluster.store.get? k) (v.cluster.store.get? k) :=
  hv.retouched_self k

theorem performs_of_razes {done : List Step} {place : Step} {α : Type} {a : Action α}
    (h : Razes s volume done place α a) : (razing s volume).Performs s volume place a := by
  cases h with
  | deleteService => exact performs_remove rfl rfl (by decide)
  | deleteServer => exact performs_remove rfl rfl (by decide)
  | deleteClaim => exact performs_remove rfl rfl (by decide)
  | hookVolume =>
    apply Procedure.performs_of_idle rfl razing_kept
    intro v hv
    apply Action.Leads.bind Access.leads_get
    · intro found v' hafter
      obtain ⟨-, rfl⟩ := hafter
      cases found with
      | none => exact Action.leads_pure ⟨.refl _ _, .refl _⟩
      | some claim =>
        apply (leads_hookVolume hv).mono
        intro x v'' hx
        cases x with
        | ok => exact spares_of_hooked hx
        | error e => exact hx
    · exact fun _ _ hsame => hsame

theorem blamed_of_razes {done : List Step} {place : Step} {α : Type} {a : Action α}
    {own : List Moment} {cause : Fault} (h : Razes s volume done place α a)
    (hruns : a.Runs .alone v own (.error cause)) :
    Blamed s volume cause (own.map Moment.turn) := by
  cases h with
  | deleteService => exact (blames_remove rfl _ []).runs hruns
  | deleteServer => exact (blames_remove rfl _ []).runs hruns
  | deleteClaim => exact (blames_remove rfl _ []).runs hruns
  | hookVolume =>
    have hblames : Action.Blames (Blamed s volume) (do
        match ← Access.get .claim (some s.settings.serverNamespace)
            (some (Name.backing volume)) with
        | some claim => Backing.hookVolume s .delete claim
        | none => return) := by
      apply (blames_get .claim _ _).bind
      intro found
      cases found with
      | none => exact Action.blames_pure ()
      | some claim => exact blames_hookVolume .delete claim
    exact (hblames []).runs hruns

theorem sound_razing : (razing s volume).Sound s volume where
  apart := by
    have hapart : List.Pairwise (Procedure.Apart withStorage?) [.deleteService, .deleteServer,
        .hookVolume, .deleteClaim] := by decide
    exact hapart
  performs := performs_of_razes
  blamed h _ := blamed_of_razes h

/-- An operation on a backing that fails, however calls have failed, names the step that has failed.
The fault holds what this step was told last, the parts of the steps before it are made or gone, and
its own part and those of the steps behind it are as they were, but that hooks may have marked a
part that was not deleted after all. -/
theorem fault_at_step (hw : w.cluster.Sealed) :
    (∀ plan ms f, (create s volume plan).Runs .alone w ms (.error f) →
      ∃ done place later cause, f = .step place volume cause ∧
        (making s volume plan).Halts s volume w ms done place later cause) ∧
    ∀ ms f, (delete s volume).Runs .alone w ms (.error f) →
      ∃ done place later cause, f = .step place volume cause ∧
        (razing s volume).Halts s volume w ms done place later cause := by
  constructor
  · intro plan ms f hruns
    have hhalts := staged_create.halts sound_making rfl (.start hw _) .start hruns
    rwa [List.append_nil] at hhalts
  · intro ms f hruns
    have hhalts := staged_delete.halts sound_razing rfl (.start hw _) .start hruns
    rwa [List.append_nil] at hhalts

def delayed : List Moment × Prog (Except Fault String) :=
  Prog.replay standing (create marking "v" smallPlan).run (List.replicate 9 .none)

theorem runs_delayed : (create marking "v" smallPlan).Runs .alone standing delayed.1
    (.error (.step .awaitClaim "v" (.notBound marking.settings.bindTimeout "nfs" "nfs-v"))) := by
  apply Prog.runs_replay _ (by decide +kernel)
  intro i hi
  rw [List.eq_of_mem_replicate hi]
  exact Incident.among_none

theorem runs_stopped : (delete marking "v").Runs .alone standing stopped.1
    (.error (.step .deleteClaim "v" (.api (.refused 500 "Internal Server Error" none)))) := by
  apply Prog.runs_replay _ (by decide +kernel)
  intro i hi
  rcases List.mem_cons.1 hi with rfl | hi
  · exact Incident.among_refusal
  · rw [List.eq_of_mem_replicate hi]
    exact Incident.among_none

theorem fault_at_step_delayed :
    (∃ done place later cause,
      Fault.step .awaitClaim "v" (.notBound marking.settings.bindTimeout "nfs" "nfs-v") =
        .step place "v" cause ∧
      (making marking "v" smallPlan).Halts marking "v" standing delayed.1 done place later cause) ∧
    ∃ done place later cause,
      Fault.step .deleteClaim "v" (.api (.refused 500 "Internal Server Error" none)) =
        .step place "v" cause ∧
      (razing marking "v").Halts marking "v" standing stopped.1 done place later cause := by
  obtain ⟨hcreate, hdelete⟩ := @fault_at_step marking "v" standing (Site.sealed_holding _)
  exact ⟨hcreate smallPlan _ _ runs_delayed, hdelete _ _ runs_stopped⟩

end Backing

end VolumeExport
