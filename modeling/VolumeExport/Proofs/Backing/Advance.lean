import VolumeExport.Proofs.Backing.Buildup
import VolumeExport.Proofs.Backing.Growth
import VolumeExport.Proofs.Backing.Removal
import VolumeExport.Proofs.Steady

namespace VolumeExport.Backing

open VolumeExport.Action (either)

variable {s : Setup} {volume : String} {plan : Plan} {r : Resource} {w v : Site}

theorem leads_make (hr : r.isNamespaced)
    (habsent : w.cluster.contains (key s.settings.serverNamespace r volume) = false) :
    (make s (partTarget r) r (blueprint s volume plan r)).Leads
      (either (fun _ v => Ensures s volume plan r w v)
        fun _ v => v = w ∨ Ensures s volume plan r w v) w := by
  apply Action.leads_ask
  intro t w' ht
  obtain rfl : w' = w := ht
  apply Action.leads_ofExcept_bind _ fun _ _ => .inl rfl
  intro body hbody
  obtain ⟨m, hm, -, hkey⟩ := metadata_of_hooked hr hbody
  apply Action.Leads.bind (Access.leads_create hm (hkey ▸ habsent))
  · rintro created _ rfl
    have hmade := Ensures.made habsent hbody
    have hdone (x : Except Fault Unit) :
        either (fun _ v => Ensures s volume plan r w' v)
          (fun _ v => v = w' ∨ Ensures s volume plan r w' v) x
          (w'.after (.create r (some s.settings.serverNamespace) body)) := by
      cases x with
      | ok => exact hmade
      | error e => exact .inr hmade
    cases created with
    | none => exact Action.leads_log hdone
    | some o => exact Action.leads_log hdone
  · rintro e _ rfl
    exact .inl rfl

theorem kind_partTarget (hr : r.isNamespaced) : r.kind = (partTarget r).kind := by
  cases r with
  | claim => rfl
  | server => rfl
  | service => rfl
  | _ => cases hr

theorem yields_make (hr : r.isNamespaced)
    (habsent : w.cluster.contains (key s.settings.serverNamespace r volume) = false) :
    (make s (partTarget r) r (blueprint s volume plan r)).Yields (fun _ _ => True) w := by
  apply Action.ends_ask
  intro t w' ht
  obtain ⟨hw, ht⟩ := ht
  obtain rfl : w' = w := hw
  cases t with
  | error e => cases ht
  | ok t =>
    obtain ⟨body, hbody, -⟩ := hooked_ok s.hooks (partTarget r) .create (kind_partTarget hr) t
      (blueprint s volume plan r)
    obtain ⟨m, hm, -, hkey⟩ := metadata_of_hooked hr hbody
    rw [hbody]
    apply Action.Yields.bind (Access.yields_create hm (hkey ▸ habsent))
    intro created w' _
    cases created with
    | none => exact Action.yields_log.mono fun _ _ _ => trivial
    | some o => exact Action.yields_log.mono fun _ _ _ => trivial

theorem leads_ensure {present : String} (hr : r.isNamespaced) :
    (ensure s (partTarget r) r (Name.backing volume) present (blueprint s volume plan r)).Leads
      (either (fun _ v => Ensures s volume plan r w v)
        fun _ v => v = w ∨ Ensures s volume plan r w v) w := by
  apply Action.Leads.bind Access.leads_get
  · intro found w' hafter
    obtain ⟨hfound, rfl⟩ := hafter
    rw [of_backing hr] at hfound
    cases found with
    | none => exact leads_make hr (congrArg Option.isSome hfound.symm)
    | some o =>
      apply Action.leads_log
      intro x
      have hthere : Ensures s volume plan r w' w' := .found (congrArg Option.isSome hfound.symm)
      cases x with
      | ok => exact hthere
      | error e => exact .inl rfl
  · rintro e _ rfl
    exact .inl rfl

theorem yields_ensure {present : String} (hr : r.isNamespaced) :
    (ensure s (partTarget r) r (Name.backing volume) present (blueprint s volume plan r)).Yields
      (fun _ v => Ensures s volume plan r w v) w := by
  refine Action.Yields.leads (M := fun _ _ => True) ?_ (leads_ensure hr)
  apply Action.Yields.bind Access.yields_get
  intro found w' hafter
  obtain ⟨hfound, rfl⟩ := hafter
  rw [of_backing hr] at hfound
  cases found with
  | none => exact yields_make hr (congrArg Option.isSome hfound.symm)
  | some o => exact Action.yields_log.mono fun _ _ _ => trivial

theorem leads_awaitBound :
    (awaitBound s (Name.backing volume)).Leads
      (either (fun claim v => v = w ∧ isBound claim ∧ w.cluster.store.get?
          (key s.settings.serverNamespace .claim volume) = some claim)
        fun _ v => v = w) w := by
  apply Action.leads_ask
  intro (deadline : Rat) w' hw
  obtain rfl : w' = w := hw
  apply Action.leads_rounds (I := fun _ v => v = w') rfl
  intro _ v hv x v' hx
  obtain rfl : v = w' := hv
  rcases hx with ⟨rfl, rfl⟩ | ⟨e, he, rfl, rfl⟩
  · rw [Cluster.respond, Cluster.read, of_backing rfl]
    cases hclaim : v.cluster.store.get? (key s.settings.serverNamespace .claim volume) with
    | none => exact Action.leads_fail rfl
    | some claim =>
      apply Action.leads_ite
      · exact fun hbound => Action.leads_pure ⟨rfl, hbound, rfl⟩
      · intro _
        apply Action.leads_ask
        intro (uptime : Rat) v' hv
        obtain rfl : v' = v := hv
        apply Action.leads_ite (fun _ => Action.leads_fail rfl)
        intro _
        apply Action.leads_ask
        intro _ v'' hv
        obtain rfl : v'' = v' := hv
        exact Action.leads_pure rfl
  · exact Access.leads_of_mute he (Action.leads_fail rfl)

theorem yields_awaitBound {claim : Object} (hbound : isBound claim)
    (hclaim : w.cluster.store.get? (key s.settings.serverNamespace .claim volume) = some claim) :
    (awaitBound s (Name.backing volume)).Yields
      (fun found v => v = w ∧ isBound found ∧ w.cluster.store.get?
        (key s.settings.serverNamespace .claim volume) = some found) w := by
  refine Action.Yields.leads (M := fun _ _ => True) ?_ leads_awaitBound
  apply Action.ends_ask
  intro (deadline : Rat) w' hw
  obtain rfl : w' = w := hw.1
  apply Action.yields_rounds
  intro x v hx
  obtain ⟨rfl, rfl⟩ := Site.eq_of_call hx
  rw [Cluster.respond, Cluster.read, of_backing rfl, hclaim]
  apply Action.ends_ite
  · exact fun _ => Action.yields_pure ⟨claim, rfl, trivial⟩
  · exact fun hpending => absurd hbound hpending

theorem leads_address :
    (address s (Name.backing volume)).Leads
      (either (fun found v => v = w ∧ exported? s volume w = some found) fun _ v => v = w) w := by
  rw [address, exported?]
  apply Action.leads_ite
  · intro hnamed
    rw [if_neg (by simpa using hnamed)]
    exact Action.leads_pure ⟨rfl, rfl⟩
  · intro hip
    rw [if_pos (by simpa using hip)]
    apply Action.Leads.bind Access.leads_get
    · intro found w' hafter
      obtain ⟨hfound, rfl⟩ := hafter
      rw [of_backing rfl] at hfound
      rw [← hfound]
      cases found with
      | none => exact Action.leads_fail rfl
      | some service =>
        apply Action.leads_ite (fun _ => Action.leads_fail rfl)
        intro _
        rw [Option.bind_some]
        cases (service.text? ["spec", "clusterIP"]).filter (· ≠ "") with
        | none => exact Action.leads_fail rfl
        | some ip => exact Action.leads_pure ⟨rfl, rfl⟩
    · rintro e _ rfl
      exact rfl

theorem yields_address {found : String} (h : exported? s volume w = some found) :
    (address s (Name.backing volume)).Yields
      (fun found v => v = w ∧ exported? s volume w = some found) w := by
  refine Action.Yields.leads (M := fun _ _ => True) ?_ leads_address
  rw [exported?] at h
  apply Action.ends_ite
  · exact fun _ => Action.yields_pure trivial
  · intro hip
    rw [if_pos (by simpa using hip)] at h
    apply Action.Yields.bind Access.yields_get
    intro found w' hafter
    obtain ⟨hfound, rfl⟩ := hafter
    rw [of_backing rfl] at hfound
    rw [← hfound] at h
    cases found with
    | none => cases h
    | some service =>
      rw [Option.bind_some] at h
      apply Action.ends_ite
      · intro hbare
        have hspec := Object.hasSpec_of_text? (Option.filter_eq_some_iff.1 h).1
        rw [hspec] at hbare
        cases hbare
      · intro _
        rw [h]
        exact Action.yields_pure trivial

/-- A site where attempts to make a backing have come to some point. -/
def Rising (s : Setup) (volume : String) (plan : Plan) (w v : Site) : Prop :=
  v = w ∨ ∃ w₀, Ensures s volume plan .claim w w₀ ∧ Grown s volume plan w₀ v

theorem Rising.begin {v' : Site} (hw : w.cluster.Sealed) (h : Rising s volume plan w v)
    (he : Ensures s volume plan .claim v v') :
    ∃ w₀, Ensures s volume plan .claim w w₀ ∧ Grown s volume plan w₀ v' := by
  rcases h with rfl | ⟨w₀, hbegun, hgrown⟩
  · exact ⟨v', he, .start (he.isSealed hw)⟩
  · have hthere : v.cluster.contains (key s.settings.serverNamespace .claim volume) :=
      (congrArg Option.isSome hgrown.claim).trans (hbegun.there rfl)
    cases he with
    | found => exact ⟨w₀, hbegun, hgrown⟩
    | made habsent => cases hthere.symm.trans habsent

theorem Rising.part {w₀ v' : Site} (hr : r.isNamespaced) (hclaim : r ≠ .claim)
    (hbegun : Ensures s volume plan .claim w w₀) (hgrown : Grown s volume plan w₀ v)
    (h : v' = v ∨ Ensures s volume plan r v v') : Rising s volume plan w v' := by
  rcases h with rfl | he
  · exact .inr ⟨w₀, hbegun, hgrown⟩
  · exact .inr ⟨w₀, hbegun, hgrown.part hr hclaim he⟩

/-- An attempt to make a backing goes on with it, and if it ends with a value, the backing is
complete. -/
theorem leads_create (hw : w.cluster.Sealed) (h : Rising s volume plan w v) :
    (create s volume plan).Leads
      (either (fun a v' => ∃ w₀, Complete s volume plan w w₀ v' a)
        fun _ v' => Rising s volume plan w v') v := by
  apply leads_during_bind (leads_ensure (r := .claim) rfl)
  · rintro _ _ v₁ (rfl | he)
    · exact h
    · exact .inr (h.begin hw he)
  intro _ v₁ he₁
  obtain ⟨w₀, hbegun, h₁⟩ := h.begin hw he₁
  apply leads_during_bind (leads_ensure (r := .server) rfl)
  · exact fun _ _ v₂ he₂ => .part rfl (by decide) hbegun h₁ he₂
  intro _ v₂ he₂
  have h₂ := h₁.part rfl (by decide) he₂
  apply leads_during_bind leads_awaitBound
  · rintro _ _ _ rfl
    exact .inr ⟨w₀, hbegun, h₂⟩
  rintro claim _ ⟨rfl, hbound, hclaim⟩
  apply leads_during_bind (leads_hookVolume h₂.isSealed)
  · rintro _ _ _ rfl
    exact .inr ⟨w₀, hbegun, h₂⟩
  intro _ v₃ hafter
  obtain ⟨h₃, -⟩ := h₂.hook hclaim hafter
  apply leads_during_bind (leads_ensure (r := .service) rfl)
  · exact fun _ _ v₄ he₄ => .part rfl (by decide) hbegun h₃ he₄
  intro _ v₄ he₄
  have h₄ := h₃.part rfl (by decide) he₄
  apply leads_during leads_address
  · rintro _ _ _ rfl
    exact .inr ⟨w₀, hbegun, h₄⟩
  rintro a _ ⟨rfl, hexported⟩
  exact ⟨w₀, h₂.complete hbegun (he₂.there rfl) hbound hclaim hafter he₄ hexported⟩

/-- However a backing of a volume grows from a site, its claim is bound as soon as it is there, and
its service tells an address. -/
structure Able (s : Setup) (volume : String) (plan : Plan) (w : Site) : Prop where
  claim : ∀ w₀, Ensures s volume plan .claim w w₀ → ∃ claim, isBound claim ∧
    w₀.cluster.store.get? (key s.settings.serverNamespace .claim volume) = some claim
  exported : ∀ w₀ v, Ensures s volume plan .claim w w₀ → Grown s volume plan w₀ v →
    v.cluster.contains (key s.settings.serverNamespace .service volume) →
      ∃ a, exported? s volume v = some a

/-- A single attempt without failures makes a complete backing. -/
theorem Able.yields (h : Able s volume plan w) (hw : w.cluster.Sealed) :
    (create s volume plan).Yields (fun a v => ∃ w₀, Complete s volume plan w w₀ v a) w := by
  apply Action.Yields.bind (yields_during (yields_ensure (r := .claim) rfl))
  intro _ w₁ he₁
  apply Action.Yields.bind (yields_during (yields_ensure (r := .server) rfl))
  intro _ w₂ he₂
  have h₂ := (Grown.start (he₁.isSealed hw)).part rfl (by decide) he₂
  obtain ⟨claim, hbound, hclaim⟩ := h.claim w₁ he₁
  apply Action.Yields.bind (yields_during (yields_awaitBound hbound (h₂.claim.trans hclaim)))
  rintro claim _ ⟨rfl, hbound, hclaim⟩
  apply Action.Yields.bind
    (yields_during (yields_hookVolume.leads (leads_hookVolume h₂.isSealed)))
  intro _ w₃ hafter
  obtain ⟨h₃, -⟩ := h₂.hook hclaim hafter
  apply Action.Yields.bind (yields_during (yields_ensure (r := .service) rfl))
  intro _ w₄ he₄
  have h₄ := h₃.part rfl (by decide) he₄
  obtain ⟨a, hexported⟩ := h.exported w₁ w₄ he₁ h₄ (he₄.there rfl)
  apply (yields_during (yields_address hexported)).mono
  rintro a' _ ⟨rfl, hexported⟩
  exact ⟨w₁, h₂.complete he₁ (he₂.there rfl) hbound hclaim hafter he₄ hexported⟩

theorem Complete.able {w₀ : Site} {a : String} (h : Complete s volume plan w w₀ v a)
    (hw : w.cluster.Sealed) : Able s volume plan w :=
  ⟨fun _ hbegun => h.claim_of_begun hw hbegun,
    fun _ _ hbegun hgrown hservice => ⟨a, h.exported_of_grown hbegun hgrown hservice⟩⟩

theorem yields_create {w₀ : Site} {a : String} (hw : w.cluster.Sealed)
    (h : Complete s volume plan w w₀ v a) :
    (create s volume plan).Yields (fun a' v' => ∃ w₁, Complete s volume plan w w₁ v' a') w :=
  (h.able hw).yields hw

theorem rising_after_attempts {past : List Moment} (hw : w.cluster.Sealed)
    (h : (create s volume plan).Attempts .alone w past) :
    Rising s volume plan w (w.along past) := by
  apply h.inv (.inl rfl)
  intro v hv
  apply (leads_create hw hv).mono
  intro x v' hx
  cases x with
  | ok a =>
    obtain ⟨w₀, hcomplete⟩ := hx
    exact .inr ⟨w₀, hcomplete.begun, hcomplete.grown⟩
  | error e => exact hx

theorem Buildup.builds {q : Request} {p : Past} (h : Buildup s volume plan q p) : q.Builds := by
  cases h with
  | quiet hq =>
    cases q with
    | call => exact hq.elim
    | _ => trivial
  | replace => rfl
  | _ => trivial

/-- After attempts to make a backing, the last of which has ended with an address, a single attempt
without failures would have ended with the same address, at the same site but for identities,
versions, times and the order of the storage's finalizers. Over all attempts each part was created
once, unless it was there before; then it has never changed. -/
theorem same_after_attempts {past ms : List Moment} {a : String} (hw : w.cluster.Sealed)
    (h : (create s volume plan).Attempts .alone w past)
    (hlast : (create s volume plan).run.Runs .alone (w.along past) ms (.ok a)) :
    (create s volume plan).Yields
      (fun a' w' => a' = a ∧ Same s volume w' (w.along (ms ++ past))) w ∧
    ∀ r : Resource, r.isNamespaced →
      (ms ++ past).countP (·.turn.creates (key s.settings.serverNamespace r volume)) =
        (if w.cluster.contains (key s.settings.serverNamespace r volume) then 0 else 1) ∧
      ∀ o, w.cluster.store.get? (key s.settings.serverNamespace r volume) = some o →
        ∀ m ∈ ms ++ past,
          m.after.cluster.store.get? (key s.settings.serverNamespace r volume) = some o := by
  obtain ⟨w₀, hcomplete⟩ := (leads_create hw (rising_after_attempts hw h)).runs hlast
  rw [← Site.along_append] at hcomplete
  refine ⟨(yields_create hw hcomplete).mono ?_, fun r hr => ?_⟩
  · rintro a' w' ⟨w₁, honce⟩
    obtain ⟨haddress, hsame⟩ := honce.same hcomplete
    exact ⟨haddress.symm, hsame⟩
  · have hsteady : w.SteadyAlong (key s.settings.serverNamespace r volume) (ms ++ past) :=
      (h.again hlast).steady (keeps_create plan fun _ _ _ he => nomatch he) (fun _ _ => Buildup.builds)
        hr
    exact ⟨hsteady.created (hcomplete.there r hr), fun o ho => (hsteady.stays o ho).2⟩

def dating : Setup where
  settings := { Settings.ofNamespaces "nfs-provisioner" "nfs" with useClusterIP := true }
  hooks := [⟨"date", .create, .add, [(.backendVolume,
    ⟨.ofList [("exported", "at $\x7bCURRENT_TIMESTAMP\x7d")], ["example.com/keep"]⟩)]⟩]

def smallPlan : Plan where
  owner := ⟨some "data", some "apps", some "uid-1"⟩
  capacity := some "1Gi"
  config := .default

def serving : Site :=
  .holding [(.server, Manifest.server dating.settings "v" smallPlan.config)]

def halted : List Moment × Prog (Except Fault String) :=
  Prog.replay serving (create dating "v" smallPlan).run (.refusal :: List.replicate 13 .none)

def completed : List Moment × Prog (Except Fault String) :=
  Prog.replay (serving.along halted.1) (create dating "v" smallPlan).run (List.replicate 13 .none)

theorem attempts_halted : (create dating "v" smallPlan).Attempts .alone serving halted.1 := by
  rw [← List.append_nil halted.1]
  refine .again .start (Prog.runs_replay ?_ (a := .error (.step .createService "v"
    (.api (.refused 500 "Internal Server Error" none)))) (by decide +kernel))
  rintro i hi
  rcases List.mem_cons.1 hi with rfl | hi
  · exact Incident.among_refusal
  · rw [List.eq_of_mem_replicate hi]
    exact Incident.among_none

theorem runs_completed :
    (create dating "v" smallPlan).run.Runs .alone (serving.along halted.1) completed.1
      (.ok "10.96.0.1") := by
  apply Prog.runs_replay _ (by decide +kernel)
  intro i hi
  rw [List.eq_of_mem_replicate hi]
  exact Incident.among_none

theorem same_after_attempts_completed :
    (create dating "v" smallPlan).Yields
      (fun a' w' => a' = "10.96.0.1" ∧
        Same dating "v" w' (serving.along (completed.1 ++ halted.1))) serving ∧
    ∀ r : Resource, r.isNamespaced →
      (completed.1 ++ halted.1).countP (·.turn.creates (key "nfs" r "v")) =
        (if serving.cluster.contains (key "nfs" r "v") then 0 else 1) ∧
      ∀ o, serving.cluster.store.get? (key "nfs" r "v") = some o →
        ∀ m ∈ completed.1 ++ halted.1,
          m.after.cluster.store.get? (key "nfs" r "v") = some o :=
  same_after_attempts (Site.sealed_holding _) attempts_halted runs_completed

end VolumeExport.Backing
