import VolumeExport.Proofs.Backing.Blame
import VolumeExport.Proofs.Steps
import VolumeExport.Proofs.Waiting

namespace VolumeExport

open VolumeExport.Action (either)

namespace Step

def part? : Step → Option Resource
  | .createClaim => some .claim
  | .deleteClaim => some .claim
  | .createServer => some .server
  | .deleteServer => some .server
  | .createService => some .service
  | .deleteService => some .service
  | _ => none

/-- The kinds of objects that a step may change. A claim that is made gets a volume. -/
def touches : Step → List Resource
  | .createClaim => [.claim, .volume]
  | .hookVolume => [.volume]
  | step => step.part?.toList

end Step

/-- Sites that differ at most in objects of kinds that a step may change. -/
def Site.Spares (place : Step) (w w' : Site) : Prop :=
  ∀ k, k.resource ∉ place.touches → w'.cluster.store.get? k = w.cluster.store.get? k

theorem Site.Spares.refl (place : Step) (w : Site) : Spares place w w := fun _ _ => rfl

namespace Action

variable {α β : Type} {S : Surroundings} {w : Site} {ms : List Moment} {a : Action α} {e : Fault}

theorem Runs.error_cases {f : α → Action β} (h : (a >>= f).Runs S w ms (.error e)) :
    a.Runs S w ms (.error e) ∨ ∃ x first later, ms = later ++ first ∧ a.Runs S w first (.ok x) ∧
      (f x).Runs S (w.along first) later (.error e) := by
  obtain ⟨r, first, later, rfl, hruns, hlater⟩ := Prog.Runs.bind_cases h
  cases r with
  | ok x => exact .inr ⟨x, first, later, rfl, hruns, hlater⟩
  | error e' =>
    obtain ⟨rfl, he⟩ := Prog.Runs.eq_of_done hlater
    cases he
    exact .inl hruns

theorem Runs.error_of_orElseFault {g : Fault → Fault}
    (h : (a.orElseFault g).Runs S w ms (.error e)) :
    ∃ cause, e = g cause ∧ a.Runs S w ms (.error cause) := by
  rcases h.error_cases with hout | ⟨r, first, later, rfl, hruns, hlater⟩
  · obtain ⟨r, first, later, rfl, -, hlater⟩ := Prog.Runs.bind_cases hout
    nomatch (Prog.Runs.eq_of_done hlater).2
  · cases r with
    | ok x => nomatch (Prog.Runs.eq_of_done hlater).2
    | error cause =>
      obtain ⟨rfl, he⟩ := Prog.Runs.eq_of_done hlater
      cases he
      exact ⟨cause, rfl, hruns.of_outcome⟩

theorem Keeps.runs {may : Request → Past → Prop} {goal : Except Fault α → Past → Prop}
    {r : Except Fault α} (ha : a.Keeps may goal []) (h : a.Runs S w ms r) :
    goal r (ms.map Moment.turn) := by
  obtain ⟨rest, hcourse, hdone⟩ := h
  have hend := (hcourse.keeps ha).head
  rwa [hdone] at hend

end Action

namespace Backing

/-- How an operation on a backing goes: its steps in order, what each of them does after others,
the objects that it is about, what has become of a part when its step is done, and what the object
of a step that has failed has kept. -/
structure Procedure where
  steps : List Step
  acts : List Step → Step → (α : Type) → Action α → Prop
  object? : Step → Option Resource
  finished : Option Object → Prop
  kept : Option Object → Option Object → Prop

namespace Procedure

variable {P : Procedure} {s : Setup} {volume : String} {w v v' : Site} {done later : List Step}
  {place : Step} {α β : Type} {a : Action α}

/-- An action that is made of steps, after others that are done. -/
inductive Staged (P : Procedure) (volume : String) :
    List Step → List Step → (β : Type) → Action β → Prop
  | last {done : List Step} {place : Step} {α : Type} {a : Action α} : P.acts done place α a →
      Staged P volume done [place] α (during place volume a)
  | step {done later : List Step} {place : Step} {α β : Type} {a : Action α} {f : α → Action β} :
      P.acts done place α a →
      (∀ x, Staged P volume (done ++ [place]) later β (f x)) →
      Staged P volume done (place :: later) β (during place volume a >>= f)

inductive Passes (P : Procedure) (w : Site) : List Step → List Moment → Prop
  | start : Passes P w [] []
  | step {done place α a x ms own} : Passes P w done ms → P.acts done place α a →
      a.Runs .alone (w.along ms) own (.ok x) → Passes P w (done ++ [place]) (own ++ ms)

/-- An operation has failed in a step. The fault comes from what that step was told last, the parts
of the steps before it are finished, and nothing that later steps are about has changed. So has
nothing that the step itself is about, as far as it matters, unless the time had no date. -/
structure Halts (P : Procedure) (s : Setup) (volume : String) (w : Site) (ms : List Moment)
    (done : List Step) (place : Step) (later : List Step) (cause : Fault) : Prop where
  order : P.steps = done ++ place :: later
  step : ∃ earlier own α, ∃ a : Action α, ms = own ++ earlier ∧ P.Passes w done earlier ∧
    P.acts done place α a ∧ a.Runs .alone (w.along earlier) own (.error cause) ∧
    Blamed s volume cause (own.map Moment.turn)
  finished : ∀ b ∈ done, ∀ r, b.part? = some r →
    P.finished ((w.along ms).cluster.store.get? (key s.settings.serverNamespace r volume))
  kept : (∀ t, cause ≠ .clock t) → ∀ r, P.object? place = some r → ∀ k, k.resource = r →
    P.kept (w.cluster.store.get? k) ((w.along ms).cluster.store.get? k)
  unchanged : ∀ b ∈ later, ∀ r, P.object? b = some r → ∀ k, k.resource = r →
    (w.along ms).cluster.store.get? k = w.cluster.store.get? k

/-- A site where some steps were done and nothing of the others. -/
structure Reached (P : Procedure) (s : Setup) (volume : String) (done later : List Step)
    (w v : Site) : Prop where
  isSealed : v.cluster.Sealed
  finished : ∀ b ∈ done, ∀ r, b.part? = some r →
    P.finished (v.cluster.store.get? (key s.settings.serverNamespace r volume))
  unchanged : ∀ b ∈ later, ∀ r, P.object? b = some r → ∀ k, k.resource = r →
    v.cluster.store.get? k = w.cluster.store.get? k

/-- Where a step leads when it is done, and where when it fails. -/
def Performs (P : Procedure) (s : Setup) (volume : String) (place : Step) (a : Action α) : Prop :=
  ∀ v : Site, v.cluster.Sealed → a.Leads
    (either
      (fun _ v' => v.Spares place v' ∧ v.cluster.Renews v'.cluster ∧ ∀ r, place.part? = some r →
        P.finished (v'.cluster.store.get? (key s.settings.serverNamespace r volume)))
      fun e v' => v.Spares place v' ∧ ((∀ t, e ≠ .clock t) → ∀ r, P.object? place = some r →
        ∀ k, k.resource = r → P.kept (v.cluster.store.get? k) (v'.cluster.store.get? k)))
    v

/-- A step touches neither the part of one before it nor what one behind it is about. -/
def Apart (object? : Step → Option Resource) (b c : Step) : Prop :=
  (∀ r ∈ b.part?, r ∉ c.touches) ∧ ∀ r ∈ object? c, r ∉ b.touches

instance (object? : Step → Option Resource) : DecidableRel (Apart object?) :=
  fun _ _ => inferInstanceAs (Decidable (_ ∧ _))

/-- The steps are apart, each leads where it should, and its faults come from what it was told. -/
structure Sound (P : Procedure) (s : Setup) (volume : String) : Prop where
  apart : P.steps.Pairwise (Apart P.object?)
  performs : ∀ {done place α} {a : Action α}, P.acts done place α a → P.Performs s volume place a
  blamed : ∀ {done place α} {a : Action α} {later w v own cause}, P.acts done place α a →
    P.Reached s volume done (place :: later) w v → a.Runs .alone v own (.error cause) →
    Blamed s volume cause (own.map Moment.turn)

/-- A step without a part that leaves the site as it is when it fails. -/
theorem performs_of_idle (hpart : place.part? = none)
    (hkept : ∀ v : Site, v.cluster.Sealed → ∀ k,
      P.kept (v.cluster.store.get? k) (v.cluster.store.get? k))
    (h : ∀ v : Site, v.cluster.Sealed → a.Leads
      (either (fun _ v' => v.Spares place v' ∧ v.cluster.Renews v'.cluster) fun _ v' => v' = v) v) :
    P.Performs s volume place a := by
  intro v hv
  apply (h v hv).mono
  intro x v' hx
  cases x with
  | ok x =>
    refine ⟨hx.1, hx.2, fun r hr => ?_⟩
    rw [hpart] at hr
    cases hr
  | error e =>
    obtain rfl : v' = v := hx
    exact ⟨.refl place v', fun _ _ _ k _ => hkept v' hv k⟩

theorem Reached.start (hw : w.cluster.Sealed) (later : List Step) :
    P.Reached s volume [] later w w :=
  ⟨hw, nofun, fun _ _ _ _ _ _ => rfl⟩

section

variable (h : P.Reached s volume done (place :: later) w v)
  (hapart : (done ++ place :: later).Pairwise (Apart P.object?)) (hspares : v.Spares place v')
include h hapart hspares

theorem Reached.finished_of_spares {b : Step} (hb : b ∈ done) {r : Resource}
    (hr : b.part? = some r) :
    P.finished (v'.cluster.store.get? (key s.settings.serverNamespace r volume)) := by
  have hplace := (List.pairwise_append.1 hapart).2.2 b hb place List.mem_cons_self
  rw [hspares (key s.settings.serverNamespace r volume) (hplace.1 r hr)]
  exact h.finished b hb r hr

theorem Reached.unchanged_of_spares {b : Step} (hb : b ∈ later) {r : Resource}
    (hr : P.object? b = some r) {k : Key} (hk : k.resource = r) :
    v'.cluster.store.get? k = w.cluster.store.get? k := by
  have hlater := (List.pairwise_cons.1 (List.pairwise_append.1 hapart).2.1).1 b hb
  rw [hspares k (hk ▸ hlater.2 r hr)]
  exact h.unchanged b (List.mem_cons_of_mem place hb) r hr k hk

theorem Reached.advance (hrenews : v.cluster.Renews v'.cluster)
    (hfinished : ∀ r, place.part? = some r →
      P.finished (v'.cluster.store.get? (key s.settings.serverNamespace r volume))) :
    P.Reached s volume (done ++ [place]) later w v' where
  isSealed := h.isSealed.renews hrenews
  finished := by
    intro b hb r hr
    rcases List.mem_append.1 hb with hb | hb
    · exact h.finished_of_spares hapart hspares hb hr
    · obtain rfl := List.mem_singleton.1 hb
      exact hfinished r hr
  unchanged _ hb _ hr _ hk := h.unchanged_of_spares hapart hspares hb hr hk

end

/-- A step fails. -/
theorem Sound.halts {past own : List Moment} {cause : Fault} (hP : P.Sound s volume)
    (hsteps : P.steps = done ++ place :: later)
    (hreached : P.Reached s volume done (place :: later) w (w.along past))
    (hpasses : P.Passes w done past) (hacts : P.acts done place α a)
    (hruns : a.Runs .alone (w.along past) own (.error cause)) :
    P.Halts s volume w (own ++ past) done place later cause := by
  have hapart := hP.apart
  rw [hsteps] at hapart
  obtain ⟨hspares, hkept⟩ := (hP.performs hacts _ hreached.isSealed).runs hruns
  rw [← Site.along_append] at hspares hkept
  exact {
    order := hsteps
    step := ⟨past, own, α, a, rfl, hpasses, hacts, hruns, hP.blamed hacts hreached hruns⟩
    finished := fun b hb r hr => hreached.finished_of_spares hapart hspares hb hr
    kept := by
      intro hdated r hr k hk
      rw [← hreached.unchanged place List.mem_cons_self r hr k hk]
      exact hkept hdated r hr k hk
    unchanged := fun b hb r hr k hk => hreached.unchanged_of_spares hapart hspares hb hr hk }

/-- An operation that fails has come to one of its steps and has failed there. -/
theorem Staged.halts {a : Action β} {past ms : List Moment} {f : Fault}
    (h : P.Staged volume done later β a) (hP : P.Sound s volume) (hsteps : P.steps = done ++ later)
    (hreached : P.Reached s volume done later w (w.along past)) (hpasses : P.Passes w done past)
    (hruns : a.Runs .alone (w.along past) ms (.error f)) :
    ∃ done place later cause, f = .step place volume cause ∧
      P.Halts s volume w (ms ++ past) done place later cause := by
  induction h generalizing past ms with
  | last hacts =>
    obtain ⟨cause, rfl, hown⟩ := hruns.error_of_orElseFault
    exact ⟨_, _, _, cause, rfl, hP.halts hsteps hreached hpasses hacts hown⟩
  | step hacts _ ih =>
    rcases hruns.error_cases with hhere | ⟨x, own, rest, rfl, hown, hrest⟩
    · obtain ⟨cause, rfl, hown⟩ := hhere.error_of_orElseFault
      exact ⟨_, _, _, cause, rfl, hP.halts hsteps hreached hpasses hacts hown⟩
    · have hown := hown.of_orElseFault
      have hapart := hP.apart
      rw [hsteps] at hapart
      obtain ⟨hspares, hrenews, hfinished⟩ := (hP.performs hacts _ hreached.isSealed).runs hown
      rw [List.append_assoc]
      rw [← Site.along_append] at hspares hrenews hfinished hrest
      exact ih x (hsteps.trans (List.append_cons ..))
        (hreached.advance hapart hspares hrenews hfinished) (hpasses.step hacts hown) hrest

end Procedure

end Backing

end VolumeExport
