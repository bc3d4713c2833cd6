import VolumeExport.Proofs.Operation

namespace VolumeExport.Collector

open Backing (Alters)

/-- A sweep and any operations, with nothing said of failures and of others. -/
def alongside (s : Setup) : Regime (Option Operation) where
  program i := (i.getD .sweep).program s
  admits _ _ := True
  faults _ := True
  moves _ _ := True

variable {s : Setup}

/-- Whenever a sweep waits to replace or delete an object of a volume, its latest look at the
tracker was at that volume and found it not to be tracked; so it is tracked now if and only if the
latest change since then has made it so. -/
theorem tracked_at_alteration {w : Site} {p : Pool (Option Operation)}
    (h : (alongside s).Reach w p) {c : Call} (hpending : p.pending? none = some (.call c))
    (hc : c.alters) :
    ∃ t volume since before, p.threads none = some t ∧
      Alters s.settings.serverNamespace volume t.past c ∧
      p.history = since ++ .answered none ⟨.isTracked volume, false⟩ :: before ∧
      (∀ e, .answered none e ∈ since → e.check? = none) ∧
      w.trackedAfter before volume = false ∧
      (p.site.tracker.contains volume = true ↔
        since.findSome? (Happening.tracks volume) = some true) := by
  obtain ⟨t, k, ht, hhead⟩ := Pool.head_of_pending hpending
  have hmay : Sweeps s (.call c) t.past := h.may (·.getD .sweep) (fun _ => rfl) ht hhead
  obtain ⟨volume, _, hcondemned, hsince, htakedown⟩ := hmay.takedown_of_alters hc
  obtain ⟨since, before, hhistory, hnone, htracked⟩ := h.checked ht (hcondemned.check?_eq hsince)
  refine ⟨t, volume, since, before, ht, htakedown.alters hc, hhistory, hnone, htracked.symm, ?_⟩
  rw [h.tracked, hhistory, Site.trackedAfter_append, Site.trackedAfter_cons, ← htracked]
  cases since.findSome? (Happening.tracks volume) with
  | none => simp [Happening.tracks, Turn.tracks]
  | some b => simp

def leftovers : Site :=
  .holding [
    (.claim, ⟨some { Manifest.metadata "nfs-v" "nfs" with
      labels := some (Manifest.claimLabels "v" ⟨some "data", some "apps", some "uid-0"⟩) }, []⟩),
    (.service, Manifest.service "nfs" "v")]

def order : Provisioning.Order := ⟨"v", Sample.claim, Sample.storageClass⟩

/-- A sweep that has found the service of `v`, while `v` has begun to be provided. -/
def overtaken : Pool (Option Operation) :=
  ((((Pool.start leftovers).begin none (Operation.sweep.program Setup.plain)).replies none 6).begin
    (some (.provide order)) ((Operation.provide order).program Setup.plain)).replies
      (some (.provide order)) 1 |>.replies none 1

theorem reach_overtaken : (alongside Setup.plain).Reach leftovers overtaken := by
  have hsweep := (Regime.Reach.start (R := alongside Setup.plain) (w := leftovers)).begin
    (i := none) rfl trivial
  exact (((hsweep.replies none 6).begin (i := some (.provide order)) rfl trivial).replies
    (some (.provide order)) 1).replies none 1

theorem overtaken_pending :
    overtaken.pending? none =
      some (.call (.delete .service (some "nfs") (some (Name.backing "v")))) := by
  decide +kernel

theorem tracked_at_alteration_overtaken :
    ∃ t volume since before, overtaken.threads none = some t ∧
      Alters "nfs" volume t.past (.delete .service (some "nfs") (some (Name.backing "v"))) ∧
      overtaken.history = since ++ .answered none ⟨.isTracked volume, false⟩ :: before ∧
      (∀ e, .answered none e ∈ since → e.check? = none) ∧
      leftovers.trackedAfter before volume = false ∧
      (overtaken.site.tracker.contains volume = true ↔
        since.findSome? (Happening.tracks volume) = some true) :=
  tracked_at_alteration reach_overtaken overtaken_pending rfl

/-- A sweep deletes the service of a volume that is tracked at that moment. -/
theorem deletes_tracked :
    (alongside Setup.plain).Reach leftovers overtaken ∧
      overtaken.pending? none =
        some (.call (.delete .service (some "nfs") (some (Name.backing "v")))) ∧
      overtaken.site.tracker.contains "v" = true :=
  ⟨reach_overtaken, overtaken_pending, by decide +kernel⟩

end VolumeExport.Collector
