import VolumeExport.Proofs.Operation

namespace VolumeExport

namespace Happening

variable {ι : Type}

/-- Whether an answer tracks a volume from then on, if it changes that. -/
def marks (volume : String) : Happening ι → Option Bool
  | .answered _ e => e.tracks volume
  | _ => none

end Happening

/-- Where others leave the tracker alone, the latest answer that changes it counts. -/
theorem Regime.Reach.marked {ι : Type} [DecidableEq ι] {R : Regime ι} {w : Site} {p : Pool ι}
    (h : R.Reach w p) (hmoves : ∀ p site, R.moves p site → site.tracker = p.site.tracker)
    (volume : String) :
    p.site.tracker.contains volume =
      (p.history.findSome? (Happening.marks volume)).getD (w.tracker.contains volume) := by
  apply h.inv (I := fun p => p.site.tracker.contains volume =
    (p.history.findSome? (Happening.marks volume)).getD (w.tracker.contains volume)) rfl
  intro p p' _ ih step
  cases step with
  | begin => exact ih
  | @answer i past rest q k x site _ _ hx =>
    have hsite := Site.tracked_of_answers hx volume
    rw [Pool.answer_site, Pool.answer_history, List.findSome?_cons, hsite, ih]
    cases he : Turn.tracks volume ⟨q, x⟩ with
    | none => rw [show Happening.marks volume (.answered i ⟨q, x⟩) = none from he]; rfl
    | some b => rw [show Happening.marks volume (.answered i ⟨q, x⟩) = some b from he]; rfl
  | finish => exact ih
  | move hsite => exact (congrArg (Tracker.contains · volume) (hmoves _ _ hsite)).trans ih

namespace Provisioning

theorem Provides.tracks_of_call {s : Setup} {order : Order} {c : Call} {p : Past}
    (h : Provides s order (.call c) p) : p.tracks order.volume = true := by
  cases h with
  | look _ htracks => exact htracks
  | backing _ htracks => exact htracks

theorem Withdraws.tracks_of_call {s : Setup} {volume : Object} {c : Call} {p : Past}
    (h : Withdraws s volume (.call c) p) : p.tracks (nameOf volume) = true := by
  cases h with
  | quiet hq => exact hq.elim
  | read htracks => exact htracks
  | replace _ _ htracks => exact htracks
  | backing _ htracks => exact htracks

/-- A request to provide or to withdraw a volume. -/
inductive Errand
  | provide (order : Order)
  | withdraw (volume : Object)
  deriving DecidableEq, Repr

namespace Errand

def operation : Errand → Operation
  | .provide order => .provide order
  | .withdraw volume => .withdraw volume

def volume : Errand → String
  | .provide order => order.volume
  | .withdraw volume => nameOf volume

variable {s : Setup} {errand : Errand} {q : Request} {past : Past}

theorem tracks_of_call {c : Call} (h : errand.operation.May s (.call c) past) :
    past.tracks errand.volume = true := by
  cases errand with
  | provide order => exact Provides.tracks_of_call h
  | withdraw volume => exact Withdraws.tracks_of_call h

theorem volume_of_tracks (h : errand.operation.May s q past) {x : q.Answer} {v : String}
    (hv : Turn.tracks v ⟨q, x⟩ ≠ none) : errand.volume = v := by
  have hwithin {ks : Key → Prop} (hq : q.Within ks) : errand.volume = v :=
    absurd (Turn.tracks_of_within (e := ⟨q, x⟩) hq v) hv
  have hown {u : String} {b : Bool} (h : (if u = v then some b else none) ≠ none) : u = v := by
    by_contra hne
    exact h (if_neg hne)
  cases errand with
  | provide order =>
    cases h with
    | look hq => exact hwithin hq.aside
    | track => exact hown hv
    | untrack => exact hown hv
    | backing _ _ h => exact hwithin h.within
  | withdraw volume =>
    cases h with
    | quiet hq => exact hwithin (hq.within fun _ => True)
    | track => exact hown hv
    | untrack => exact hown hv
    | read => exact absurd rfl hv
    | replace => exact absurd rfl hv
    | backing _ _ h => exact hwithin h.within

end Errand

/-- Requests on one tracker, which others leave alone. They may fail in any way. -/
def sharing {ι : Type} (s : Setup) (f : ι → Errand) : Regime ι where
  program i := (f i).operation.program s
  admits _ _ := True
  faults _ := True
  moves p site := site.tracker = p.site.tracker

section

variable {ι : Type} [DecidableEq ι] {s : Setup} {f : ι → Errand} {w : Site} {p : Pool ι}

/-- Only a request for a volume changes whether the volume is tracked. -/
theorem volume_of_marks (h : (sharing s f).Reach w p) {i : ι} {e : Turn}
    (he : .answered i e ∈ p.history) {v : String} (hv : e.tracks v ≠ none) :
    (f i).volume = v := by
  obtain ⟨later, earlier, hhistory⟩ := List.append_of_mem he
  obtain ⟨p₀, t, k, site, hp₀, -, ht, hhead, -⟩ := h.at_answer hhistory
  have hmay := hp₀.may (fun i => (f i).operation) (fun _ => rfl) ht hhead
  exact Errand.volume_of_tracks hmay hv

/-- While a request waits for a call, it has tracked its volume; later changes are those of other
requests for the same volume, and the volume is tracked if and only if the latest of them, if
there is one, is not the end of such a request. A volume that was not tracked at the start is
tracked only as long as a request for it runs. -/
theorem tracked_in_flight (h : (sharing s f).Reach w p) (v : String) :
    (∀ i c, (f i).volume = v → p.pending? i = some (.call c) →
      ∃ since before, p.history = since ++ .answered i ⟨.track v, ()⟩ :: before ∧
        (∀ j e, .answered j e ∈ since → e.tracks v ≠ none → j ≠ i ∧ (f j).volume = v) ∧
        (p.site.tracker.contains v = true ↔
          since.findSome? (Happening.marks v) ≠ some false)) ∧
    (p.site.tracker.contains v = true →
      w.tracker.contains v = true ∨ ∃ i t, (f i).volume = v ∧ p.threads i = some t) := by
  have hlatest {i t} (ht : p.threads i = some t) (htracks : t.past.tracks v = true) :
      ∃ since before, p.history = since ++ .answered i ⟨.track v, ()⟩ :: before ∧
        ∀ e, .answered i e ∈ since → e.tracks v = none := by
    obtain ⟨b, hb, rfl⟩ : ∃ b, t.past.findSome? (Turn.tracks v) = some b ∧ b = true := by
      rw [Past.tracks] at htracks
      cases hb : t.past.findSome? (Turn.tracks v) with
      | none =>
        rw [hb] at htracks
        cases htracks
      | some b =>
        rw [hb] at htracks
        exact ⟨b, rfl, htracks⟩
    obtain ⟨e, since, before, he, hhistory, hsince⟩ := h.latest ht hb
    obtain rfl := Turn.eq_track_of_tracks he
    exact ⟨since, before, hhistory, hsince⟩
  refine ⟨fun i c hi hpending => ?_, fun hv => ?_⟩
  · obtain ⟨t, k, ht, hhead⟩ := Pool.head_of_pending hpending
    have hmay := h.may (fun i => (f i).operation) (fun _ => rfl) ht hhead
    have htracks : t.past.tracks v = true := hi ▸ Errand.tracks_of_call hmay
    obtain ⟨since, before, hhistory, hsince⟩ := hlatest ht htracks
    refine ⟨since, before, hhistory, fun j e he hmarks => ⟨?_, ?_⟩, ?_⟩
    · rintro rfl
      exact hmarks (hsince e he)
    · apply volume_of_marks h _ hmarks
      rw [hhistory]
      exact List.mem_append_left _ he
    · have hown : Happening.marks v (.answered i ⟨.track v, ()⟩) = some true := if_pos rfl
      rw [h.marked (fun _ _ h => h), hhistory, List.findSome?_append, List.findSome?_cons, hown]
      cases since.findSome? (Happening.marks v) with
      | none => simp
      | some b => simp
  · apply (h.tracked_by (fun i => (f i).operation) (fun _ => rfl) _ hv).imp_right
    · intro hafter
      obtain ⟨i, t, ht, htracks⟩ := hafter
      obtain ⟨since, before, hhistory, -⟩ := hlatest ht htracks
      refine ⟨i, t, volume_of_marks h (e := ⟨.track v, ()⟩) ?_ ?_, ht⟩
      · rw [hhistory]
        exact List.mem_append_right _ List.mem_cons_self
      · exact fun hn => Option.some_ne_none true ((if_pos rfl).symm.trans hn)
    · intro p site hmoves hv
      rwa [show site.tracker = p.site.tracker from hmoves] at hv

end

def served : Site := .holding [(.service, Manifest.service "nfs" "v")]

def twice (_ : Bool) : Errand :=
  .withdraw (Manifest.volume "v" "nfs-v.nfs.svc.cluster.local" none "Delete" none none)

/-- One request has begun, and then the other has come to its end. -/
def overlapping : Pool Bool :=
  (((Pool.start served).begin false ((twice false).operation.program Setup.plain)).replies
    false 1).begin true ((twice true).operation.program Setup.plain) |>.replies true 9

theorem reach_overlapping : (sharing Setup.plain twice).Reach served overlapping := by
  have hfirst := (Regime.Reach.start (R := sharing Setup.plain twice) (w := served)).begin
    (i := false) rfl trivial
  exact ((hfirst.replies false 1).begin (i := true) rfl trivial).replies true 9

theorem tracked_in_flight_overlapping :
    (∀ i c, (twice i).volume = "v" → overlapping.pending? i = some (.call c) →
      ∃ since before, overlapping.history = since ++ .answered i ⟨.track "v", ()⟩ :: before ∧
        (∀ j e, .answered j e ∈ since → e.tracks "v" ≠ none → j ≠ i ∧ (twice j).volume = "v") ∧
        (overlapping.site.tracker.contains "v" = true ↔
          since.findSome? (Happening.marks "v") ≠ some false)) ∧
    (overlapping.site.tracker.contains "v" = true →
      served.tracker.contains "v" = true ∨
        ∃ i t, (twice i).volume = "v" ∧ overlapping.threads i = some t) :=
  tracked_in_flight reach_overlapping "v"

/-- The end of one request for a volume untracks it while the other waits for a call. -/
theorem untracked_in_flight :
    (sharing Setup.plain twice).Reach served overlapping ∧
      (twice false).volume = "v" ∧
      overlapping.pending? false =
        some (.call (.read .service (some "nfs") (some (Name.backing "v")))) ∧
      overlapping.site.tracker.contains "v" = false :=
  ⟨reach_overlapping, rfl, by decide +kernel, by decide +kernel⟩

end Provisioning

end VolumeExport
