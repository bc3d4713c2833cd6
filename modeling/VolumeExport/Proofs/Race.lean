import VolumeExport.Proofs.Operation

namespace VolumeExport.Controller

open Backing (key)

/-- The handler runs once, and each sweep runs once. Failures do not pretend that an object is
missing or there. -/
def race (s : Setup) (claim : Object) : Regime (Option Nat) where
  program i := (i.elim (.claimed claim) fun _ => .sweep : Operation).program s
  admits p i := ∀ j, .begun j ∈ p.history → j ≠ i
  faults := Site.Mute
  moves p site := site.tracker = p.site.tracker ∧ ∀ r : Resource, r.isNamespaced →
    site.cluster.contains (key s.settings.serverNamespace r (volumeFor claim)) →
    p.site.cluster.contains (key s.settings.serverNamespace r (volumeFor claim))

def confirms (k : Key) : Happening (Option Nat) → Bool
  | .answered none e => e.shows k = some true
  | _ => false

/-- A sweep deletes an object, or others leave the site without it. -/
def loses (k : Key) : Happening (Option Nat) → Bool
  | .answered (some _) ⟨.call (.delete r ns name), .ok _⟩ => Key.of r ns name = k
  | .moved site => !site.cluster.contains k
  | _ => false

/-- Whether an object was lost after the handler had last been shown it. -/
def lost (k : Key) (history : List (Happening (Option Nat))) : Bool :=
  (history.takeWhile fun h => !confirms k h).any (loses k)

theorem lost_cons (k : Key) (h : Happening (Option Nat)) (history : List (Happening (Option Nat))) :
    lost k (h :: history) = (!confirms k h && (loses k h || lost k history)) := by
  rw [lost, List.takeWhile_cons]
  cases confirms k h <;> simp [lost]

variable {s : Setup} {claim : Object} {w : Site} {p : Pool (Option Nat)} {r : Resource}

theorem shows_of_loses {k : Key} {j : Nat} {e : Turn} (h : loses k (.answered (some j) e)) :
    e.shows k = some false := by
  obtain ⟨q, x⟩ := e
  cases q with
  | call c =>
    cases c with
    | delete r ns name =>
      cases x with
      | ok => exact if_pos (congrArg some (of_decide_eq_true h))
      | error => cases h
    | _ => cases h
  | _ => cases h

theorem contains_after_sweep {k : Key} {q : Request} {past : Past}
    {x : q.Answer} {site site' : Site} (j : Nat) (hmay : Collector.Sweeps s q past)
    (hfits : q.Fits) (hx : site.Answers Site.Mute q x site') :
    site'.cluster.contains k =
      (!loses k (.answered (some j) ⟨q, x⟩) && site.cluster.contains k) := by
  cases hloses : loses k (.answered (some j) ⟨q, x⟩) with
  | true =>
    rw [Site.contains_of_shows (fun _ h => h) hx hfits (shows_of_loses hloses)]
    rfl
  | false =>
    rw [Bool.not_false, Bool.true_and]
    apply Site.contains_eq_of_answers hx hfits
    · rintro r ns body rfl
      exact hmay.creates_nothing
    · intro r ns name heq
      rw [heq] at hloses
      exact of_decide_eq_false hloses

theorem contains_eq_not_lost (h : (race s claim).Reach w p) (hr : r.isNamespaced) {t : Thread}
    (ht : p.threads none = some t)
    (hshows : t.past.shows (key s.settings.serverNamespace r (volumeFor claim)) = some true) :
    p.site.cluster.contains (key s.settings.serverNamespace r (volumeFor claim)) =
      !lost (key s.settings.serverNamespace r (volumeFor claim)) p.history := by
  suffices hall : ∀ k : Key, k = key s.settings.serverNamespace r (volumeFor claim) →
      ∀ t, p.threads none = some t → t.past.shows k = some true →
        p.site.cluster.contains k = !lost k p.history from hall _ rfl t ht hshows
  rintro k hk
  have hkr : k.resource.isNamespaced := by
    rw [hk]
    exact hr
  apply h.inv (I := fun p => ∀ t, p.threads none = some t → t.past.shows k = some true →
    p.site.cluster.contains k = !lost k p.history) (fun _ ht => nomatch ht)
  intro p p' hp ih step t ht hshows
  -- What the handler is shown renews what it knows; sweeps and others can only take away.
  cases step with
  | begin =>
    rw [Pool.begin_site, Pool.begin_history, lost_cons]
    rcases Pool.thread_of_begin ht with ⟨-, rfl⟩ | ⟨-, ht⟩
    · cases hshows
    · exact ih t ht hshows
  | @answer i past rest q k' x site hi hhead hx =>
    have hmay := hp.may (fun i => i.elim (.claimed claim) fun _ => .sweep) (fun _ => rfl) hi hhead
    have hfits := hmay.fits (hp.genuine hi)
    rw [Pool.answer_site, Pool.answer_history, lost_cons]
    rcases Pool.thread_of_answer ht with ⟨rfl, rfl⟩ | ⟨hne, ht⟩
    · rw [Past.shows_cons] at hshows
      cases he : Turn.shows k ⟨q, x⟩ with
      | some b =>
        rw [he] at hshows
        cases hshows
        rw [Site.contains_of_shows (fun _ h => h) hx hfits he]
        simp [confirms, he]
      | none =>
        rw [he] at hshows
        have hsame := Site.metadata?_of_silent hx hkr hfits he
        rw [← Cluster.isSome_metadata?, hsame, Cluster.isSome_metadata?, ih _ hi hshows]
        simp [confirms, loses, he]
    · obtain ⟨j, rfl⟩ := Option.ne_none_iff_exists'.1 hne.symm
      rw [contains_after_sweep j hmay hfits hx, ih t ht hshows]
      simp [confirms]
  | finish => exact ih t (Pool.thread_of_finish ht).2 hshows
  | @move site hmoves =>
    have hkeeps := hmoves.2 r hr
    rw [← hk] at hkeeps
    have hbefore := ih t ht hshows
    rw [Pool.move_site, Pool.move_history, lost_cons]
    cases hthere : site.cluster.contains k with
    | true => simp [confirms, loses, hthere, ← hbefore, hkeeps hthere]
    | false => simp [confirms, loses, hthere]

/-- A sweep that has deleted a part found the volume untracked when it looked last. -/
theorem checked_before_deletion (h : (race s claim).Reach w p) {j : Nat}
    {later earlier : List (Happening (Option Nat))}
    (hhistory : p.history = later ++ .answered (some j) ⟨.call (.delete r
      (some s.settings.serverNamespace) (some (Name.backing (volumeFor claim)))), .ok ()⟩ ::
        earlier) :
    w.Checked (some j) (volumeFor claim) false earlier := by
  obtain ⟨p₀, t, k, site, hp₀, rfl, ht, hhead, -⟩ := h.at_answer hhistory
  have hmay : Collector.Sweeps s _ t.past :=
    hp₀.may (fun i => i.elim (.claimed claim) fun _ => .sweep) (fun _ => rfl) ht hhead
  obtain ⟨volume, before, hcondemned, hsince, htakedown⟩ := hmay.takedown_of_alters rfl
  obtain rfl : volumeFor claim = volume :=
    Name.backing_inj.1 (Option.some.inj htakedown.name_of_delete)
  exact hp₀.checked ht (hcondemned.check?_eq hsince)

/-- When the handler waits to create the volume, all of its backing is there if and only if nothing
of it was lost after the handler had last been shown it; and what a sweep deleted of it, the sweep
deleted after it had found the volume untracked. -/
theorem backing_at_creation (h : (race s claim).Reach w p) {body : Object}
    (hpending : p.pending? none = some (.call (.create .volume none body))) :
    ((∀ r : Resource, r.isNamespaced →
        p.site.cluster.contains (key s.settings.serverNamespace r (volumeFor claim))) ↔
      ∀ r : Resource, r.isNamespaced →
        lost (key s.settings.serverNamespace r (volumeFor claim)) p.history = false) ∧
    ∀ (r : Resource) (j : Nat) later earlier,
      p.history = later ++ .answered (some j) ⟨.call (.delete r (some s.settings.serverNamespace)
        (some (Name.backing (volumeFor claim)))), .ok ()⟩ :: earlier →
      w.Checked (some j) (volumeFor claim) false earlier := by
  obtain ⟨t, k, ht, hhead⟩ := Pool.head_of_pending hpending
  have hmay : Claims s claim _ t.past :=
    h.may (fun i => i.elim (.claimed claim) fun _ => .sweep) (fun _ => rfl) ht hhead
  obtain ⟨-, hshows⟩ := hmay.of_create
  refine ⟨forall_congr' fun r => forall_congr' fun hr => ?_, fun r j later earlier hhistory =>
    checked_before_deletion h hhistory⟩
  rw [contains_eq_not_lost h hr ht (hshows r hr), Bool.not_eq_true']

def made : Pool (Option Nat) :=
  ((Pool.start Sample.site).begin none ((race .plain Sample.claim).program none)).replies none 21

/-- The handler is about to create the volume when its claim goes and a sweep runs. -/
def outrun : Pool (Option Nat) :=
  ((made.move (made.site.without (.of .claim (some "apps") (some "data")))).begin (some 0)
    ((race .plain Sample.claim).program (some 0))).replies (some 0) 16

theorem reach_outrun : (race .plain Sample.claim).Reach Sample.site outrun := by
  have hmade : (race .plain Sample.claim).Reach Sample.site made :=
    ((Regime.Reach.start (R := race .plain Sample.claim) (w := Sample.site)).begin
      (i := none) rfl (fun _ hj => nomatch hj)).replies none 21
  have hmoved : (race .plain Sample.claim).Reach Sample.site
      (made.move (made.site.without (.of .claim (some "apps") (some "data")))) :=
    hmade.move ⟨rfl, fun _ _ => Site.contains_of_without⟩
  refine (hmoved.begin (i := some 0) rfl fun j hj => ?_).replies (some 0) 16
  have hbegun := Pool.begun_of_replies ((List.mem_cons.1 hj).resolve_left nofun)
  rcases List.mem_cons.1 hbegun with hbegun | hbegun
  · cases hbegun
    exact (Option.some_ne_none 0).symm
  · cases hbegun

theorem outrun_pending :
    outrun.pending? none = some (.call (.create .volume none Sample.volume)) := by
  decide +kernel

theorem backing_at_creation_outrun :
    ((∀ r : Resource, r.isNamespaced → outrun.site.cluster.contains (key "nfs" r "pvc-u1")) ↔
      ∀ r : Resource, r.isNamespaced → lost (key "nfs" r "pvc-u1") outrun.history = false) ∧
    ∀ (r : Resource) (j : Nat) later earlier,
      outrun.history = later ++ .answered (some j) ⟨.call (.delete r (some "nfs")
        (some (Name.backing "pvc-u1"))), .ok ()⟩ :: earlier →
      Sample.site.Checked (some j) "pvc-u1" false earlier :=
  backing_at_creation reach_outrun outrun_pending

/-- A sweep takes down the backing before the handler creates the volume, which is accepted. -/
theorem creates_without_backing :
    (race .plain Sample.claim).Reach Sample.site outrun ∧
      outrun.pending? none = some (.call (.create .volume none Sample.volume)) ∧
      (outrun.site.cluster.respond (.create .volume none Sample.volume)).1.isOk ∧
      ∀ r : Resource, r.isNamespaced →
        outrun.site.cluster.contains (key "nfs" r "pvc-u1") = false := by
  refine ⟨reach_outrun, outrun_pending, by decide +kernel, fun r hr => ?_⟩
  cases r with
  | claim => decide +kernel
  | server => decide +kernel
  | service => decide +kernel
  | _ => cases hr

end VolumeExport.Controller
