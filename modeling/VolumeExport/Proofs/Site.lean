import VolumeExport.Proofs.Cluster
import VolumeExport.Tracker

namespace VolumeExport

/-- A cluster and the tracker of a process. -/
structure Site where
  cluster : Cluster
  tracker : Tracker
  keyed : cluster.Keyed

namespace Site

def holding (objects : List (Resource × Object)) : Site where
  cluster := objects.foldl (fun c p => c.put p.1 p.2) .empty
  tracker := .empty
  keyed := by
    suffices hall : ∀ c : Cluster, c.Keyed → (objects.foldl (fun c p => c.put p.1 p.2) c).Keyed from
      hall _ Cluster.keyed_empty
    induction objects with
    | nil => exact fun _ h => h
    | cons p objects ih => exact fun c h => ih _ (h.put p.1 p.2)

theorem eq_of_cluster {w w' : Site} (hcluster : w.cluster = w'.cluster)
    (htracker : w.tracker = w'.tracker) : w = w' := by
  obtain ⟨c, t, _⟩ := w
  obtain ⟨c', t', _⟩ := w'
  cases hcluster
  cases htracker
  rfl

def without (w : Site) (k : Key) : Site where
  cluster := { w.cluster with store := w.cluster.store.erase k }
  tracker := w.tracker
  keyed := w.keyed.erase k

theorem contains_of_without {w : Site} {k l : Key} (h : (w.without l).cluster.contains k) :
    w.cluster.contains k := by
  rw [← Cluster.isSome_metadata?, Cluster.metadata?, without, Store.get?_erase] at h
  split at h
  · cases h
  · rwa [← Cluster.isSome_metadata?]

def after (w : Site) (c : Call) : Site where
  cluster := (w.cluster.respond c).2
  tracker := w.tracker
  keyed := w.keyed.respond c

def tracking (w : Site) (tracker : Tracker) : Site := { w with tracker }

/-- How a request may be answered. A call may fail without effect; of times, waits and logs nothing
is known. -/
def Answers (faults : ApiError → Prop) (w : Site) : (q : Request) → q.Answer → Site → Prop
  | .call c, x, w' =>
    (x = (w.cluster.respond c).1 ∧ w' = w.after c) ∨ ∃ e, faults e ∧ x = .error e ∧ w' = w
  | .track v, _, w' => w' = w.tracking (w.tracker.add v)
  | .untrack v, _, w' => w' = w.tracking (w.tracker.erase v)
  | .isTracked v, x, w' => x = w.tracker.contains v ∧ w' = w
  | _, _, w' => w' = w

def reply (w : Site) : (q : Request) → q.Answer × Site
  | .call c => ((w.cluster.respond c).1, w.after c)
  | .sleep _ => ((), w)
  | .wait _ => (true, w)
  | .uptime => ((0 : Rat), w)
  | .deadline _ => ((0 : Rat), w)
  | .now => (.ok .first, w)
  | .log _ => (.ok (), w)
  | .track v => ((), w.tracking (w.tracker.add v))
  | .untrack v => ((), w.tracking (w.tracker.erase v))
  | .isTracked v => (w.tracker.contains v, w)

theorem answers_reply {faults : ApiError → Prop} (w : Site) (q : Request) :
    w.Answers faults q (w.reply q).1 (w.reply q).2 := by
  cases q with
  | call c => exact .inl ⟨rfl, rfl⟩
  | isTracked v => exact ⟨rfl, rfl⟩
  | _ => rfl

/-- A failure that says neither that there is no object nor that there is one. -/
def Mute (e : ApiError) : Prop := e.status ≠ 404 ∧ e.status ≠ 409

end Site

theorem Site.Mute.shows_eq {e : ApiError} (h : Mute e) (c : Call) : c.shows (.error e) = none := by
  have hn : e.isNotFound = false := decide_eq_false h.1
  have hc : e.isConflict = false := decide_eq_false h.2
  cases c with
  | list => rfl
  | create => exact if_neg (by rw [hc]; exact Bool.false_ne_true)
  | read => exact if_neg (by rw [hn]; exact Bool.false_ne_true)
  | delete => exact if_neg (by rw [hn]; exact Bool.false_ne_true)
  | replace => exact if_neg (by rw [hn]; exact Bool.false_ne_true)

def Request.Fits : Request → Prop
  | .call c => c.Fits
  | _ => True

/-- What was read lies under its own key. -/
def Turn.Genuine : Turn → Prop
  | ⟨.call (.read r ns name), x⟩ =>
    ∀ o : Object, x = .ok o → Key.ofMetadata r o.knownMetadata = .of r ns name
  | _ => True

/-- The object that was read right before, at most followed by a look at the time. -/
def Past.copy? : Past → Option (Key × Object)
  | ⟨.call (.read r ns name), .ok o⟩ :: _ => some (.of r ns name, o)
  | ⟨.now, _⟩ :: past => copy? past
  | _ => none

namespace Site

variable {faults : ApiError → Prop} {w w' : Site} {q : Request} {x : q.Answer} {k : Key}

theorem metadata?_of_read {r : Resource} {ns name : Option String} {o : Object}
    (h : w.Answers faults (.call (.read r ns name)) (.ok o) w') :
    w'.cluster.metadata? (.of r ns name) = some o.knownMetadata := by
  rcases h with ⟨h, rfl⟩ | ⟨e, -, h, -⟩
  · simp only [Cluster.respond, Cluster.read] at h
    cases hget : w.cluster.store.get? (.of r ns name) with
    | none =>
      rw [hget] at h
      cases h
    | some o' =>
      rw [hget] at h
      cases h
      exact congrArg (Option.map Object.knownMetadata) hget
  · cases h

theorem genuine_of_answers (h : w.Answers faults q x w') : Turn.Genuine ⟨q, x⟩ := by
  cases q with
  | call c =>
    cases c with
    | read r ns name =>
      rintro o rfl
      exact w'.keyed _ _ (metadata?_of_read h)
    | _ => trivial
  | _ => trivial

theorem effect_of_answers {c : Call} {x : Except ApiError c.Result}
    (h : w.Answers faults (.call c) x w') (k : Key) :
    Cluster.Effect w.cluster k c x (w'.cluster.metadata? k) := by
  rcases h with ⟨rfl, rfl⟩ | ⟨e, -, rfl, rfl⟩
  · exact Cluster.effect_respond w.cluster c k
  · exact .same

theorem cluster_eq_of_answers (h : w.Answers faults q x w') (hq : ∀ c, q ≠ .call c) :
    w'.cluster = w.cluster := by
  cases q with
  | call c => exact absurd rfl (hq c)
  | track => rw [h]; rfl
  | untrack => rw [h]; rfl
  | isTracked => rw [h.2]
  | _ => exact congrArg Site.cluster h

theorem tracker_of_within {ks : Key → Prop} (h : w.Answers faults q x w') (hq : q.Within ks) :
    w'.tracker = w.tracker := by
  cases q with
  | call c =>
    rcases h with ⟨-, rfl⟩ | ⟨e, -, -, rfl⟩
    · rfl
    · rfl
  | track => exact hq.elim
  | untrack => exact hq.elim
  | isTracked => exact hq.elim
  | _ => exact congrArg Site.tracker h

theorem contains_of_shows (hfaults : ∀ e, faults e → Mute e) (h : w.Answers faults q x w')
    (hfits : q.Fits) {b : Bool} (hb : Turn.shows k ⟨q, x⟩ = some b) :
    w'.cluster.contains k = b := by
  cases q with
  | call c =>
    simp only [Turn.shows, Option.ite_none_right_eq_some] at hb
    rcases h with ⟨rfl, rfl⟩ | ⟨e, he, rfl, rfl⟩
    · exact Cluster.shows_respond hfits hb.1 hb.2
    · have hmute := (hfaults e he).shows_eq c
      rw [hb.2] at hmute
      cases hmute
  | _ => cases hb

/-- An answer that shows nothing of an object leaves it as it is, but for volumes that are made for
claims. -/
theorem metadata?_of_unbound (h : w.Answers faults q x w')
    (hunbound : ∀ ns body, q = .call (.create .claim ns body) → k.resource ≠ .volume)
    (hfits : q.Fits) (hsilent : Turn.shows k ⟨q, x⟩ = none) :
    w'.cluster.metadata? k = w.cluster.metadata? k := by
  cases q with
  | call c =>
    have hshows (b : Bool) (hc : c.key? = some k) (hb : c.shows x = some b) : False := by
      rw [Turn.shows, if_pos hc, hb] at hsilent
      cases hsilent
    have heffect := effect_of_answers h k
    generalize w'.cluster.metadata? k = m at heffect
    cases heffect with
    | same => rfl
    | created hkey => exact (hshows true (congrArg some hkey.symm) rfl).elim
    | replaced hkey => exact (hshows true (congrArg some (hfits.symm.trans hkey.symm)) rfl).elim
    | deleted hkey => exact (hshows false (congrArg some hkey.symm) rfl).elim
    | bound hvolume => exact absurd hvolume (hunbound _ _ rfl)
  | _ => exact congrArg (Cluster.metadata? · k) (cluster_eq_of_answers h fun _ => nofun)

theorem metadata?_of_silent (h : w.Answers faults q x w') (hk : k.resource.isNamespaced)
    (hfits : q.Fits) (hsilent : Turn.shows k ⟨q, x⟩ = none) :
    w'.cluster.metadata? k = w.cluster.metadata? k := by
  apply metadata?_of_unbound h _ hfits hsilent
  intro ns body _ hvolume
  rw [hvolume] at hk
  cases hk

theorem metadata?_of_error {c : Call} {e : ApiError} (h : w.Answers faults (.call c) (.error e) w')
    (k : Key) : w'.cluster.metadata? k = w.cluster.metadata? k := by
  have heffect := effect_of_answers h k
  generalize w'.cluster.metadata? k = m at heffect
  cases heffect
  rfl

/-- A call leaves the parts of backings alone that it is not about. -/
theorem metadata?_of_other {c : Call} {x : Except ApiError c.Result}
    (h : w.Answers faults (.call c) x w') (hk : k.resource.isNamespaced) (hfits : c.Fits)
    (hother : c.key? ≠ some k) : w'.cluster.metadata? k = w.cluster.metadata? k :=
  metadata?_of_silent (q := .call c) h hk hfits (if_neg hother)

theorem labels?_of_create {r : Resource} {ns : Option String} {body o : Object}
    (h : w.Answers faults (.call (.create r ns body)) (.ok o) w') (hr : r.isNamespaced) :
    w'.cluster.labels? (.of r ns body.knownMetadata.name) = some body.knownMetadata.labels := by
  rcases h with ⟨hx, rfl⟩ | ⟨e, -, hx, -⟩
  · have hthere : (w.cluster.respond (.create r ns body)).2.contains
        (.of r ns body.knownMetadata.name) = true :=
      Cluster.shows_respond trivial rfl (congrArg (Call.shows (.create r ns body)) hx.symm)
    have habsent := Cluster.absent_of_create hx.symm
    have heffect := Cluster.effect_respond w.cluster (.create r ns body)
      (.of r ns body.knownMetadata.name)
    rw [← hx] at heffect
    rw [← Cluster.isSome_metadata?] at hthere habsent
    rw [Cluster.labels?, after]
    generalize (w.cluster.respond (.create r ns body)).2.metadata?
      (.of r ns body.knownMetadata.name) = m at heffect hthere
    cases heffect with
    | same =>
      rw [habsent] at hthere
      cases hthere
    | created _ _ hlabels => exact congrArg some hlabels
    | bound hvolume => cases hvolume
  · cases hx

theorem contains_of_answers (h : w.Answers faults q x w') (hfits : q.Fits)
    (hk : w.cluster.contains k)
    (hspared : ∀ r ns name, q = .call (.delete r ns name) → Key.of r ns name ≠ k) :
    w'.cluster.contains k := by
  cases q with
  | call c =>
    have heffect := effect_of_answers h k
    rw [← Cluster.isSome_metadata?]
    generalize w'.cluster.metadata? k = m at heffect
    cases heffect with
    | same => exact (Cluster.isSome_metadata? _ _).trans hk
    | deleted hkey => exact absurd hkey.symm (hspared _ _ _ rfl)
    | _ => rfl
  | _ =>
    rw [cluster_eq_of_answers h fun _ => nofun]
    exact hk

/-- An object comes and goes only by calls about it. -/
theorem contains_eq_of_answers (h : w.Answers faults q x w') (hfits : q.Fits)
    (hcreate : ∀ r ns body, q ≠ .call (.create r ns body))
    (hspared : ∀ r ns name, (⟨q, x⟩ : Turn) = ⟨.call (.delete r ns name), .ok ()⟩ →
      Key.of r ns name ≠ k) : w'.cluster.contains k = w.cluster.contains k := by
  cases q with
  | call c =>
    have heffect := effect_of_answers h k
    rw [← Cluster.isSome_metadata?]
    generalize w'.cluster.metadata? k = m at heffect
    cases heffect with
    | same => exact Cluster.isSome_metadata? _ _
    | created => exact absurd rfl (hcreate _ _ _)
    | replaced hkey hthere =>
      rw [hkey, hfits, hthere]
      rfl
    | deleted hkey => exact absurd hkey.symm (hspared _ _ _ rfl)
    | bound => exact absurd rfl (hcreate _ _ _)
  | _ => exact congrArg (Cluster.contains · k) (cluster_eq_of_answers h fun _ => nofun)

/-- What is known of a part of a backing stays known, and what is learned of it is so. -/
theorem known_of_answers (hfaults : ∀ e, faults e → Mute e) (h : w.Answers faults q x w')
    (hk : k.resource.isNamespaced) (hfits : q.Fits) {past : Past}
    (hpast : ∀ b, past.shows k = some b → w.cluster.contains k = b) (b : Bool)
    (hb : Past.shows k (⟨q, x⟩ :: past) = some b) : w'.cluster.contains k = b := by
  rw [Past.shows_cons] at hb
  cases he : Turn.shows k ⟨q, x⟩ with
  | some b' =>
    rw [he, Option.some_or] at hb
    cases hb
    exact contains_of_shows hfaults h hfits he
  | none =>
    rw [he, Option.none_or] at hb
    rw [← Cluster.isSome_metadata?, metadata?_of_silent h hk hfits he, Cluster.isSome_metadata?]
    exact hpast b hb

/-- An object that was just read is the one that is stored, until something else is answered. -/
theorem copy_of_answers (h : w.Answers faults q x w') {past : Past}
    (hpast : ∀ o, past.copy? = some (k, o) → w.cluster.metadata? k = some o.knownMetadata)
    {o : Object} (ho : Past.copy? (⟨q, x⟩ :: past) = some (k, o)) :
    w'.cluster.metadata? k = some o.knownMetadata := by
  cases q with
  | call c =>
    cases c with
    | read r ns name =>
      cases x with
      | ok o' =>
        cases ho
        exact metadata?_of_read h
      | error e => cases ho
    | _ => cases ho
  | now =>
    rw [show w' = w from h]
    exact hpast o ho
  | _ => cases ho

theorem tracked_of_answers (h : w.Answers faults q x w') (volume : String) :
    w'.tracker.contains volume =
      (Turn.tracks volume ⟨q, x⟩).getD (w.tracker.contains volume) := by
  cases q with
  | track v =>
    rw [show w' = w.tracking (w.tracker.add v) from h, tracking, Tracker.contains_add, Turn.tracks]
    by_cases hv : v = volume
    · simp [hv]
    · simp [hv]
  | untrack v =>
    rw [show w' = w.tracking (w.tracker.erase v) from h, tracking, Tracker.contains_erase,
      Turn.tracks]
    by_cases hv : v = volume
    · simp [hv]
    · simp [hv]
  | isTracked v => rw [h.2]; rfl
  | call c =>
    rcases h with ⟨-, rfl⟩ | ⟨e, -, -, rfl⟩
    · rfl
    · rfl
  | _ => exact congrArg (fun w : Site => w.tracker.contains volume) h

theorem check_of_answers (h : w.Answers faults q x w') {volume : String} {b : Bool}
    (hcheck : Turn.check? ⟨q, x⟩ = some (volume, b)) :
    (⟨q, x⟩ : Turn) = ⟨.isTracked volume, b⟩ ∧ b = w.tracker.contains volume := by
  cases q with
  | isTracked v =>
    cases hcheck
    exact ⟨rfl, h.1⟩
  | _ => cases hcheck

end Site

end VolumeExport
