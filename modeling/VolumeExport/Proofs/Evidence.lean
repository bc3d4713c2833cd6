import VolumeExport.Cluster.Access
import VolumeExport.Proofs.Keeps

namespace VolumeExport

namespace Call

def key? : Call → Option Key
  | .read r ns name => some (.of r ns name)
  | .create r ns body => some (.of r ns body.knownMetadata.name)
  | .delete r ns name => some (.of r ns name)
  | .replace r ns name _ => some (.of r ns name)
  | .list .. => none

/-- Whether the answer to a call shows that its object is there, or that it is not. -/
def shows : (c : Call) → Except ApiError c.Result → Option Bool
  | .read .., .ok _ => some true
  | .read .., .error e => if e.isNotFound then some false else none
  | .create .., .ok _ => some true
  | .create .., .error e => if e.isConflict then some true else none
  | .delete .., .ok _ => some false
  | .delete .., .error e => if e.isNotFound then some false else none
  | .replace .., .ok _ => some true
  | .replace .., .error e => if e.isNotFound then some false else none
  | .list .., _ => none

end Call

/-- A request about one of some objects, or about no single object; none about the tracker. -/
def Request.Within (ks : Key → Prop) : Request → Prop
  | .call c => ∀ k, c.key? = some k → ks k
  | .track _ => False
  | .untrack _ => False
  | .isTracked _ => False
  | _ => True

theorem Request.within_of_key {ks : Key → Prop} {c : Call} {k : Key} (h : c.key? = some k)
    (hk : ks k) : (Request.call c).Within ks := by
  intro l hl
  rw [h] at hl
  cases hl
  exact hk

theorem Request.Within.mono {ks ks' : Key → Prop} {q : Request} (h : q.Within ks)
    (hks : ∀ k, ks k → ks' k) : q.Within ks' := by
  cases q with
  | call c => exact fun k hk => hks k (h k hk)
  | track => exact h
  | untrack => exact h
  | isTracked => exact h
  | _ => trivial

/-- A request that is about no object and not about the tracker. -/
def Request.Quiet : Request → Prop
  | .now => True
  | .log _ => True
  | .uptime => True
  | .deadline _ => True
  | .sleep _ => True
  | .wait _ => True
  | _ => False

theorem Request.Quiet.within {q : Request} (h : q.Quiet) (ks : Key → Prop) : q.Within ks := by
  cases q with
  | call => exact h.elim
  | track => exact h.elim
  | untrack => exact h.elim
  | isTracked => exact h.elim
  | _ => trivial

namespace Turn

def shows (k : Key) : Turn → Option Bool
  | ⟨.call c, x⟩ => if c.key? = some k then c.shows x else none
  | _ => none

/-- Whether a volume is tracked from then on, if that changes. -/
def tracks (volume : String) : Turn → Option Bool
  | ⟨.track v, _⟩ => if v = volume then some true else none
  | ⟨.untrack v, _⟩ => if v = volume then some false else none
  | _ => none

def check? : Turn → Option (String × Bool)
  | ⟨.isTracked v, tracked⟩ => some (v, tracked)
  | _ => none

variable {ks : Key → Prop} {e : Turn}

theorem shows_of_within (h : e.request.Within ks) {k : Key} (hk : ¬ks k) : e.shows k = none := by
  obtain ⟨q, x⟩ := e
  cases q with
  | call c => exact if_neg fun hl => hk (h k hl)
  | _ => rfl

theorem tracks_of_within (h : e.request.Within ks) (volume : String) : e.tracks volume = none := by
  obtain ⟨q, x⟩ := e
  cases q with
  | track => exact h.elim
  | untrack => exact h.elim
  | _ => rfl

theorem eq_track_of_tracks {volume : String} (h : e.tracks volume = some true) :
    e = ⟨.track volume, ()⟩ := by
  obtain ⟨q, x⟩ := e
  cases q with
  | track v =>
    obtain ⟨rfl, -⟩ := Option.ite_none_right_eq_some.1 h
    rfl
  | untrack v => cases (Option.ite_none_right_eq_some.1 h).2
  | _ => cases h

theorem check?_of_within (h : e.request.Within ks) : e.check? = none := by
  obtain ⟨q, x⟩ := e
  cases q with
  | isTracked => exact h.elim
  | _ => rfl

end Turn

namespace Past

/-- Whether the object of a key is there, as far as the past tells. -/
def shows (k : Key) (past : Past) : Option Bool := past.findSome? (Turn.shows k)

def tracks (volume : String) (past : Past) : Bool :=
  (past.findSome? (Turn.tracks volume)).getD false

def check? (past : Past) : Option (String × Bool) := past.findSome? Turn.check?

def Unseen (k : Key) (past : Past) : Prop := ∀ e ∈ past, e.shows k ≠ some true

def Untracked (past : Past) : Prop := ∀ volume, past.tracks volume = false

/-- Since an earlier past there were only answers to requests of some kind. -/
def Since (ok : Request → Prop) (before past : Past) : Prop :=
  ∃ es, past = es ++ before ∧ ∀ e ∈ es, ok e.request

variable {ok ok' : Request → Prop} {ks : Key → Prop} {before mid past : Past}

theorem Since.refl (ok : Request → Prop) (past : Past) : Since ok past past :=
  ⟨[], rfl, fun _ he => nomatch he⟩

theorem Since.cons (h : Since ok before past) {e : Turn} (he : ok e.request) :
    Since ok before (e :: past) := by
  obtain ⟨es, rfl, hes⟩ := h
  exact ⟨e :: es, rfl, List.forall_mem_cons.2 ⟨he, hes⟩⟩

theorem Since.trans (h : Since ok before mid) (h' : Since ok mid past) : Since ok before past := by
  obtain ⟨es, rfl, hes⟩ := h
  obtain ⟨fs, rfl, hfs⟩ := h'
  refine ⟨fs ++ es, (List.append_assoc ..).symm, fun e he => ?_⟩
  rcases List.mem_append.1 he with he | he
  · exact hfs e he
  · exact hes e he

theorem Since.mono (h : Since ok before past) (hok : ∀ q, ok q → ok' q) :
    Since ok' before past := by
  obtain ⟨es, rfl, hes⟩ := h
  exact ⟨es, rfl, fun e he => hok _ (hes e he)⟩

theorem Since.widen {ks' : Key → Prop} (h : Since (Request.Within ks) before past)
    (hks : ∀ k, ks k → ks' k) : Since (Request.Within ks') before past :=
  h.mono fun _ hq => hq.mono hks

theorem Since.mem (h : Since ok before past) {e : Turn} (he : e ∈ before) : e ∈ past := by
  obtain ⟨es, rfl, -⟩ := h
  exact List.mem_append_right es he

theorem Since.new (h : Since ok before past) {e : Turn} (he : e ∈ past) :
    e ∈ before ∨ ok e.request := by
  obtain ⟨es, rfl, hes⟩ := h
  exact (List.mem_append.1 he).symm.imp_right (hes e)

theorem Since.findSome?_eq {α : Type} {f : Turn → Option α} (h : Since ok before past)
    (hf : ∀ e : Turn, ok e.request → f e = none) : past.findSome? f = before.findSome? f := by
  obtain ⟨es, rfl, hes⟩ := h
  have hn : es.findSome? f = none := List.findSome?_eq_none_iff.2 fun e he => hf e (hes e he)
  rw [List.findSome?_append, hn, Option.none_or]

/-- What is done to other objects does not change what is known about one. -/
theorem Since.shows_eq (h : Since (Request.Within ks) before past) {k : Key} (hk : ¬ks k) :
    shows k past = shows k before :=
  h.findSome?_eq fun _ he => Turn.shows_of_within he hk

theorem Since.shows_quiet (h : Since Request.Quiet before past) (k : Key) :
    shows k past = shows k before :=
  (h.mono fun _ hq => hq.within fun _ => False).shows_eq id

theorem Since.tracks_eq (h : Since (Request.Within ks) before past) (volume : String) :
    tracks volume past = tracks volume before := by
  rw [tracks, tracks, h.findSome?_eq fun _ he => Turn.tracks_of_within he volume]

theorem Since.check?_eq (h : Since (Request.Within ks) before past) :
    check? past = check? before :=
  h.findSome?_eq fun _ he => Turn.check?_of_within he

theorem Since.unseen (h : Since (Request.Within ks) before past) {k : Key} (hk : ¬ks k)
    (hu : Unseen k before) : Unseen k past := by
  intro e he
  rcases h.new he with he | he
  · exact hu e he
  · rw [Turn.shows_of_within he hk]
    exact nofun

theorem shows_cons (k : Key) (e : Turn) (past : Past) :
    shows k (e :: past) = (e.shows k).or (shows k past) := by
  simp only [shows, List.findSome?_cons]
  cases e.shows k <;> rfl

theorem tracks_cons (volume : String) (e : Turn) (past : Past) :
    tracks volume (e :: past) = (e.tracks volume).getD (tracks volume past) := by
  simp only [tracks, List.findSome?_cons]
  cases e.tracks volume <;> rfl

theorem shows_call {c : Call} {x : Except ApiError c.Result} {k : Key} {b : Bool}
    (hk : c.key? = some k) (hb : c.shows x = some b) : shows k (⟨.call c, x⟩ :: past) = some b := by
  have h : Turn.shows k ⟨.call c, x⟩ = some b := (if_pos hk).trans hb
  rw [shows_cons, h, Option.some_or]

theorem shows_skip {e : Turn} {k : Key} (h : e.shows k = none) :
    shows k (e :: past) = shows k past := by
  rw [shows_cons, h, Option.none_or]

end Past

theorem Prog.Keeps.since {α : Type} {may : Request → Past → Prop} {goal : α → Past → Prop}
    {C : Request → Prop} {p : Prog α} {past : Past} (h : Keeps may goal p past)
    (hok : ∀ q p, may q p → C q) :
    Keeps (fun q p => may q p ∧ Past.Since C past p) (fun a p => goal a p ∧ Past.Since C past p)
      p past := by
  have hfor (n : Nat) (p : Prog α) (mid : Past) (h : KeepsFor may goal n p mid)
      (hmid : Past.Since C past mid) :
      KeepsFor (fun q p => may q p ∧ Past.Since C past p)
        (fun a p => goal a p ∧ Past.Since C past p) n p mid := by
    induction n generalizing p mid with
    | zero => trivial
    | succ n ih =>
      simp only [KeepsFor] at h ⊢
      split at h
      · exact ⟨h, hmid⟩
      · exact ⟨⟨h.1, hmid⟩, fun x => ih _ _ (h.2 x) (hmid.cons (hok _ _ h.1))⟩
  exact fun n => hfor n p past (h n) (.refl _ _)

theorem Action.Keeps.since {α : Type} {may : Request → Past → Prop}
    {goal : Except Fault α → Past → Prop} {C : Request → Prop} {a : Action α} {past : Past}
    (h : a.Keeps may goal past) (hok : ∀ q p, may q p → C q) :
    a.Keeps (fun q p => may q p ∧ Past.Since C past p)
      (fun r p => goal r p ∧ Past.Since C past p) past :=
  Prog.Keeps.since h hok

/-- An action that leaves the tracker alone, run while a volume is tracked. -/
theorem Action.Keeps.tracked {α : Type} {volume : String} {may M : Request → Past → Prop}
    {G : Except Fault α → Past → Prop} {a : Action α} {past : Past}
    (h : a.Keeps M G (⟨.track volume, ()⟩ :: past))
    (hM : ∀ q p, M q p → q.Within fun _ => True)
    (htrack : may (.track volume) past) (huntrack : ∀ p, may (.untrack volume) p)
    (hmay : ∀ q p, p.tracks volume = true → M q p → may q p) (htracks : past.Untracked) :
    (Action.tracking volume a).Keeps may
      (fun r p => ∃ p', p = ⟨.untrack volume, ()⟩ :: p' ∧ G r p' ∧ p.Untracked) past := by
  have hopen (v : String) :
      Past.tracks v (⟨.track volume, ()⟩ :: past) = decide (volume = v) := by
    rw [Past.tracks_cons, htracks v]
    simp only [Turn.tracks]
    split <;> simp_all
  refine Action.Keeps.tracking htrack ((h.since hM).mono (fun q p hq => ?_) fun _ _ hr => hr)
    (fun _ p _ => huntrack p) fun r p hr => ⟨p, rfl, hr.1, fun v => ?_⟩
  · apply hmay q p _ hq.1
    rw [hq.2.tracks_eq, hopen]
    exact decide_eq_true rfl
  · rw [Past.tracks_cons, hr.2.tracks_eq, hopen]
    simp only [Turn.tracks]
    split <;> simp_all

theorem Action.keeps_log_quiet {may : Request → Past → Prop} {past : Past} {text : String}
    {G : Except Fault Unit → Past → Prop} (h : may (.log text) past)
    (hgoal : ∀ x p, Past.Since Request.Quiet past p → G x p) :
    (log text).Keeps may G past :=
  keeps_log h (hgoal _ _ ((Past.Since.refl _ _).cons trivial)) fun _ =>
    hgoal _ _ ((Past.Since.refl _ _).cons trivial)

theorem Action.keeps_log_bind {β : Type} {may : Request → Past → Prop} {past : Past} {text : String}
    {goal : Except Fault β → Past → Prop} {f : Unit → Action β} (h : may (.log text) past)
    (hf : ∀ p, Past.Since Request.Quiet past p → (f ()).Keeps may goal p)
    (herror : ∀ e p, Past.Since Request.Quiet past p → goal (.error e) p) :
    Action.Keeps may goal (log text >>= f) past :=
  Keeps.bind (M := fun _ p => Past.Since Request.Quiet past p)
    (keeps_log_quiet h fun _ _ hp => hp) (fun _ p hp => hf p hp) herror

end VolumeExport
