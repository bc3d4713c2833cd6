import VolumeExport.Collector
import VolumeExport.Proofs.Provisioning

namespace VolumeExport.Collector

open Past (Since)

def Bereft (owner : Owner) : Except ApiError Object → Prop
  | .ok o => o.knownMetadata.uid ≠ owner.uid
  | .error e => e.isNotFound

/-- What was answered when a backing claim was found to be stale. -/
inductive Stale (claim : Object) (volume : String) (before : Past) : Past → Prop
  | intro {name : String} {owner : Owner} {x : Except ApiError Object} {e : ApiError} :
      claim.knownMetadata.name = some name → Name.volumeOf? name = some volume → volume ≠ "" →
      owner? claim = some owner → Bereft owner x → e.isNotFound →
      Stale claim volume before
        (⟨.call (.read .volume none volume), .error e⟩ ::
          ⟨.call (.read .claim owner.namespaceName owner.name), x⟩ ::
          ⟨.isTracked volume, false⟩ :: before)

def Listed (s : Setup) (page : Page) (p : Past) : Prop :=
  ⟨.call (.list .claim (some s.settings.serverNamespace) (some selector)), .ok page⟩ ∈ p

/-- What was answered before a backing is taken down. -/
inductive Condemned (s : Setup) (volume : String) : Past → Prop
  | intro {page : Page} {claim : Object} {before p : Past} {text : String} :
      Listed s page before → claim ∈ page.items → Stale claim volume before p →
      Condemned s volume (⟨.log text, .ok ()⟩ :: ⟨.isTracked volume, false⟩ :: p)

theorem Condemned.check?_eq {s : Setup} {volume : String} {before p : Past} {ks : Key → Prop}
    (h : Condemned s volume before) (hp : Since (Request.Within ks) before p) :
    p.check? = some (volume, false) := by
  rw [hp.check?_eq]
  cases h
  rfl

/-- What a sweep asks. -/
inductive Sweeps (s : Setup) : Request → Past → Prop
  | quiet {q p} : q.Quiet → Sweeps s q p
  | list {p} :
      Sweeps s (.call (.list .claim (some s.settings.serverNamespace) (some selector))) p
  | isTracked {volume p} : Sweeps s (.isTracked volume) p
  | readOwner {ns name p} : Sweeps s (.call (.read .claim ns name)) p
  | readVolume {name p} : Sweeps s (.call (.read .volume none name)) p
  | takedown {volume before q p} : Condemned s volume before →
      Since (Request.Within (Backing.Concerned s.settings.serverNamespace volume)) before p →
      Backing.Takedown s.settings.serverNamespace volume q p → Sweeps s q p

variable {s : Setup} {past : Past}

theorem Sweeps.takedown_of_alters {c : Call} (h : Sweeps s (.call c) past) (hc : c.alters) :
    ∃ volume before, Condemned s volume before ∧
      Since (Request.Within (Backing.Concerned s.settings.serverNamespace volume)) before past ∧
      Backing.Takedown s.settings.serverNamespace volume (.call c) past := by
  cases h with
  | quiet hq => exact hq.elim
  | list => cases hc
  | readOwner => cases hc
  | readVolume => cases hc
  | takedown hcondemned hsince h => exact ⟨_, _, hcondemned, hsince, h⟩

theorem Sweeps.creates_nothing {r : Resource} {ns : Option String} {body : Object} :
    ¬Sweeps s (.call (.create r ns body)) past := by
  intro h
  cases h with
  | quiet hq => exact hq.elim
  | takedown _ _ h =>
    cases h with
    | quiet hq => exact hq.elim

theorem keeps_staleVolume? {claim : Object} :
    (staleVolume? claim).Keeps (Sweeps s)
      (Action.either (fun found p => ∀ volume, found = some volume → Stale claim volume past p)
        fun _ _ => True) past := by
  rw [staleVolume?]
  cases hname : claim.knownMetadata.name with
  | none => exact Action.keeps_fail trivial
  | some name =>
    dsimp only
    cases hvolume : (Name.volumeOf? name).filter (· ≠ "") with
    | none => exact Action.keeps_pure nofun
    | some volume =>
      apply Action.keeps_ask .isTracked
      intro (tracked : Bool)
      apply Action.keeps_ite (fun _ => Action.keeps_pure nofun)
      intro htracked
      obtain rfl : tracked = false := Bool.eq_false_iff.2 htracked
      cases howner : owner? claim with
      | none =>
        apply Action.keeps_log_bind (.quiet trivial) _ fun _ _ _ => trivial
        intro p _
        exact Action.keeps_pure nofun
      | some owner =>
        apply Action.Keeps.bind (M := Action.either
          (fun found p => ∃ x : Except ApiError Object,
            (isOwner owner found = false → Bereft owner x) ∧
            p = ⟨.call (.read .claim owner.namespaceName owner.name), x⟩ ::
              ⟨.isTracked volume, false⟩ :: past)
          fun _ _ => True) (Access.keeps_get .readOwner _ _ fun _ => trivial) _ fun _ _ _ => trivial
        · exact fun o => ⟨.ok o, fun h => of_decide_eq_false h, rfl⟩
        · exact fun e he => ⟨.error e, fun _ => he, rfl⟩
        · intro found _ hafter
          obtain ⟨x, hx, rfl⟩ := hafter
          apply Action.keeps_ite (fun _ => Action.keeps_pure nofun)
          intro hgone
          apply Action.Keeps.bind (M := Action.either
            (fun found p => found = none → Stale claim volume past p) fun _ _ => True)
            (Access.keeps_get .readVolume (fun _ => nofun) _ fun _ => trivial) _
            fun _ _ _ => trivial
          · intro e he _
            have hvolume := Option.filter_eq_some_iff.1 hvolume
            exact .intro hname hvolume.1 (of_decide_eq_true hvolume.2) howner
              (hx (Bool.eq_false_iff.2 hgone)) he
          · intro found p hp
            cases found with
            | some _ => exact Action.keeps_pure nofun
            | none =>
              apply Action.keeps_pure
              rintro _ ⟨⟩
              exact hp rfl

theorem keeps_collect {claim : Object} {page : Page}
    (hpage : Listed s page past)
    (hclaim : claim ∈ page.items) :
    (collect s claim).Keeps (Sweeps s) (fun _ _ => True) past := by
  apply Action.Keeps.bind keeps_staleVolume? _ fun _ _ _ => trivial
  intro found p hp
  cases found with
  | none => exact Action.keeps_pure trivial
  | some volume =>
    apply Action.keeps_ask .isTracked
    intro (tracked : Bool)
    apply Action.keeps_ite (fun _ => Action.keeps_pure trivial)
    intro htracked
    obtain rfl : tracked = false := Bool.eq_false_iff.2 htracked
    apply Action.Keeps.bind (M := Action.either (fun _ p => Condemned s volume p) fun _ _ => True)
      (Action.keeps_log (.quiet trivial) (.intro hpage hclaim (hp volume rfl)) fun _ => trivial) _
      fun _ _ _ => trivial
    intro _ p hcondemned
    apply Action.Keeps.bind (M := fun _ _ => True)
      ((Backing.keeps_delete.since fun _ _ h => h.within).mono
        (fun _ _ h => .takedown hcondemned h.2 h.1) fun _ _ _ => trivial) _ fun _ _ _ => trivial
    intro _ p _
    exact Action.keeps_pure trivial

theorem keeps_collectAll {claims : List Object} {page : Page}
    (hpage : Listed s page past)
    (hclaims : ∀ claim ∈ claims, claim ∈ page.items) :
    (collectAll s claims).Keeps (Sweeps s) (fun _ _ => True) past := by
  induction claims generalizing past with
  | nil => exact Action.keeps_pure trivial
  | cons claim claims ih =>
    obtain ⟨hclaim, hclaims⟩ := List.forall_mem_cons.1 hclaims
    have hrest (found : Option String) (p : Past) (hp : Since (fun _ => True) past p) :
        Action.Keeps (Sweeps s) (fun _ _ => True)
          (do return found.toList ++ (← collectAll s claims)) p :=
      Action.Keeps.bind (ih (hp.mem hpage) hclaims) (fun _ _ _ => Action.keeps_pure trivial)
        fun _ _ _ => trivial
    have hcollect := (keeps_collect hpage hclaim).since fun _ _ _ => trivial
    apply Action.Keeps.bind (M := Action.either (fun _ p => Since (fun _ => True) past p)
      fun _ _ => False) ((hcollect.mono (fun _ _ h => h.1) fun _ _ h => h).outcome
        fun _ _ h => h.2) _ fun _ _ => False.elim
    intro x p hp
    cases x with
    | ok found => exact hrest found p hp
    | error e =>
      apply Action.keeps_log_bind (.quiet trivial) _ fun _ _ _ => trivial
      intro p' hp'
      exact hrest none p' (Since.trans hp (hp'.mono fun _ _ => trivial))

theorem Sweeps.tracks_eq {q : Request} {p : Past} (h : Sweeps s q p) (x : q.Answer)
    (volume : String) : Turn.tracks volume ⟨q, x⟩ = none := by
  cases h with
  | quiet hq => exact Turn.tracks_of_within (hq.within fun _ => True) volume
  | takedown _ _ h => exact Turn.tracks_of_within h.within volume
  | _ => rfl

theorem keeps_sweep (htracks : past.Untracked) :
    (sweep s).Keeps (Sweeps s) (fun _ p => p.Untracked) past := by
  have hsweep : (sweep s).Keeps (Sweeps s) (fun _ _ => True) past := by
    apply Action.Keeps.bind (M := Action.either
      (fun x p => ∀ claims, x = .ok claims → ∃ page, page.items = claims ∧ Listed s page p)
      fun _ _ => False) _ _ fun _ _ => False.elim
    · apply Action.Keeps.outcome (M := fun x p => ∀ claims, x = .ok claims →
        ∃ page : Page, page.items = claims ∧ Listed s page p)
        (Access.keeps_listAll .list _ _) fun _ _ h => h
      · rintro page _ ⟨⟩
        exact ⟨page, rfl, List.mem_cons_self⟩
      · exact fun _ _ => nofun
    · intro x p hp
      cases x with
      | ok claims =>
        obtain ⟨page, rfl, hpage⟩ := hp claims rfl
        exact keeps_collectAll hpage fun _ h => h
      | error e =>
        apply Action.keeps_log_bind (.quiet trivial) _ fun _ _ _ => trivial
        intro p _
        exact Action.keeps_pure trivial
  apply (hsweep.since (C := fun q => ∀ (x : q.Answer) v, Turn.tracks v ⟨q, x⟩ = none)
    fun _ _ => Sweeps.tracks_eq).mono (fun _ _ h => h.1)
  intro _ p hp v
  rw [Past.tracks, hp.2.findSome?_eq fun e he => he e.answer v]
  exact htracks v

end VolumeExport.Collector
