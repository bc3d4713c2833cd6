import VolumeExport.Proofs.Collection
import VolumeExport.Proofs.Waiting

namespace VolumeExport

def Call.looks : Call → Bool
  | .list .. => true
  | .read .claim .. => true
  | .read .volume .. => true
  | _ => false

theorem Call.looks_of_alters {c : Call} (h : c.alters) : c.looks = false := by
  cases c with
  | replace => rfl
  | delete => rfl
  | _ => cases h

def Moment.Untracked (m : Moment) (v : String) : Prop :=
  m.turn = ⟨.isTracked v, false⟩ ∧ m.before.tracker.contains v = false

namespace Collector

/-- What a sweep saw of a backing claim when it found it to be stale. Each moment is as the site was
right before the answer. -/
structure Suspect (claim : Object) (v : String) (volume owner first : Moment) : Prop where
  name : claim.knownMetadata.name = some (Name.backing v)
  ne_empty : v ≠ ""
  first : first.Untracked v
  owner : ∃ o, owner? claim = some o ∧ owner.Served (.read .claim o.namespaceName o.name) ∧
    ¬Alive owner.before.cluster o
  volume : volume.Served (.read .volume none v) ∧
    volume.before.cluster.contains (.of .volume none v) = false

/-- What a sweep saw, the latest first, right before it takes down a backing: besides what makes the
claim stale, that the volume is still not tracked. In between it writes a line to the log. -/
inductive Evidence (claim : Object) (v : String) : List Moment → Prop
  | intro {noted again volume owner first : Moment} {text : String} :
      Suspect claim v volume owner first → again.Untracked v →
      noted.turn = ⟨.log text, .ok ()⟩ → Evidence claim v [noted, again, volume, owner, first]

/-- What a sweep saw since it began, the latest first, when it comes to take down a backing, whose
claim was among those that it listed. -/
inductive Grounds (s : Setup) (v : String) : List Moment → Prop
  | intro {claim : Object} {evidence earlier : List Moment} {listing : Moment} :
      listing.Served (.list .claim (some s.settings.serverNamespace) (some selector)) →
      claim ∈ (listing.before.cluster.list .claim (some s.settings.serverNamespace)
        (some selector)).items →
      Marked claim → Evidence claim v evidence → Grounds s v (evidence ++ (earlier ++ [listing]))

variable {s : Setup} {w : Site} {claim : Object} {v : String} {ms : List Moment} {c : Call}

theorem untracked_of_answers {v v' : Site} {volume : String} {x : Bool}
    (h : v.Answers Surroundings.crowd.faults (.isTracked volume) x v') (hx : ¬x) :
    Moment.Untracked ⟨v, ⟨.isTracked volume, x⟩, v'⟩ volume := by
  obtain rfl : x = false := Bool.eq_false_iff.2 hx
  exact ⟨rfl, h.1.symm⟩

theorem suspect_of_staleVolume?
    (h : (staleVolume? claim).Runs .crowd w ms (.ok (some v))) :
    ∃ volume owner first, ms = [volume, owner, first] ∧ Suspect claim v volume owner first := by
  rw [staleVolume?] at h
  cases hname : claim.knownMetadata.name with
  | none =>
    rw [hname] at h
    exact absurd h Action.Runs.not_fail
  | some name =>
    rw [hname] at h
    dsimp only at h
    cases hvolume : (Name.volumeOf? name).filter (· ≠ "") with
    | none =>
      rw [hvolume] at h
      cases h.eq_of_pure.2
    | some volume =>
      rw [hvolume] at h
      obtain ⟨hvolume, hne⟩ := Option.filter_eq_some_iff.1 hvolume
      obtain rfl := Name.volumeOf?_eq_some.1 hvolume
      obtain ⟨v₁, (tracked : Bool), v₁', later, rfl, hx, h⟩ := h.ask_cases
      obtain ⟨-, h⟩ | ⟨htracked, h⟩ := h.ite_cases
      · cases h.eq_of_pure.2
      have hfirst := untracked_of_answers hx htracked
      cases howner : owner? claim with
      | none =>
        rw [howner] at h
        obtain ⟨_, _, _, -, -, h⟩ := h.bind_cases
        cases h.eq_of_pure.2
      | some o =>
        rw [howner] at h
        obtain ⟨found, _, later, rfl, hget, h⟩ := h.bind_cases
        obtain ⟨owner, rfl, hserved, rfl⟩ := Access.get_of_runs hget
        obtain ⟨-, h⟩ | ⟨halive, h⟩ := h.ite_cases
        · cases h.eq_of_pure.2
        obtain ⟨found, _, later, rfl, hget, h⟩ := h.bind_cases
        obtain ⟨read, rfl, hread, hfound⟩ := Access.get_of_runs hget
        cases found with
        | some _ => cases h.eq_of_pure.2
        | none =>
          obtain ⟨rfl, hv⟩ := h.eq_of_pure
          cases hv
          refine ⟨read, owner, _, rfl, hname, of_decide_eq_true hne, hfirst,
            ⟨o, howner, hserved, fun h => halive (isOwner_of_alive h)⟩, hread, ?_⟩
          rw [Cluster.contains, Store.contains, ← hfound]
          rfl

def Looks (claim : Object) : Request → Prop
  | .call c => c.looks
  | .isTracked v => claim.knownMetadata.name = some (Name.backing v)
  | .log _ => True
  | _ => False

theorem keeps_staleVolume?_looks {past : Past} :
    (staleVolume? claim).Keeps (fun q _ => Looks claim q)
      (Action.either (fun found _ => ∀ v, found = some v →
        claim.knownMetadata.name = some (Name.backing v)) fun _ _ => True) past := by
  have hnone {P : String → Prop} : ∀ v, (none : Option String) = some v → P v := by
    rintro _ ⟨⟩
  rw [staleVolume?]
  cases hname : claim.knownMetadata.name with
  | none => exact Action.keeps_fail trivial
  | some name =>
    dsimp only
    cases hvolume : (Name.volumeOf? name).filter (· ≠ "") with
    | none => exact Action.keeps_pure hnone
    | some volume =>
      obtain rfl := Name.volumeOf?_eq_some.1 (Option.filter_eq_some_iff.1 hvolume).1
      apply Action.keeps_ask hname
      intro (tracked : Bool)
      apply Action.keeps_ite (fun _ => Action.keeps_pure hnone)
      intro _
      cases owner? claim with
      | none =>
        apply Action.keeps_log_bind trivial _ fun _ _ _ => trivial
        intro p _
        exact Action.keeps_pure hnone
      | some owner =>
        apply Action.Keeps.bind (M := fun _ _ => True) (Access.keeps_get rfl
          (fun _ => trivial) (fun _ _ => trivial) fun _ => trivial) _ fun _ _ _ => trivial
        intro found p _
        apply Action.keeps_ite (fun _ => Action.keeps_pure hnone)
        intro _
        apply Action.Keeps.bind (M := fun _ _ => True) (Access.keeps_get rfl
          (fun _ => trivial) (fun _ _ => trivial) fun _ => trivial) _ fun _ _ _ => trivial
        intro found p _
        cases found with
        | some _ => exact Action.keeps_pure hnone
        | none =>
          apply Action.keeps_pure
          rintro _ ⟨⟩
          rfl

/-- A request that looks at the tracker at most for the volume that a claim is named for. -/
def Own (claim : Object) : Request → Prop
  | .isTracked v => claim.knownMetadata.name = some (Name.backing v)
  | _ => True

theorem own_of_within {ks : Key → Prop} {q : Request} (h : q.Within ks) : Own claim q := by
  cases q with
  | isTracked => exact h.elim
  | _ => trivial

theorem own_of_looks {q : Request} (h : Looks claim q) : Own claim q := by
  cases q with
  | isTracked => exact h
  | _ => trivial

theorem keeps_collect_own {past : Past} :
    (collect s claim).Keeps (fun q _ => Own claim q) (fun _ _ => True) past := by
  apply Action.Keeps.bind (keeps_staleVolume?_looks.mono (fun _ _ => own_of_looks) fun _ _ h => h)
    _ fun _ _ _ => trivial
  intro found p hfound
  cases found with
  | none => exact Action.keeps_pure trivial
  | some v =>
    apply Action.keeps_ask (hfound v rfl)
    intro (tracked : Bool)
    apply Action.keeps_ite (fun _ => Action.keeps_pure trivial)
    intro _
    apply Action.keeps_log_bind trivial _ fun _ _ _ => trivial
    intro p _
    apply Action.Keeps.bind (Backing.keeps_delete.mono (fun _ _ h => own_of_within h.within)
      fun _ _ _ => trivial) (M := fun _ _ => True) _ fun _ _ _ => trivial
    intro _ p _
    exact Action.keeps_pure trivial

theorem evidence_of_collect (h : (collect s claim).Waits .crowd w ms (.call c))
    (hc : c.looks = false) :
    ∃ v evidence during, ms = during ++ evidence ∧ Evidence claim v evidence ∧
      (Backing.delete s v).Waits .crowd (w.along evidence) during (.call c) := by
  rcases h.bind_cases with h | ⟨found, _, later, rfl, hruns, h⟩
  · have hlooks : c.looks = true := h.asked keeps_staleVolume?_looks
    rw [hc] at hlooks
    cases hlooks
  · cases found with
    | none => exact absurd h Action.not_waits_pure
    | some v =>
      obtain ⟨volume, owner, first, rfl, hsuspect⟩ := suspect_of_staleVolume? hruns
      obtain ⟨-, hq⟩ | ⟨u, (tracked : Bool), u', later, rfl, hx, h⟩ := h.ask_cases
      · cases hq
      obtain ⟨-, h⟩ | ⟨htracked, h⟩ := h.ite_cases
      · exact absurd h Action.not_waits_pure
      rcases h.bind_cases with h | ⟨_, _, later, rfl, hlog, h⟩
      · nomatch h.of_log.2
      obtain ⟨noted, rfl, hnoted⟩ := hlog.of_log
      rcases h.bind_cases with h | ⟨_, _, _, -, -, h⟩
      · refine ⟨v, _, later, ?_, .intro hsuspect (untracked_of_answers hx htracked) hnoted, h⟩
        simp only [List.append_assoc, List.cons_append, List.nil_append]
      · exact absurd h Action.not_waits_pure

/-- Taking down a backing does not look at the tracker. -/
theorem looks_of_delete {u : String} {q : Request}
    (h : (Backing.delete s v).Waits .crowd w ms q) : ∀ m ∈ ms, m.turn.request ≠ .isTracked u := by
  obtain ⟨_, _, hcourse, -⟩ := h
  intro m hm hrequest
  obtain ⟨_, htakedown⟩ := hcourse.all_asked Backing.keeps_delete m hm
  have hwithin := htakedown.within
  rw [hrequest] at hwithin
  exact hwithin

/-- While claims are collected one after the other, only the claim itself brings looks at the
tracker for the volume that it is named for. -/
theorem evidence_of_collectAll {claims : List Object}
    (hnames : (claims.map (·.knownMetadata.name)).Nodup)
    (h : (collectAll s claims).Waits .crowd w ms (.call c)) (hc : c.looks = false) :
    ∃ claim ∈ claims, ∃ v evidence during earlier, ms = during ++ (evidence ++ earlier) ∧
      Evidence claim v evidence ∧
      (Backing.delete s v).Waits .crowd (w.along (evidence ++ earlier)) during (.call c) ∧
      ∀ m ∈ during ++ earlier, m.turn.request ≠ .isTracked v := by
  induction claims generalizing w ms with
  | nil => exact absurd h Action.not_waits_pure
  | cons claim claims ih =>
    rw [List.map_cons, List.nodup_cons] at hnames
    -- What is left after a claim was collected, whether that has failed or not.
    have hrest {found : Option String} {first later : List Moment}
        (hown : ∀ m ∈ first, Own claim m.turn.request)
        (h : Action.Waits .crowd (w.along first)
          (do return found.toList ++ (← collectAll s claims)) later (.call c)) :
        ∃ c' ∈ claim :: claims, ∃ v evidence during earlier,
          later ++ first = during ++ (evidence ++ earlier) ∧ Evidence c' v evidence ∧
          (Backing.delete s v).Waits .crowd (w.along (evidence ++ earlier)) during (.call c) ∧
          ∀ m ∈ during ++ earlier, m.turn.request ≠ .isTracked v := by
      rcases h.bind_cases with h | ⟨_, _, _, -, -, h⟩
      · obtain ⟨c', hc', v, evidence, during, earlier, rfl, hevidence, hwaits, hlooks⟩ :=
          ih hnames.2 h
        refine ⟨c', List.mem_cons_of_mem _ hc', v, evidence, during, earlier ++ first, ?_,
          hevidence, ?_, ?_⟩
        · simp only [List.append_assoc]
        · rwa [← List.append_assoc, Site.along_append]
        · rw [← List.append_assoc]
          intro m hm
          rcases List.mem_append.1 hm with hm | hm
          · exact hlooks m hm
          · intro hrequest
            have hname := hown m hm
            rw [hrequest] at hname
            obtain ⟨hsuspect⟩ := hevidence
            exact hnames.1 (List.mem_map.2 ⟨c', hc', hsuspect.name.trans hname.symm⟩)
      · exact absurd h Action.not_waits_pure
    rcases Action.Waits.bind_cases h with h | ⟨r, first, later, rfl, hruns, h⟩
    · obtain ⟨v, evidence, during, rfl, hevidence, hwaits⟩ := evidence_of_collect h.of_outcome hc
      refine ⟨claim, List.mem_cons_self, v, evidence, during, [], by rw [List.append_nil],
        hevidence, by rwa [List.append_nil], ?_⟩
      rw [List.append_nil]
      exact looks_of_delete hwaits
    · have hown : ∀ m ∈ first, Own claim m.turn.request := by
        obtain ⟨_, hcourse, -⟩ := hruns.of_outcome
        exact fun m hm => (hcourse.all_asked keeps_collect_own m hm).choose_spec
      cases r with
      | ok found => exact hrest hown h
      | error e =>
        rcases h.bind_cases with h | ⟨_, _, later, rfl, hlog, h⟩
        · nomatch h.of_log.2
        · obtain ⟨noted, rfl, hnoted⟩ := hlog.of_log
          have hown' : ∀ m ∈ noted :: first, Own claim m.turn.request := by
            refine List.forall_mem_cons.2 ⟨?_, hown⟩
            rw [hnoted]
            trivial
          rw [List.append_assoc]
          exact @hrest none _ _ hown' h

def isLook (v : String) (m : Moment) : Bool := m.turn.request = .isTracked v

theorem isLook_of_untracked {m : Moment} (h : m.Untracked v) : isLook v m := by
  rw [isLook, h.1]
  exact decide_eq_true rfl

theorem not_isLook_of_log {m : Moment} {text : String} (h : m.turn = ⟨.log text, .ok ()⟩) :
    isLook v m = false := by
  rw [isLook, h]
  exact decide_eq_false nofun

theorem countP_evidence {evidence : List Moment} (h : Evidence claim v evidence) :
    evidence.countP (isLook v) = 2 := by
  obtain ⟨hsuspect, hagain, hnoted⟩ := h
  obtain ⟨_, -, howner, -⟩ := hsuspect.owner
  rw [Moment.Served] at howner
  have hvolume := hsuspect.volume.1
  rw [Moment.Served] at hvolume
  simp [isLook, hnoted, hagain.1, hvolume, howner, hsuspect.first.1]

/-- Whatever a sweep asks beyond looks at claims and volumes, it asks on grounds, and it has looked
at the tracker for the volume no more often than these grounds tell. -/
theorem grounds_of_sweep (h : (sweep s).Waits .crowd w ms (.call c)) (hc : c.looks = false) :
    ∃ v before during, ms = during ++ before ∧ Grounds s v before ∧
      (Backing.delete s v).Waits .crowd (w.along before) during (.call c) ∧
      ms.countP (isLook v) = 2 := by
  rcases Action.Waits.bind_cases h with h | ⟨r, _, later, rfl, hruns, h⟩
  · have hkeeps : (Access.listAll .claim (some s.settings.serverNamespace) (some selector)).Keeps
        (fun q _ => ∀ c, q = .call c → c.looks) (fun _ _ => True) [] := by
      apply Access.keeps_listAll _ (fun _ => trivial) fun _ _ => trivial
      rintro _ ⟨⟩
      rfl
    have hlooks := h.of_outcome.asked hkeeps c rfl
    rw [hc] at hlooks
    cases hlooks
  · cases r with
    | ok claims =>
      obtain ⟨listing, rfl, hlisting, rfl⟩ := Access.listAll_of_runs hruns.of_outcome
      obtain ⟨claim, hclaim, v, evidence, during, earlier, rfl, hevidence, hwaits, hlooks⟩ :=
        evidence_of_collectAll nodup_names h hc
      refine ⟨v, evidence ++ (earlier ++ [listing]), during, by simp only [List.append_assoc],
        .intro hlisting hclaim (get?_of_listed hclaim rfl).2 hevidence, ?_, ?_⟩
      · rwa [← List.append_assoc, Site.along_append]
      · have hothers : (during ++ earlier).countP (isLook v) = 0 :=
          List.countP_eq_zero.2 fun m hm => by
            rw [isLook, decide_eq_true_iff]
            exact hlooks m hm
        have hlist : [listing].countP (isLook v) = 0 := by
          rw [Moment.Served] at hlisting
          simp [isLook, hlisting]
        rw [List.countP_append] at hothers
        rw [List.countP_append, List.countP_append, List.countP_append, countP_evidence hevidence]
        omega
    | error e =>
      rcases h.bind_cases with h | ⟨_, _, _, -, -, h⟩
      · nomatch h.of_log.2
      · exact absurd h Action.not_waits_pure

/-- The latest look among the grounds is followed only by a line in the log. -/
theorem Grounds.latest {before : List Moment} (h : Grounds s v before) :
    ∃ noted again earlier, before = noted :: again :: earlier ∧ isLook v noted = false ∧
      isLook v again ∧ 1 ≤ earlier.countP (isLook v) := by
  obtain ⟨-, -, -, hevidence⟩ := h
  have hcount := countP_evidence hevidence
  obtain ⟨-, hagain, hnoted⟩ := hevidence
  have hlook := isLook_of_untracked hagain
  have hlog := not_isLook_of_log (v := v) hnoted
  refine ⟨_, _, [_, _, _] ++ (_ ++ [_]), rfl, hlog, hlook, ?_⟩
  rw [List.countP_cons_of_neg (Bool.eq_false_iff.1 hlog), List.countP_cons_of_pos hlook] at hcount
  rw [List.countP_append, Nat.succ.inj hcount]
  exact Nat.le_add_right 1 _

theorem eq_of_append_cons {α : Type} {p : α → Bool} {l l' t t' : List α} {a a' : α}
    (hl : ∀ x ∈ l, p x = false) (hl' : ∀ x ∈ l', p x = false) (ha : p a) (ha' : p a')
    (h : l ++ a :: t = l' ++ a' :: t') : l = l' ∧ a :: t = a' :: t' := by
  have hfirst {l t : List α} {a : α} (hl : ∀ x ∈ l, p x = false) (ha : p a) :
      (l ++ a :: t).takeWhile (fun x => !p x) = l := by
    rw [List.takeWhile_append_of_pos fun x hx => by rw [hl x hx]; rfl,
      List.takeWhile_cons_of_neg (by rw [ha]; exact Bool.false_ne_true), List.append_nil]
  have hll : l = l' := by rw [← hfirst hl ha, h, hfirst hl' ha']
  subst hll
  exact ⟨rfl, List.append_cancel_left h⟩

/-- A run comes to grounds for taking down the backing of a volume only once. -/
theorem Grounds.unique {before before' during later : List Moment} (h : Grounds s v before)
    (h' : Grounds s v before') (hms : later ++ before' = during ++ before)
    (hcount : (during ++ before).countP (isLook v) = 2) : before' = before := by
  obtain ⟨noted, again, earlier, rfl, hnoted, hagain, hearlier⟩ := h.latest
  obtain ⟨noted', again', earlier', rfl, hnoted', hagain', hearlier'⟩ := h'.latest
  have hquiet {noted again : Moment} {during earlier : List Moment}
      (hcount : (during ++ noted :: again :: earlier).countP (isLook v) = 2)
      (hnoted : isLook v noted = false) (hagain : isLook v again = true)
      (hearlier : 1 ≤ earlier.countP (isLook v)) :
      ∀ m ∈ during ++ [noted], isLook v m = false := by
    rw [List.countP_append, List.countP_cons_of_neg (Bool.eq_false_iff.1 hnoted),
      List.countP_cons_of_pos hagain] at hcount
    have hnone : during.countP (isLook v) = 0 := by omega
    intro m hm
    rcases List.mem_append.1 hm with hm | hm
    · exact Bool.eq_false_iff.2 (List.countP_eq_zero.1 hnone m hm)
    · rwa [List.mem_singleton.1 hm]
  have hdone : later ++ [noted'] = during ++ [noted] ∧ again' :: earlier' = again :: earlier := by
    apply eq_of_append_cons (hquiet (hms ▸ hcount) hnoted' hagain' hearlier')
      (hquiet hcount hnoted hagain hearlier) hagain' hagain
    rw [List.append_assoc, List.append_assoc]
    exact hms
  rw [hdone.2, List.singleton_inj.1 (List.append_inj_right' hdone.1 rfl)]

/-- While others do anything and calls fail, a sweep replaces and deletes, and asks whatever else is
no look at claims or volumes, only while it takes down one backing after it has seen grounds for
that; and it has come to grounds for the same volume no other time. -/
theorem takedown_on_grounds (h : (sweep s).Waits .crowd w ms (.call c)) (hc : c.looks = false) :
    ∃ v before during, ms = during ++ before ∧ Grounds s v before ∧
      (Backing.delete s v).Waits .crowd (w.along before) during (.call c) ∧
      ∀ later before', ms = later ++ before' → Grounds s v before' → before' = before := by
  obtain ⟨v, before, during, rfl, hgrounds, hwaits, hcount⟩ := grounds_of_sweep h hc
  exact ⟨v, before, during, rfl, hgrounds, hwaits, fun later before' hms hgrounds' =>
    hgrounds.unique hgrounds' hms.symm hcount⟩

/-- A sweep that has failed to look up the volume `u` and goes on to take down the backing of `v`. -/
def reclaiming : List Moment × Prog (Except Fault (List String)) :=
  Prog.replay abandoned (sweep Backing.marking).run
    (List.replicate 7 .none ++ .refusal :: List.replicate 3 .none)

theorem waits_reclaiming : (sweep Backing.marking).Waits .crowd abandoned reclaiming.1
    (.call (.delete .service (some "nfs") (some "nfs-v"))) := by
  apply Prog.waits_replay _ (by decide +kernel)
  intro i hi
  apply Incident.among_crowd
  rcases List.mem_append.1 hi with hi | hi
  · rw [List.eq_of_mem_replicate hi]
    exact Incident.among_none
  rcases List.mem_cons.1 hi with rfl | hi
  · exact Incident.among_refusal
  · rw [List.eq_of_mem_replicate hi]
    exact Incident.among_none

theorem takedown_on_grounds_reclaiming :
    ∃ v before during, reclaiming.1 = during ++ before ∧ Grounds Backing.marking v before ∧
      (Backing.delete Backing.marking v).Waits .crowd (abandoned.along before) during
        (.call (.delete .service (some "nfs") (some "nfs-v"))) ∧
      ∀ later before', reclaiming.1 = later ++ before' → Grounds Backing.marking v before' →
        before' = before :=
  takedown_on_grounds waits_reclaiming (Call.looks_of_alters rfl)

end Collector

end VolumeExport
