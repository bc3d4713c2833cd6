import VolumeExport.Proofs.Collection
import VolumeExport.Proofs.Endurance

namespace VolumeExport

namespace Access

variable {r : Resource} {ns selector : Option String} {w : Site} {ms : List Moment}

theorem endures_listAll :
    (listAll r ns selector).Endures w (fun x later => ∃ list, later = list :: ms ∧
      list.after = w.along ms ∧
        (list.turn = ⟨.call (.list r ns selector), .ok ((w.along ms).cluster.list r ns selector)⟩ ∧
            x = .ok ((w.along ms).cluster.list r ns selector).items ∨
          list.turn.request = .call (.list r ns selector) ∧ list.Failed ∧ ∃ e, x = .error e)) ms := by
  apply Prog.endures_ask
  rintro _ v (⟨rfl, rfl⟩ | ⟨e, he, rfl, rfl⟩) -
  · exact Prog.endures_done ⟨_, rfl, rfl, .inl ⟨rfl, rfl⟩⟩
  · exact Prog.endures_done ⟨_, rfl, rfl, .inr ⟨rfl, ⟨_, e, rfl, he⟩, _, rfl⟩⟩

end Access

namespace Backing

variable {s : Setup} {volume : String} {w w' : Site}

theorem leads_leaving (hw : w.cluster.Sealed) :
    (delete s volume).Leads (fun _ w' => Leaving s volume w w' ∧ w'.tracker = w.tracker) w := by
  apply Prog.Leads.and
  · apply (leads_delete (.start hw)).mono
    intro r w' hr
    cases r with
    | ok => exact hr.1
    | error e => exact hr
  · have hkeeps : (delete s volume).Keeps _ _ [] := keeps_delete
    apply Prog.Keeps.leads hkeeps (I := fun w' => w'.tracker = w.tracker) rfl
    exact fun q past hq v x v' hv hx => (Site.tracker_of_within hx hq.within).trans hv

theorem Leaving.contains_volumeKey (h : Leaving s volume w w') (name : String) :
    w'.cluster.contains (volumeKey name) = w.cluster.contains (volumeKey name) := by
  by_cases hname : storage? w s.settings.serverNamespace volume = some name
  · rcases h.storage with hhooked | ⟨-, hunhooked⟩
    · exact Object.isSome_of_dressed (hhooked name hname)
    · exact congrArg Option.isSome (hunhooked name hname)
  · refine congrArg Option.isSome (h.others _ ⟨fun _ hr => volumeKey_ne hr, ?_⟩)
    rintro name' hname' hk
    cases hk
    exact hname hname'

end Backing

namespace Collector

open Backing (key)

variable {s : Setup} {w w' : Site} {claim : Object} {ms : List Moment}

theorem preserved_of_leaving {v : String} (h : Backing.Leaving s v w w')
    (htracker : w'.tracker = w.tracker) : Preserved s w w' where
  isSealed := h.isSealed
  tracker := htracker
  claims k hk hforeign := h.others k (aside_of_claim hk hforeign)
  volumes := h.contains_volumeKey

theorem strict_staleVolume? : (staleVolume? claim).Strict := by
  rw [staleVolume?]
  cases claim.knownMetadata.name with
  | none => exact Action.strict_fail
  | some name =>
    dsimp only
    cases (Name.volumeOf? name).filter (· ≠ "") with
    | none => exact Action.strict_pure
    | some volume =>
      apply Action.strict_quiet (q := .isTracked volume) (by rintro _ ⟨⟩)
      intro (tracked : Bool)
      apply Action.strict_ite Action.strict_pure
      cases owner? claim with
      | none => exact Action.Strict.bind Action.strict_log fun _ => Action.strict_pure
      | some owner =>
        apply Action.Strict.bind Access.strict_get
        intro found
        apply Action.strict_ite Action.strict_pure
        apply Action.Strict.bind Access.strict_get
        intro volume
        cases volume with
        | none => exact Action.strict_pure
        | some o => exact Action.strict_pure

theorem strict_collect : (collect s claim).Strict := by
  apply Action.Strict.bind strict_staleVolume?
  intro found
  cases found with
  | none => exact Action.strict_pure
  | some volume =>
    apply Action.strict_quiet (q := .isTracked volume) fun _ => nofun
    intro (tracked : Bool)
    apply Action.strict_ite Action.strict_pure
    apply Action.Strict.bind Action.strict_log
    exact fun _ => Action.Strict.bind Backing.strict_delete fun _ => Action.strict_pure

theorem leads_staleVolume? : (staleVolume? claim).Leads (fun _ w' => w' = w) w := by
  rw [staleVolume?]
  cases claim.knownMetadata.name with
  | none => exact Action.leads_fail rfl
  | some name =>
    dsimp only
    cases (Name.volumeOf? name).filter (· ≠ "") with
    | none => exact Action.leads_pure rfl
    | some volume =>
      apply Action.leads_ask
      rintro (tracked : Bool) _ ⟨-, rfl⟩
      apply Action.leads_ite (fun _ => Action.leads_pure rfl)
      intro _
      cases owner? claim with
      | none =>
        dsimp only
        apply Action.Leads.bind (M := fun _ w' => w' = _) (Action.leads_log fun _ => rfl)
        · exact fun _ _ hw => Action.leads_pure hw
        · exact fun _ _ hw => hw
      | some owner =>
        apply Action.Leads.bind Access.leads_get
        · rintro found _ ⟨-, rfl⟩
          apply Action.leads_ite (fun _ => Action.leads_pure rfl)
          intro _
          apply Action.Leads.bind Access.leads_get
          · rintro volume _ ⟨-, rfl⟩
            cases volume with
            | none => exact Action.leads_pure rfl
            | some o => exact Action.leads_pure rfl
          · exact fun _ _ hw => hw
        · exact fun _ _ hw => hw

/-- However calls fail while one claim is looked at, the others are seen as before. -/
theorem leads_collect (hw : w.cluster.Sealed) :
    (collect s claim).Leads (fun _ w' => Preserved s w w') w := by
  apply Action.Leads.bind leads_staleVolume?
  · rintro found _ rfl
    cases found with
    | none => exact Action.leads_pure (.refl hw)
    | some volume =>
      apply Action.leads_ask
      rintro (tracked : Bool) v ⟨-, rfl⟩
      apply Action.leads_ite (fun _ => Action.leads_pure (.refl hw))
      intro _
      apply Action.Leads.bind (M := fun _ w' => w' = v) (Action.leads_log fun _ => rfl)
      · rintro _ _ rfl
        apply Action.Leads.bind (Backing.leads_leaving hw)
        · exact fun _ _ h => Action.leads_pure (preserved_of_leaving h.1 h.2)
        · exact fun _ _ h => preserved_of_leaving h.1 h.2
      · rintro e _ rfl
        exact .refl hw
  · rintro e _ rfl
    exact .refl hw

/-- What a sweep did about one of the claims that it listed. -/
structure Visit where
  claim : Object
  moments : List Moment

def Visit.Failed (v : Visit) : Prop := ∃ m ∈ v.moments, m.Failed

/-- The visits of a sweep, one after the other, with all their moments and with the volumes that
they have collected. A visit that has ended with a fault is followed by a note of it. -/
inductive Tour (s : Setup) : Site → List Visit → List Moment → List String → Prop
  | rest (w : Site) : Tour s w [] [] []
  | done {w : Site} {claim ms found visits later vs} :
      (collect s claim).Runs .alone w ms (.ok found) →
      Tour s (w.along ms) visits later vs →
      Tour s w (⟨claim, ms⟩ :: visits) (later ++ ms) (found.toList ++ vs)
  | failed {w : Site} {claim ms e text note visits later vs} :
      (collect s claim).Runs .alone w ms (.error e) → note.turn.request = .log text →
      Tour s (w.along ms) visits later vs →
      Tour s w (⟨claim, ms⟩ :: visits) (later ++ note :: ms) vs

theorem endures_collectAll {claims : List Object} (hw : (w.along ms).cluster.Sealed) :
    (collectAll s claims).Endures w (fun r later => (w.along later).cluster.Sealed ∧
      ∃ new visits vs, later = new ++ ms ∧ r = .ok vs ∧ visits.map Visit.claim = claims ∧
        Tour s (w.along ms) visits new vs) ms := by
  induction claims generalizing ms with
  | nil => exact Prog.endures_done ⟨hw, [], [], [], rfl, rfl, rfl, .rest _⟩
  | cons claim claims ih =>
    -- Both ways in which a visit may end go on with the claims that are left.
    have hrest {later : List Moment} (found : Option String)
        (hsealed : (w.along later).cluster.Sealed) :
        Action.Endures w (fun r latest => (w.along latest).cluster.Sealed ∧
          ∃ new visits vs, latest = new ++ later ∧ r = .ok (found.toList ++ vs) ∧
            visits.map Visit.claim = claims ∧ Tour s (w.along later) visits new vs)
          (do return found.toList ++ (← collectAll s claims)) later := by
      apply Action.Endures.bind (ih hsealed)
      · rintro vs latest ⟨hsealed', new, visits, _, hlatest, ⟨⟩, hclaims, htour⟩
        exact Prog.endures_done ⟨hsealed', new, visits, vs, hlatest, rfl, hclaims, htour⟩
      · rintro _ _ ⟨-, _, _, _, -, ⟨⟩, -⟩
    apply Action.Endures.bind (Action.Endures.outcome (Prog.Endures.runs (strict_collect w ms hw)))
    · rintro r later ⟨_, ⟨⟩, ⟨hsealed, -⟩, new, rfl, hruns, -⟩
      cases r with
      | ok found =>
        apply (hrest found hsealed).mono
        rintro _ _ ⟨hsealed', more, visits, vs, rfl, rfl, rfl, htour⟩
        rw [Site.along_append] at htour
        refine ⟨hsealed', more ++ new, ⟨claim, new⟩ :: visits, _, ?_, rfl, rfl, .done hruns htour⟩
        rw [List.append_assoc]
      | error e =>
        apply Action.Endures.bind Action.endures_log
        · rintro _ _ ⟨-, note, rfl, hnote, hafter⟩
          have hsealed' : (w.along (note :: (new ++ ms))).cluster.Sealed := by
            rwa [Site.along, hafter]
          apply (hrest none hsealed').mono
          rintro _ _ ⟨hsealed'', more, visits, vs, rfl, rfl, rfl, htour⟩
          rw [Site.along, hafter, Site.along_append] at htour
          refine ⟨hsealed'', more ++ note :: new, ⟨claim, new⟩ :: visits, vs, ?_, rfl, rfl,
            .failed hruns hnote htour⟩
          rw [List.append_assoc, List.cons_append]
        · rintro _ _ ⟨⟨⟩, -⟩
    · rintro _ _ ⟨_, ⟨⟩, -⟩

/-- A claim at which a call has failed is not collected, and any other exactly if nothing needs its
backing. -/
theorem collect_of_runs {r : Except Fault (Option String)} (hw : w.cluster.Sealed)
    (h : (collect s claim).Runs .alone w ms r) (htimely : ∀ m ∈ ms, m.Timely) :
    ((⟨claim, ms⟩ : Visit).Failed → r.toOption.join = none) ∧
      (¬(⟨claim, ms⟩ : Visit).Failed → ∀ v, r.toOption.join = some v ↔ Unneeded w claim v) := by
  constructor
  · rintro ⟨m, hm, hfailed⟩
    cases r with
    | error e => rfl
    | ok found => exact absurd hfailed (strict_collect.not_failed hw h htimely m hm)
  · intro hfailed v
    have hserved : ∀ m ∈ ms, ¬m.Failed := fun m hm hm' => hfailed ⟨m, hm, hm'⟩
    rcases Prog.Ends.of_runs (ends_collect_iff hw) h htimely hserved with
      ⟨u, rfl, hu, -⟩ | ⟨hr, hnone, -⟩
    · constructor
      · rintro ⟨⟩
        exact hu
      · rintro ⟨hv, -⟩
        rw [Name.backing_inj.1 (Option.some.inj (hu.1.symm.trans hv))]
        rfl
    · refine iff_of_false ?_ (hnone v)
      cases r with
      | error e => rintro ⟨⟩
      | ok found =>
        rintro rfl
        exact hr v rfl

/-- Which of the claims that a sweep visits it collects. -/
structure Sorted (w : Site) (visits : List Visit) (vs : List String) : Prop where
  visited : ∀ v ∈ vs, ∃ visit ∈ visits, visit.claim.knownMetadata.name = some (Name.backing v)
  failed : ∀ visit ∈ visits, ∀ v, visit.claim.knownMetadata.name = some (Name.backing v) →
    visit.Failed → v ∉ vs
  collected : ∀ visit ∈ visits, ∀ v, visit.claim.knownMetadata.name = some (Name.backing v) →
    ¬visit.Failed → (v ∈ vs ↔ Unneeded w visit.claim v)

theorem Sorted.cons {visit : Visit} {visits : List Visit} {found : Option String}
    {vs : List String} (h : Sorted w visits vs)
    (hfresh : visit.claim.knownMetadata.name ∉ visits.map (·.claim.knownMetadata.name))
    (hfailed : visit.Failed → found = none)
    (hfound : ¬visit.Failed → ∀ v, found = some v ↔ Unneeded w visit.claim v) :
    Sorted w (visit :: visits) (found.toList ++ vs) := by
  have hown {v : String} (hv : found = some v) :
      visit.claim.knownMetadata.name = some (Name.backing v) := by
    by_cases hf : visit.Failed
    · rw [hfailed hf] at hv
      cases hv
    · exact ((hfound hf v).1 hv).1
  have hnew {v : String} (hv : visit.claim.knownMetadata.name = some (Name.backing v)) :
      v ∈ found.toList ++ vs ↔ found = some v := by
    rw [List.mem_append, Option.mem_toList]
    refine or_iff_left fun hmem => hfresh ?_
    obtain ⟨other, hother, hname⟩ := h.visited v hmem
    exact List.mem_map.2 ⟨other, hother, hname.trans hv.symm⟩
  have hold {other : Visit} (hother : other ∈ visits) {v : String}
      (hv : other.claim.knownMetadata.name = some (Name.backing v)) :
      v ∈ found.toList ++ vs ↔ v ∈ vs := by
    rw [List.mem_append, Option.mem_toList]
    refine or_iff_right fun hmem => hfresh ?_
    exact List.mem_map.2 ⟨other, hother, hv.trans (hown hmem).symm⟩
  refine ⟨fun v hv => ?_, List.forall_mem_cons.2 ⟨fun v hv hf => ?_, fun other ho v hv => ?_⟩,
    List.forall_mem_cons.2 ⟨fun v hv hf => ?_, fun other ho v hv => ?_⟩⟩
  · rcases List.mem_append.1 hv with hv | hv
    · exact ⟨visit, List.mem_cons_self, hown (Option.mem_toList.1 hv)⟩
    · obtain ⟨other, hother, hname⟩ := h.visited v hv
      exact ⟨other, List.mem_cons_of_mem _ hother, hname⟩
  · rw [hnew hv, hfailed hf]
    exact nofun
  · rw [hold ho hv]
    exact h.failed other ho v hv
  · rw [hnew hv]
    exact hfound hf v
  · rw [hold ho hv]
    exact h.collected other ho v hv

theorem Tour.sorted {w₀ : Site} {visits : List Visit} {vs : List String} (h : Tour s w visits ms vs)
    (hw : Preserved s w₀ w) (htimely : ∀ m ∈ ms, m.Timely)
    (hnames : (visits.map (·.claim.knownMetadata.name)).Nodup)
    (howners : ∀ visit ∈ visits, ∀ v owner,
      visit.claim.knownMetadata.name = some (Name.backing v) → owner? visit.claim = some owner →
        ∀ u, Key.of .claim owner.namespaceName owner.name ≠
          key s.settings.serverNamespace .claim u) : Sorted w₀ visits vs := by
  -- The tour starts where everything that tells whether a claim is needed is as at `w₀`, and so it
  -- is at each later visit, however the visits before it have ended.
  induction h with
  | rest => exact ⟨nofun, nofun, nofun⟩
  | @done w claim ms found visits later vs hruns _ ih =>
    obtain ⟨hfresh, hnames⟩ := List.nodup_cons.1 hnames
    obtain ⟨howner, howners⟩ := List.forall_mem_cons.1 howners
    obtain ⟨hlater, htimely⟩ := List.forall_mem_append.1 htimely
    have hnext := hw.trans ((leads_collect hw.isSealed).runs hruns)
    obtain ⟨hfailed, hfound⟩ := collect_of_runs hw.isSealed hruns htimely
    exact (ih hnext hlater hnames howners).cons hfresh hfailed fun hserved v =>
      (hfound hserved v).trans (hw.unneeded_iff (howner v))
  | @failed w claim ms e text note visits later vs hruns _ _ ih =>
    obtain ⟨hfresh, hnames⟩ := List.nodup_cons.1 hnames
    obtain ⟨howner, howners⟩ := List.forall_mem_cons.1 howners
    obtain ⟨hlater, htimely⟩ := List.forall_mem_append.1 htimely
    have hnext := hw.trans ((leads_collect hw.isSealed).runs hruns)
    obtain ⟨hfailed, hfound⟩ :=
      collect_of_runs hw.isSealed hruns (List.forall_mem_cons.1 htimely).2
    exact (ih hnext hlater hnames howners).cons hfresh hfailed fun hserved v =>
      (hfound hserved v).trans (hw.unneeded_iff (howner v))

abbrev listing (s : Setup) : Request :=
  .call (.list .claim (some s.settings.serverNamespace) (some selector))

/-- What a sweep has come to. Either its claims could not be listed, and it has noted that and done
nothing else. Or it has visited all of them, and those at which no call has failed are collected
exactly if they are when nothing fails. -/
inductive Survived (s : Setup) (w : Site) : List String → List Moment → Prop
  | unlisted {list note text} : list.turn.request = listing s → list.Failed →
      note.turn.request = .log text → note.after = w → Survived s w [] [note, list]
  | listed {list visits later vs} : list.turn = ⟨listing s, .ok (page s w)⟩ →
      visits.map Visit.claim = (page s w).items → Tour s w visits later vs → Sorted w visits vs →
      (sweep s).Yields (fun us _ => ∀ visit ∈ visits, ¬visit.Failed → ∀ v,
        visit.claim.knownMetadata.name = some (Name.backing v) → (v ∈ vs ↔ v ∈ us)) w →
      Survived s w vs (later ++ [list])

/-- A whole tour over the listed claims. -/
theorem Tour.survived {list : Moment} {visits : List Visit} {vs : List String}
    (h : Tour s w visits ms vs) (hw : w.cluster.Sealed) (hunchained : Unchained s w)
    (hlist : list.turn = ⟨listing s, .ok (page s w)⟩)
    (hclaims : visits.map Visit.claim = (page s w).items) (htimely : ∀ m ∈ ms, m.Timely) :
    Survived s w vs (ms ++ [list]) := by
  have hmem {visit : Visit} (hvisit : visit ∈ visits) : visit.claim ∈ (page s w).items :=
    hclaims ▸ List.mem_map_of_mem hvisit
  have hsorted : Sorted w visits vs := by
    apply h.sorted (.refl hw) htimely
    · have hnames : ((page s w).items.map (·.knownMetadata.name)).Nodup := nodup_names
      rwa [← hclaims, List.map_map] at hnames
    · intro visit hvisit v owner hname howner
      obtain ⟨hget, hmarked⟩ := get?_of_listed (hmem hvisit) rfl
      rw [hname] at hget
      exact hunchained v visit.claim owner hget hmarked howner
  refine .listed hlist hclaims h hsorted ((yields_orphans hw hunchained).mono ?_)
  rintro us _ ⟨-, -, hus⟩ visit hvisit hfailed v hname
  rw [hsorted.collected visit hvisit v hname hfailed, hus,
    unneeded_iff_of_listed (hmem hvisit) hname]

/-- However calls fail, a sweep comes to an end, and without a fault. -/
theorem endures_sweep (hw : (w.along ms).cluster.Sealed) :
    (sweep s).Endures w (fun r later => (w.along later).cluster.Sealed ∧ ∃ new vs,
      later = new ++ ms ∧ r = .ok vs ∧
        (Unchained s (w.along ms) → Survived s (w.along ms) vs new)) ms := by
  apply Action.Endures.bind (Action.Endures.outcome Access.endures_listAll)
  · rintro _ _ ⟨r, ⟨⟩, list, rfl, hafter, hlist⟩
    have hsealed : (w.along (list :: ms)).cluster.Sealed := by rwa [Site.along, hafter]
    rcases hlist with ⟨hlist, rfl⟩ | ⟨hrequest, hfailed, e, rfl⟩
    · apply (Prog.Endures.runs (endures_collectAll hsealed)).mono
      rintro _ _ ⟨⟨hsealed', new, visits, vs, rfl, rfl, hclaims, htour⟩, new', hnew, -, htimely⟩
      obtain rfl := List.append_cancel_right hnew
      rw [Site.along, hafter] at htour
      refine ⟨hsealed', new ++ [list], vs, ?_, rfl, fun hunchained => ?_⟩
      · rw [List.append_assoc, List.singleton_append]
      · exact htour.survived hw hunchained hlist hclaims htimely
    · apply Action.Endures.bind Action.endures_log
      · rintro _ _ ⟨-, note, rfl, hnote, hnoted⟩
        refine Prog.endures_done ⟨?_, [note, list], [], rfl, rfl, fun _ => ?_⟩
        · rwa [Site.along, hnoted]
        · exact .unlisted hrequest hfailed hnote (hnoted.trans hafter)
      · rintro _ _ ⟨⟨⟩, -⟩
  · rintro _ _ ⟨_, ⟨⟩, -⟩

/-- One round of the collector, up to its wait: it tells that it sweeps, a sweep ends with a list,
and it tells how many backings are gone. -/
inductive Round (s : Setup) (w : Site) (past : List Moment) : List Moment → Prop
  | intro {first last new vs} : first.turn.request = .log greeting →
      (sweep s).run.Runs .alone (w.along (first :: past)) new (.ok vs) →
      last.turn.request = .log s!"Garbage collection completed, removed {vs.length}" →
      Round s w past (last :: new ++ first :: past)

/-- The rounds of the collector: one more than waits have timed out. -/
inductive Rounds (s : Setup) (w : Site) : Nat → List Moment → Prop
  | first {ms : List Moment} : Round s w [] ms → Rounds s w 0 ms
  | again {timedOut wait past ms} : Rounds s w timedOut past →
      wait.turn = ⟨.wait s.settings.sweepInterval, false⟩ → Round s w (wait :: past) ms →
      Rounds s w (timedOut + 1) ms

/-- The collector waits between its rounds, to stop at the signal or to begin anew; or it has been
stopped. -/
inductive Paused (s : Setup) (w : Site) : Prog (Except Fault Unit) → List Moment → Prop
  | waiting {p k timedOut ms} : p.head = .ask (.wait s.settings.sweepInterval) k →
      (k true).head = .done (.ok ()) → (k false).head = (serve s).run.head →
      Rounds s w timedOut ms → Paused s w p ms
  | stopped {p timedOut wait ms} : p.head = .done (.ok ()) →
      wait.turn = ⟨.wait s.settings.sweepInterval, true⟩ → Rounds s w timedOut ms →
      Paused s w p (wait :: ms)

theorem Paused.of_head (p p' : Prog (Except Fault Unit)) (ms : List Moment)
    (hhead : p'.head = p.head) (h : Paused s w p ms) : Paused s w p' ms := by
  cases h with
  | waiting hp hstop hagain hrounds => exact .waiting (hhead.trans hp) hstop hagain hrounds
  | stopped hp hwait hrounds => exact .stopped (hhead.trans hp) hwait hrounds

theorem reaches_serve {past : List Moment} (hw : (w.along past).cluster.Sealed)
    (hround : ∀ ms, Round s w past ms → ∃ timedOut, Rounds s w timedOut ms) :
    (serve s).run.Reaches w (Paused s w) past := by
  refine .ask rfl fun (x : Except _ _) v hx ht => ?_
  obtain rfl : v = w.along past := hx
  let greeted : Moment := ⟨w.along past, ⟨.log greeting, x⟩, w.along past⟩
  -- A round is a sweep, then what is told and waited for, and then the loop; the sweep comes to its
  -- end whatever is put behind it.
  change (Prog.bind (Prog.bind (Prog.bind (sweep s).run _) _) _).Reaches w _ (greeted :: past)
  rw [Prog.bind_assoc, Prog.bind_assoc]
  have hsweep : (sweep s).Endures w _ (greeted :: past) := endures_sweep hw
  apply Prog.Endures.bind_reaches Paused.of_head (Prog.Endures.runs hsweep)
  rintro _ _ ⟨⟨-, -, vs, -, rfl, -⟩, new, rfl, hruns, -⟩
  refine .ask rfl fun (x : Except _ _) v hx ht => ?_
  cases x with
  | error e => cases ht
  | ok =>
    have hdone : Round s w past (⟨w.along (new ++ greeted :: past), ⟨.log _, .ok ()⟩, v⟩ :: new ++
        greeted :: past) := .intro rfl hruns rfl
    obtain ⟨timedOut, hrounds⟩ := hround _ hdone
    exact .here (.waiting rfl rfl rfl hrounds)

/-- Wherever the collector has come to, it gets to its next wait. -/
theorem reaches_of_course {rest : Prog (Except Fault Unit)} (hw : w.cluster.Sealed)
    (h : (serve s).run.Course .alone w ms rest) (htimely : ∀ m ∈ ms, m.Timely) :
    (w.along ms).cluster.Sealed ∧ rest.Reaches w (Paused s w) ms := by
  induction h with
  | start => exact ⟨hw, reaches_serve hw fun ms hround => ⟨0, .first hround⟩⟩
  | @answer ms rest q k v x v' _ hhead hmoves hx ih =>
    obtain ⟨ht, htimely⟩ := List.forall_mem_cons.1 htimely
    obtain ⟨hsealed, hreaches⟩ := ih htimely
    obtain rfl : v = w.along ms := hmoves
    have hsealed' : v'.cluster.Sealed := hsealed.renews (Site.renews_of_answers hx)
    refine ⟨hsealed', ?_⟩
    cases hreaches with
    | ask hp hk =>
      cases hp.symm.trans hhead
      exact hk x v' hx ht
    -- The answer is one to a wait, and if that has timed out, the loop begins anew.
    | here hpaused =>
      cases hpaused with
      | stopped hp => cases hp.symm.trans hhead
      | waiting hp hstop hagain hrounds =>
        cases hp.symm.trans hhead
        cases x with
        | true => exact .here (.stopped hstop rfl hrounds)
        | false =>
          apply Prog.Reaches.of_head Paused.of_head _ hagain
          exact reaches_serve hsealed' fun ms hround => ⟨_, .again hrounds rfl hround⟩

/-- However calls fail, a sweep ends with a list, and a failure at one claim changes nothing for the
others. So the collector gets from wait to wait until it is stopped, with one sweep at first and one
for each wait that has timed out. -/
theorem sweeps_survive (hw : w.cluster.Sealed) (hunchained : Unchained s w) :
    (sweep s).Endures w (fun r ms => ∃ vs, r = .ok vs ∧ Survived s w vs ms) [] ∧
      ∀ ms rest, (serve s).run.Course .alone w ms rest → (∀ m ∈ ms, m.Timely) →
        rest.Reaches w (Paused s w) ms := by
  have hsweep : (sweep s).Endures w _ [] := endures_sweep hw
  refine ⟨hsweep.mono ?_, fun ms rest hcourse htimely =>
    (reaches_of_course hw hcourse htimely).2⟩
  rintro _ _ ⟨-, new, vs, rfl, rfl, hsurvived⟩
  refine ⟨vs, rfl, ?_⟩
  rw [List.append_nil]
  exact hsurvived hunchained

theorem sweeps_survive_abandoned :
    Unchained Backing.marking abandoned ∧
      (sweep Backing.marking).Endures abandoned
        (fun r ms => ∃ vs, r = .ok vs ∧ Survived Backing.marking abandoned vs ms) [] ∧
      ∀ ms rest, (serve Backing.marking).run.Course .alone abandoned ms rest →
        (∀ m ∈ ms, m.Timely) → rest.Reaches abandoned (Paused Backing.marking abandoned) ms := by
  have hunchained : Unchained Backing.marking abandoned :=
    unchained_of_namespace (by decide +kernel)
  exact ⟨hunchained, sweeps_survive (Site.sealed_holding _) hunchained⟩

/-- The owner of the first of two claims cannot be read. -/
example : (Prog.replay abandoned (sweep Backing.marking).run
    (List.replicate 40 .none ++ [.refusal, .none, .none])).2.result? = some (.ok ["v"]) := by
  decide +kernel

end Collector

end VolumeExport
