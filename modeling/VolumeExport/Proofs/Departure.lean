import VolumeExport.Proofs.Backing.Advance
import VolumeExport.Proofs.Backing.Retreat
import VolumeExport.Proofs.Provisioning
import VolumeExport.Proofs.Waiting

namespace VolumeExport

open Hook (Target Event)

def Object.atVersion (o : Object) (version : Option String) : Object :=
  { o with metadata := o.metadata.map fun m => { m with resourceVersion := version } }

/-- An object as the hooks for a target leave it, at a time that was told in some moments, but for
its version. -/
def Object.Marked (hooks : Hooks) (target : Target) (event : Event) (ms : List Moment)
    (o o' : Object) : Prop :=
  ∃ now body version, hooks.apply target event now target.kind o = .ok body ∧
    o' = body.atVersion version ∧ (hooks.covers target event → ∃ m ∈ ms, m.turn = ⟨.now, now⟩)

namespace Object

variable {hooks : Hooks} {target : Target} {event : Event} {ms ms' : List Moment} {o o' : Object}

theorem eq_atVersion (o : Object) : o = o.atVersion o.knownMetadata.resourceVersion := by
  obtain ⟨metadata, rest⟩ := o
  cases metadata with
  | none => rfl
  | some m => rfl

theorem stamped_eq_atVersion (huid : o.knownMetadata.uid.isSome) (write : Nat) :
    Cluster.stamped write o = o.atVersion (some (toString write)) := by
  obtain ⟨uid, hm⟩ := Option.isSome_iff_exists.1 huid
  rw [Cluster.stamped, modifyMetadata, atVersion, metadata_of_uid huid]
  simp [hm]

theorem Marked.mono (h : Marked hooks target event ms o o') (hms : ∀ m ∈ ms, m ∈ ms') :
    Marked hooks target event ms' o o' := by
  obtain ⟨now, body, version, hbody, ho', htold⟩ := h
  refine ⟨now, body, version, hbody, ho', fun hcovers => ?_⟩
  obtain ⟨m, hm, hnow⟩ := htold hcovers
  exact ⟨m, hms m hm, hnow⟩

theorem marked_of_not_covers (hcovers : hooks.covers target event = false) (o : Object) :
    Marked hooks target event ms o o := by
  refine ⟨.ok .first, o, o.knownMetadata.resourceVersion, ?_, o.eq_atVersion, fun h => ?_⟩
  · rw [Hooks.apply.eq_def, hcovers]
    rfl
  · rw [hcovers] at h
    cases h

theorem marked_self (hcovers : hooks.covers target event = false) (found : Option Object) :
    Option.Rel (Marked hooks target event ms) found found := by
  cases found with
  | none => exact .none
  | some o => exact .some (marked_of_not_covers hcovers o)

theorem marked_mono {found found' : Option Object}
    (h : Option.Rel (Marked hooks target event ms) found found') (hms : ∀ m ∈ ms, m ∈ ms') :
    Option.Rel (Marked hooks target event ms') found found' := by
  cases h with
  | none => exact .none
  | some h => exact .some (h.mono hms)

end Object

theorem Backing.apply_of_hooked {hooks : Hooks} {target : Target} {event : Event} {r : Resource}
    {now : Except Instant.Fault Instant} {o body : Object} (hr : r.kind = target.kind)
    (h : hooked hooks target event r now o = .ok body) :
    hooks.apply target event now target.kind o = .ok body := by
  rw [hooked, hr] at h
  cases hbody : hooks.apply target event now target.kind o with
  | ok b =>
    rw [hbody] at h
    cases h
    rfl
  | error e =>
    rw [hbody] at h
    cases h

namespace Access

variable {hooks : Hooks} {target : Target} {event : Event} {r : Resource}
  {ns name : Option String} {w : Site} {ms : List Moment} {o : Object}

theorem marked_of_modifyRound {n : Nat} {found : Nat ⊕ Modified} (hr : r.kind = target.kind)
    (huid : o.knownMetadata.uid.isSome) (hget : w.cluster.store.get? (.of r ns name) = some o)
    (h : (modifyRound r ns name (Backing.hooked hooks target event r) n (.ok o)).Runs .alone w ms
      (.ok found)) :
    (∃ m, found = .inr m) ∧ ∃ o', (w.along ms).cluster.store.get? (.of r ns name) = some o' ∧
      o.Marked hooks target event ms o' := by
  obtain ⟨v, now, v', later, rfl, hv, hnow, hlater⟩ := Action.Runs.of_ask h
  obtain rfl : w = v := hv.symm
  obtain rfl : w = v' := hnow.symm
  have htold (ms : List Moment) : ∃ m ∈ ms ++ [⟨w, ⟨.now, now⟩, w⟩], m.turn = ⟨.now, now⟩ :=
    ⟨_, List.mem_append_right _ (List.mem_singleton_self _), rfl⟩
  rw [Site.along_append]
  cases hbody : Backing.hooked hooks target event r now o with
  | error e =>
    rw [hbody] at hlater
    nomatch (Prog.Runs.eq_of_done hlater).2
  | ok body =>
    rw [hbody] at hlater
    have happly := Backing.apply_of_hooked hr hbody
    rcases Action.Runs.ite_cases hlater with ⟨rfl, hdone⟩ | ⟨-, hreplace⟩
    · obtain ⟨rfl, rfl⟩ := Action.Runs.eq_of_pure hdone
      exact ⟨⟨_, rfl⟩, body, hget, now, body, _, happly, body.eq_atVersion, fun _ => htold []⟩
    · obtain ⟨u, x, u', last, rfl, hu, hx, hlast⟩ := Action.Runs.of_ask hreplace
      obtain rfl : w = u := hu.symm
      have hremarks := Backing.hooked_remarks hbody
      rcases hx with ⟨rfl, rfl⟩ | ⟨e, he, rfl, rfl⟩
      · obtain ⟨⟨written, hwritten⟩, -, hstored⟩ := Site.only_of_replace hget hremarks
        rw [hwritten] at hlast
        obtain ⟨rfl, rfl⟩ := Action.Runs.eq_of_pure hlast
        have huid' : body.knownMetadata.uid.isSome := by
          obtain ⟨-, _, _, hm⟩ := hremarks
          rw [hm]
          exact huid
        exact ⟨⟨_, rfl⟩, _, hstored, now, body, _, happly, Object.stamped_eq_atVersion huid' _,
          fun _ => htold _⟩
      · simp only [he.not_isNotFound, he.not_isConflict, Bool.false_eq_true, if_false] at hlast
        exact absurd hlast Action.Runs.not_fail

theorem respond_read (r : Resource) (ns name : Option String) (w : Site) :
    (w.cluster.respond (.read r ns name)).1 = w.cluster.read (.of r ns name) ∧
      w.after (.read r ns name) = w :=
  ⟨rfl, Site.eq_of_cluster rfl rfl⟩

/-- What was changed by hooks is stored as they leave it. -/
theorem marked_of_modify {m : Modified} (hr : r.kind = target.kind) (hw : w.cluster.Sealed)
    (h : (modify r ns name (Backing.hooked hooks target event r)).Runs .alone w ms (.ok m)) :
    Option.Rel (Object.Marked hooks target event ms) (w.cluster.store.get? (.of r ns name))
      ((w.along ms).cluster.store.get? (.of r ns name)) := by
  have hdressed := ((leads_modify_hooked hw).runs h).2.dressed
  cases hget : w.cluster.store.get? (.of r ns name) with
  | none =>
    rw [hget] at hdressed
    generalize (w.along ms).cluster.store.get? (.of r ns name) = found at hdressed ⊢
    cases hdressed
    exact .none
  | some o =>
    obtain ⟨_, -, hstamped⟩ := hw _ o hget
    obtain ⟨v, x, v', first, later, found, rfl, hv, hx, hfirst, hlater⟩ :=
      Action.Runs.of_rounds h
    obtain rfl : w = v := hv.symm
    rcases hx with ⟨rfl, rfl⟩ | ⟨e, he, rfl, rfl⟩
    · obtain ⟨hread, hstays⟩ := respond_read r ns name w
      rw [hread, hstays, Cluster.read, hget] at hfirst
      rcases hlater with ⟨n, rfl, -⟩ | ⟨rfl, rfl⟩
      · obtain ⟨⟨m, hm⟩, -⟩ := marked_of_modifyRound hr hstamped.uid hget hfirst
        cases hm
      · obtain ⟨-, o', ho', hmarked⟩ := marked_of_modifyRound hr hstamped.uid hget hfirst
        rw [List.nil_append, Site.along_append, Site.along, hstays, ho']
        exact .some (hmarked.mono fun m hm => List.mem_append_left _ hm)
    · simp only [modifyRound, he.not_isNotFound, Bool.false_eq_true, if_false] at hfirst
      obtain ⟨rfl, rfl⟩ := Prog.Runs.eq_of_done hfirst
      rcases hlater with ⟨n, hmore, -⟩ | ⟨hfound, -⟩
      · cases hmore
      · cases hfound

inductive Amends (r : Resource) (ns name : Option String) : Call → Prop
  | read : Amends r ns name (.read r ns name)
  | replace {body : Object} : Amends r ns name (.replace r ns name body)

variable {c : Call}

theorem amends_of_modifyRound {change : Except Instant.Fault Instant → Object → Except Fault Object}
    {n : Nat} {x : Except ApiError Object}
    (h : (modifyRound r ns name change n x).Waits .alone w ms (.call c)) :
    w.along ms = w ∧ Amends r ns name c := by
  cases x with
  | error e =>
    rcases Action.Waits.ite_cases h with ⟨-, h⟩ | ⟨-, h⟩
    · exact absurd h Action.not_waits_pure
    · exact absurd h Prog.not_waits_done
  | ok o =>
    rcases Action.Waits.of_ask h with ⟨-, hc⟩ | ⟨v, now, v', later, rfl, hv, hnow, hlater⟩
    · cases hc
    obtain rfl : w = v := hv.symm
    obtain rfl : w = v' := hnow.symm
    cases hbody : change now o with
    | error e =>
      rw [hbody] at hlater
      exact absurd hlater Prog.not_waits_done
    | ok body =>
      rw [hbody] at hlater
      rcases Action.Waits.ite_cases hlater with ⟨-, hdone⟩ | ⟨-, hreplace⟩
      · exact absurd hdone Action.not_waits_pure
      rcases Action.Waits.of_ask hreplace with ⟨rfl, hc⟩ | ⟨_, x, _, _, rfl, -, -, hlast⟩
      · cases hc
        exact ⟨rfl, .replace⟩
      · cases x with
        | ok written => exact absurd hlast Action.not_waits_pure
        | error e =>
          rcases Action.Waits.ite_cases hlast with ⟨-, hlast⟩ | ⟨-, hlast⟩
          · exact absurd hlast Action.not_waits_pure
          rcases Action.Waits.ite_cases hlast with ⟨-, hlast⟩ | ⟨-, hlast⟩
          · exact absurd hlast Action.not_waits_pure
          · exact absurd hlast Prog.not_waits_done

/-- A change by hooks has written nothing while it waits. -/
theorem amends_of_modify (hr : r.kind = target.kind) (hw : w.cluster.Sealed)
    (h : (modify r ns name (Backing.hooked hooks target event r)).Waits .alone w ms (.call c)) :
    w.along ms = w ∧ Amends r ns name c := by
  rcases Action.Waits.of_rounds h with ⟨rfl, hc⟩ | ⟨v, x, v', later, rfl, hv, hx, hlater⟩
  · cases hc
    exact ⟨rfl, .read⟩
  obtain rfl : w = v := hv.symm
  have hstays : v' = w := by
    rcases hx with ⟨-, rfl⟩ | ⟨_, -, -, rfl⟩
    · exact (respond_read _ _ _ w).2
    · rfl
  subst hstays
  rw [Site.along_append]
  rcases hlater with hround | ⟨n, first, rest, rfl, hagain, -⟩
  · exact amends_of_modifyRound hround
  · rcases hx with ⟨rfl, -⟩ | ⟨e, he, rfl, -⟩
    · rw [(respond_read _ _ _ v').1, Cluster.read] at hagain
      cases hget : v'.cluster.store.get? (.of r ns name) with
      | none =>
        rw [hget] at hagain
        have hnone := (Action.Runs.eq_of_pure hagain).2
        cases hnone
      | some o =>
        rw [hget] at hagain
        obtain ⟨_, -, hstamped⟩ := hw _ o hget
        obtain ⟨⟨m, hm⟩, -⟩ := marked_of_modifyRound hr hstamped.uid hget hagain
        cases hm
    · simp only [modifyRound, he.not_isNotFound, Bool.false_eq_true, if_false] at hagain
      exact absurd hagain Action.Runs.not_fail

theorem call_of_get (h : (get r ns name).Waits .alone w ms (.call c)) :
    ms = [] ∧ c = .read r ns name := by
  rcases Action.Waits.of_ask h with ⟨rfl, hc⟩ | ⟨_, x, _, _, -, -, -, h⟩
  · cases hc
    exact ⟨rfl, rfl⟩
  · cases x with
    | ok o => exact absurd h Action.not_waits_pure
    | error e =>
      rcases Action.Waits.ite_cases h with ⟨-, h⟩ | ⟨-, h⟩
      · exact absurd h Action.not_waits_pure
      · exact absurd h Prog.not_waits_done

theorem call_of_delete (h : (delete r ns name).Waits .alone w ms (.call c)) :
    ms = [] ∧ c = .delete r ns name := by
  rcases Action.Waits.of_ask h with ⟨rfl, hc⟩ | ⟨_, x, _, _, -, -, -, h⟩
  · cases hc
    exact ⟨rfl, rfl⟩
  · cases x with
    | ok => exact absurd h Action.not_waits_pure
    | error e =>
      rcases Action.Waits.ite_cases h with ⟨-, h⟩ | ⟨-, h⟩
      · exact absurd h Action.not_waits_pure
      · exact absurd h Prog.not_waits_done

end Access

namespace Backing

variable {s : Setup} {volume : String} {w u : Site} {ms : List Moment} {c : Call}

/-- When a part is to be deleted, what was found before is stored as its hooks leave it, and nothing
else has changed. -/
structure Departs (s : Setup) (r : Resource) (volume : String) (u : Site) (ms : List Moment)
    (c : Call) : Prop where
  others : ∀ l, l ≠ key s.settings.serverNamespace r volume →
    (u.along ms).cluster.store.get? l = u.cluster.store.get? l
  marked : ∀ t n m, c = .delete t n m → t = r ∧ n = some s.settings.serverNamespace ∧
    m = some (Name.backing volume) ∧ ∃ o o',
      u.cluster.store.get? (key s.settings.serverNamespace r volume) = some o ∧
      (u.along ms).cluster.store.get? (key s.settings.serverNamespace r volume) = some o' ∧
      o.Marked s.hooks (partTarget r) .delete ms o'

theorem departs_of_amends {r : Resource} {ns name : Option String} (hstays : u.along ms = u)
    (h : Access.Amends r ns name c) : Departs s r volume u ms c := by
  refine ⟨fun l _ => by rw [hstays], ?_⟩
  rintro t n m rfl
  cases h

theorem call_of_removeFound {r : Resource} {ns name : Option String} {text : String}
    (h : Action.Waits .alone u (do if ← Access.delete r ns name then Action.log text) ms
      (.call c)) :
    ms = [] ∧ c = .delete r ns name := by
  rcases Action.Waits.bind_cases h with h | ⟨deleted, _, _, -, -, h⟩
  · exact Access.call_of_delete h
  · rcases Action.Waits.ite_cases h with ⟨-, h⟩ | ⟨-, h⟩
    · nomatch h.of_log.2
    · exact absurd h Action.not_waits_pure

theorem departs_of_remove {r : Resource} (hr : r.isNamespaced) (hu : u.cluster.Sealed)
    (h : (remove s (partTarget r) r (Name.backing volume)).Waits .alone u ms (.call c)) :
    Departs s r volume u ms c := by
  have hkey : Key.of r (some s.settings.serverNamespace) (some (Name.backing volume)) =
      key s.settings.serverNamespace r volume := of_backing hr
  rcases Action.Waits.ite_cases h with ⟨hcovers, h⟩ | ⟨hcovers, h⟩
  · rcases Action.Waits.bind_cases h with hmodify | ⟨m, first, later, rfl, hruns, hdelete⟩
    · obtain ⟨hstays, hamends⟩ := Access.amends_of_modify (kind_partTarget hr) hu hmodify
      exact departs_of_amends hstays hamends
    · obtain ⟨hsome, hdresses⟩ := (Access.leads_modify_hooked hu).runs hruns
      have hmarked := Access.marked_of_modify (kind_partTarget hr) hu hruns
      obtain ⟨found, n⟩ := m
      cases found with
      | none => exact absurd hdelete Action.not_waits_pure
      | some _ =>
        obtain ⟨rfl, rfl⟩ := call_of_removeFound hdelete
        rw [hkey] at hsome hmarked hdresses
        refine ⟨hdresses.only.others, ?_⟩
        rintro _ _ _ ⟨⟩
        refine ⟨rfl, rfl, rfl, ?_⟩
        rw [List.nil_append]
        obtain ⟨o', ho'⟩ := Option.isSome_iff_exists.1 hsome.symm
        rw [ho'] at hmarked ⊢
        generalize u.cluster.store.get? (key s.settings.serverNamespace r volume) = found
          at hmarked ⊢
        cases hmarked with
        | some hmarked => exact ⟨_, o', rfl, rfl, hmarked⟩
  · rcases Action.Waits.bind_cases h with hget | ⟨found, first, later, rfl, hruns, hdelete⟩
    · obtain ⟨rfl, rfl⟩ := Access.call_of_get hget
      exact departs_of_amends rfl .read
    · obtain ⟨hfound, hstays⟩ := Access.leads_get.runs hruns
      cases found with
      | none => exact absurd hdelete Action.not_waits_pure
      | some o =>
        obtain ⟨rfl, rfl⟩ := call_of_removeFound hdelete
        rw [List.nil_append]
        refine ⟨fun l _ => by rw [hstays], ?_⟩
        rintro _ _ _ ⟨⟩
        rw [hkey] at hfound
        refine ⟨rfl, rfl, rfl, o, o, hfound.symm, ?_, ?_⟩
        · rw [hstays, ← hfound]
        · exact Object.marked_of_not_covers (Bool.eq_false_iff.2 hcovers) o

theorem amends_of_hookVolume {event : Event} {claim : Object} (hu : u.cluster.Sealed)
    (h : (hookVolume s event claim).Waits .alone u ms (.call c)) :
    u.along ms = u ∧ ∃ disk, Access.Amends .volume none disk c := by
  rcases Action.Waits.ite_cases h with ⟨-, h⟩ | ⟨-, h⟩
  · cases hbound : (claim.text? ["spec", "volumeName"]).filter (· ≠ "") with
    | none =>
      rw [hbound] at h
      exact absurd h Action.not_waits_pure
    | some disk =>
      rw [hbound] at h
      rcases Action.Waits.bind_cases h with hmodify | ⟨_, _, _, -, -, hdone⟩
      · obtain ⟨hstays, hamends⟩ := Access.amends_of_modify rfl hu hmodify
        exact ⟨hstays, _, hamends⟩
      · exact absurd hdone Action.not_waits_pure
  · exact absurd h Action.not_waits_pure

theorem marked_of_hookVolume {event : Event} {claim : Object} {disk : String}
    (hu : u.cluster.Sealed) (hdisk : bound? claim = some disk)
    (h : (hookVolume s event claim).Runs .alone u ms (.ok ())) :
    Option.Rel (Object.Marked s.hooks .backendVolume event ms)
      (u.cluster.store.get? (volumeKey disk))
      ((u.along ms).cluster.store.get? (volumeKey disk)) := by
  rcases Action.Runs.ite_cases h with ⟨-, h⟩ | ⟨hcovers, h⟩
  · rw [bound?] at hdisk
    rw [hdisk] at h
    obtain ⟨m, first, later, rfl, hruns, hdone⟩ := Action.Runs.bind_cases h
    obtain ⟨rfl, -⟩ := Action.Runs.eq_of_pure hdone
    exact Access.marked_of_modify rfl hu hruns
  · obtain ⟨rfl, -⟩ := Action.Runs.eq_of_pure h
    exact Object.marked_self (Bool.eq_false_iff.2 hcovers) _

def hookLast (s : Setup) (volume : String) : Action Unit := do
  match ← Access.get .claim (some s.settings.serverNamespace) (some (Name.backing volume)) with
  | some claim => hookVolume s .delete claim
  | none => return

theorem amends_of_hookLast (hu : u.cluster.Sealed)
    (h : (hookLast s volume).Waits .alone u ms (.call c)) :
    u.along ms = u ∧ ∃ r ns name, Access.Amends r ns name c := by
  rcases Action.Waits.bind_cases h with hget | ⟨found, first, later, rfl, hruns, hlater⟩
  · obtain ⟨rfl, rfl⟩ := Access.call_of_get hget
    exact ⟨rfl, _, _, _, .read⟩
  · obtain ⟨-, hstays⟩ := Access.leads_get.runs hruns
    cases found with
    | none => exact absurd hlater Action.not_waits_pure
    | some claim =>
      rw [hstays] at hlater
      obtain ⟨hsame, disk, hamends⟩ := amends_of_hookVolume hu hlater
      rw [Site.along_append, hstays]
      exact ⟨hsame, _, _, _, hamends⟩

/-- The storage behind a volume has been stored as its hooks leave it, and nothing else has
changed. -/
structure Unbinds (s : Setup) (volume : String) (u : Site) (ms : List Moment) : Prop where
  others : ∀ k, (∀ disk, storage? u s.settings.serverNamespace volume = some disk →
    k ≠ volumeKey disk) → (u.along ms).cluster.store.get? k = u.cluster.store.get? k
  marked : ∀ disk, storage? u s.settings.serverNamespace volume = some disk →
    Option.Rel (Object.Marked s.hooks .backendVolume .delete ms)
      (u.cluster.store.get? (volumeKey disk)) ((u.along ms).cluster.store.get? (volumeKey disk))
  renews : u.cluster.Renews (u.along ms).cluster

theorem unbinds_of_hookLast (hu : u.cluster.Sealed)
    (h : (hookLast s volume).Runs .alone u ms (.ok ())) : Unbinds s volume u ms := by
  obtain ⟨found, first, later, rfl, hruns, hlater⟩ := Action.Runs.bind_cases h
  obtain ⟨hfound, hstays⟩ := Access.leads_get.runs hruns
  rw [of_backing rfl] at hfound
  have hstorage : storage? u s.settings.serverNamespace volume = found.bind bound? := by
    rw [storage?, ← hfound]
  cases found with
  | none =>
    obtain ⟨rfl, -⟩ := Action.Runs.eq_of_pure hlater
    refine ⟨fun k _ => ?_, fun disk hdisk => ?_, ?_⟩
    · rw [List.nil_append, hstays]
    · rw [hstorage] at hdisk
      cases hdisk
    · rw [List.nil_append, hstays]
      exact .refl _
  | some claim =>
    rw [hstays] at hlater
    rw [Option.bind_some] at hstorage
    have halong : u.along (later ++ first) = u.along later := by
      rw [Site.along_append, hstays]
    rcases (leads_hookVolume hu).runs hlater with ⟨hnone, hsame⟩ | ⟨name, hname, hdresses⟩
    · refine ⟨fun k _ => ?_, fun disk hdisk => ?_, ?_⟩
      · rw [halong, hsame]
      · rw [hstorage, hnone] at hdisk
        cases hdisk
      · rw [halong, hsame]
        exact .refl _
    · refine ⟨fun k hk => ?_, fun disk hdisk => ?_, ?_⟩
      · rw [halong]
        exact hdresses.only.others k (hk name (hstorage.trans hname))
      · rw [halong]
        rw [hstorage] at hdisk
        exact Object.marked_mono (marked_of_hookVolume hu hdisk hlater)
          fun m hm => List.mem_append_left _ hm
      · rw [halong]
        exact hdresses.only.renews

/-- What is stored when a call is made on the way to a volume without a backing: what is deleted is
there as its hooks leave what was there at first, and so is the storage when the claim is
deleted. -/
structure Prepared (s : Setup) (volume : String) (w : Site) (ms : List Moment) (c : Call) :
    Prop where
  part : ∀ r ns name, c = .delete r ns name → r.isNamespaced ∧
    ns = some s.settings.serverNamespace ∧ name = some (Name.backing volume) ∧ ∃ o o',
      w.cluster.store.get? (key s.settings.serverNamespace r volume) = some o ∧
      (w.along ms).cluster.store.get? (key s.settings.serverNamespace r volume) = some o' ∧
      o.Marked s.hooks (partTarget r) .delete ms o'
  storage : ∀ ns name, c = .delete .claim ns name → ∀ disk,
    storage? w s.settings.serverNamespace volume = some disk →
      Option.Rel (Object.Marked s.hooks .backendVolume .delete ms)
        (w.cluster.store.get? (volumeKey disk)) ((w.along ms).cluster.store.get? (volumeKey disk))

abbrev Untouched (s : Setup) (volume : String) (w : Site) (ms : List Moment) : Prop :=
  ∀ k, Aside w s.settings.serverNamespace volume k →
    (w.along ms).cluster.store.get? k = w.cluster.store.get? k

theorem Prepared.of_amends {r : Resource} {ns name : Option String}
    (h : Access.Amends r ns name c) : Prepared s volume w ms c := by
  have hdelete (t : Resource) (n m : Option String) : c ≠ .delete t n m := by
    rintro rfl
    cases h
  exact ⟨fun t n m hc => absurd hc (hdelete t n m), fun n m hc => absurd hc (hdelete _ n m)⟩

theorem Prepared.behind {first later : List Moment}
    (hparts : ∀ r : Resource, r.isNamespaced → (w.along first).cluster.store.get?
      (key s.settings.serverNamespace r volume) =
        w.cluster.store.get? (key s.settings.serverNamespace r volume))
    (hdisk : ∀ disk, storage? w s.settings.serverNamespace volume = some disk →
      (w.along first).cluster.store.get? (volumeKey disk) = w.cluster.store.get? (volumeKey disk))
    (h : Prepared s volume (w.along first) later c) : Prepared s volume w (later ++ first) c := by
  have hlater : ∀ m ∈ later, m ∈ later ++ first := fun m hm => List.mem_append_left _ hm
  have hstorage : storage? (w.along first) s.settings.serverNamespace volume =
      storage? w s.settings.serverNamespace volume :=
    congrArg (Option.bind · bound?) (hparts .claim rfl)
  constructor
  · intro r n m hc
    obtain ⟨hr, hn, hm, o, o', ho, ho', hmarked⟩ := h.part r n m hc
    rw [Site.along_append]
    exact ⟨hr, hn, hm, o, o', hparts r hr ▸ ho, ho', hmarked.mono hlater⟩
  · intro n m hc disk hname
    rw [Site.along_append, ← hdisk disk hname]
    exact Object.marked_mono (h.storage n m hc disk (hstorage.trans hname)) hlater

theorem prepared_of_remove {step : Step} {r : Resource} {first later : List Moment}
    (hr : r.isNamespaced) (hw : (w.along first).cluster.Sealed)
    (hsame : (w.along first).cluster.store.get? (key s.settings.serverNamespace r volume) =
      w.cluster.store.get? (key s.settings.serverNamespace r volume))
    (hothers : Untouched s volume w first)
    (hstorage : r = .claim → ∀ disk, storage? w s.settings.serverNamespace volume = some disk →
      Option.Rel (Object.Marked s.hooks .backendVolume .delete first)
        (w.cluster.store.get? (volumeKey disk))
        ((w.along first).cluster.store.get? (volumeKey disk)))
    (h : (during step volume (remove s (partTarget r) r (Name.backing volume))).Waits .alone
      (w.along first) later (.call c)) :
    Prepared s volume w (later ++ first) c ∧ Untouched s volume w (later ++ first) := by
  have hdeparts := departs_of_remove hr hw h.of_orElseFault
  refine ⟨⟨fun t n m hc => ?_, fun n m hc disk hdisk => ?_⟩, fun k hk => ?_⟩
  · obtain ⟨rfl, hn, hm, o, o', ho, ho', hmarked⟩ := hdeparts.marked t n m hc
    rw [Site.along_append]
    refine ⟨hr, hn, hm, o, o', hsame ▸ ho, ho', hmarked.mono fun m hm => ?_⟩
    exact List.mem_append_left _ hm
  · obtain ⟨rfl, -⟩ := hdeparts.marked _ n m hc
    rw [Site.along_append, hdeparts.others _ (volumeKey_ne rfl)]
    exact Object.marked_mono (hstorage rfl disk hdisk) fun m hm => List.mem_append_right _ hm
  · rw [Site.along_append, hdeparts.others k (hk.1 r hr)]
    exact hothers k hk

theorem get?_of_only {ns : String} {r t : Resource} (h : Site.Only (key ns t volume) w u)
    (hrt : r ≠ t) :
    u.cluster.store.get? (key ns r volume) = w.cluster.store.get? (key ns r volume) :=
  h.others _ (key_ne hrt)

/-- The storage is hooked before the claim is deleted, and each part before it is deleted. -/
theorem prepared_of_delete (hw : w.cluster.Sealed)
    (h : (delete s volume).Waits .alone w ms (.call c)) :
    Prepared s volume w ms c ∧ Untouched s volume w ms := by
  rcases Action.Waits.bind_cases h with hwaits | ⟨_, ms₁, later, rfl, h₁, hrest⟩
  · rw [← List.append_nil ms]
    exact prepared_of_remove (r := .service) rfl hw rfl (fun _ _ => rfl) (fun hr => nomatch hr)
      hwaits
  obtain ⟨⟨only₁, -⟩, -⟩ := (leads_remove (r := .service) rfl hw).runs h₁.of_orElseFault
  have hw₁ := hw.renews only₁.renews
  have server₁ := get?_of_only (r := .server) only₁ (by decide)
  have claim₁ := get?_of_only (r := .claim) only₁ (by decide)
  have others₁ : Untouched s volume w ms₁ := fun k hk => only₁.others k (hk.1 .service rfl)
  rcases Action.Waits.bind_cases hrest with hwaits | ⟨_, ms₂, later, rfl, h₂, hrest⟩
  · exact prepared_of_remove (r := .server) rfl hw₁ server₁ others₁ (fun hr => nomatch hr) hwaits
  obtain ⟨⟨only₂, -⟩, -⟩ := (leads_remove (r := .server) rfl hw₁).runs h₂.of_orElseFault
  have hw₂ := hw₁.renews only₂.renews
  have claim₂ := (get?_of_only (r := .claim) only₂ (by decide)).trans claim₁
  have disk₂ (disk : String) := (only₂.others (volumeKey disk) (volumeKey_ne rfl)).trans
    (only₁.others (volumeKey disk) (volumeKey_ne rfl))
  rw [← Site.along_append] at hrest hw₂ claim₂ disk₂
  have others₂ : Untouched s volume w (ms₂ ++ ms₁) := by
    intro k hk
    rw [Site.along_append]
    exact (only₂.others k (hk.1 .server rfl)).trans (others₁ k hk)
  rw [List.append_assoc]
  rcases Action.Waits.bind_cases hrest with hwaits | ⟨_, ms₃, later, rfl, h₃, hrest⟩
  · obtain ⟨hstays, _, _, _, hamends⟩ := amends_of_hookLast hw₂ hwaits.of_orElseFault
    refine ⟨.of_amends hamends, fun k hk => ?_⟩
    rw [Site.along_append, hstays, others₂ k hk]
  have hunbinds := unbinds_of_hookLast hw₂ h₃.of_orElseFault
  have hstorage : storage? (w.along (ms₂ ++ ms₁)) s.settings.serverNamespace volume =
      storage? w s.settings.serverNamespace volume := congrArg (Option.bind · bound?) claim₂
  rw [← Site.along_append] at hrest
  rw [List.append_assoc]
  refine prepared_of_remove (r := .claim) rfl ?_ ?_ (fun k hk => ?_) (fun _ disk hdisk => ?_) hrest
  · rw [Site.along_append]
    exact hw₂.renews hunbinds.renews
  · rw [Site.along_append, hunbinds.others _ fun _ _ => (volumeKey_ne rfl).symm, claim₂]
  · rw [Site.along_append, hunbinds.others k, others₂ k hk]
    intro disk hdisk
    exact hk.2 disk (hstorage ▸ hdisk)
  · rw [Site.along_append, ← disk₂ disk]
    exact Object.marked_mono (hunbinds.marked disk (hstorage.trans hdisk))
      fun m hm => List.mem_append_left _ hm

end Backing

namespace Provisioning

open Backing (Prepared Untouched key storage? volumeKey volumeKey_ne)

variable {s : Setup} {volume : Object} {v : String} {w : Site} {ms : List Moment} {c : Call}

/-- As `Backing.Prepared`, and when a part is read or written the volume is stored as its hooks
leave it. -/
structure Released (s : Setup) (v : String) (w : Site) (ms : List Moment) (c : Call) : Prop
    extends Prepared s v w ms c where
  volume : ∀ r : Resource, r.isNamespaced → c.key? = some (key s.settings.serverNamespace r v) →
    Option.Rel (Object.Marked s.hooks .volume .delete ms) (w.cluster.store.get? (volumeKey v))
      ((w.along ms).cluster.store.get? (volumeKey v))

/-- The backing is taken down after the volume was hooked. -/
theorem released_of_delete {first later : List Moment} (hw : (w.along first).cluster.Sealed)
    (hothers : ∀ k, k ≠ volumeKey v →
      (w.along first).cluster.store.get? k = w.cluster.store.get? k)
    (hvolume : Option.Rel (Object.Marked s.hooks .volume .delete first)
      (w.cluster.store.get? (volumeKey v)) ((w.along first).cluster.store.get? (volumeKey v)))
    (hstorage : storage? w s.settings.serverNamespace v ≠ some v)
    (h : (Backing.delete s v).Waits .alone (w.along first) later (.call c)) :
    Released s v w (later ++ first) c := by
  obtain ⟨hprepared, huntouched⟩ := Backing.prepared_of_delete hw h
  have hparts (r : Resource) (hr : r.isNamespaced) :=
    hothers (key s.settings.serverNamespace r v) (volumeKey_ne hr).symm
  refine ⟨hprepared.behind hparts fun disk hdisk => ?_, fun r hr _ => ?_⟩
  · apply hothers
    intro heq
    cases heq
    exact hstorage hdisk
  · rw [Site.along_append, huntouched (volumeKey v)]
    · exact Object.marked_mono hvolume fun m hm => List.mem_append_right _ hm
    · refine ⟨fun t ht => volumeKey_ne ht, fun disk hdisk heq => hstorage ?_⟩
      cases heq
      rw [storage?, ← hparts .claim rfl]
      exact hdisk

theorem released_of_dismantle (hw : w.cluster.Sealed)
    (hstorage : storage? w s.settings.serverNamespace v ≠ some v)
    (h : (dismantle s (some v)).Waits .alone w ms (.call c)) : Released s v w ms c := by
  rcases Action.Waits.ite_cases h with ⟨-, hhooks⟩ | ⟨hcovers, hdelete⟩
  · rcases Action.Waits.bind_cases hhooks with hwaits | ⟨_, first, later, rfl, hruns, hdelete⟩
    · rcases Action.Waits.bind_cases hwaits with hmodify | ⟨_, _, _, -, -, hdone⟩
      · obtain ⟨-, hamends⟩ := Access.amends_of_modify rfl hw hmodify
        refine ⟨.of_amends hamends, fun r hr hc => ?_⟩
        cases hamends with
        | read => exact absurd (Option.some.inj hc) (volumeKey_ne hr)
        | replace => exact absurd (Option.some.inj hc) (volumeKey_ne hr)
      · exact absurd hdone Action.not_waits_pure
    · obtain ⟨m, _, _, rfl, hmodify, hdone⟩ := Action.Runs.bind_cases hruns
      obtain ⟨rfl, -⟩ := Action.Runs.eq_of_pure hdone
      obtain ⟨-, hdresses⟩ := (Access.leads_modify_hooked hw).runs hmodify
      exact released_of_delete (hw.renews hdresses.only.renews) hdresses.only.others
        (Access.marked_of_modify rfl hw hmodify) hstorage hdelete
  · rw [← List.append_nil ms]
    exact released_of_delete hw (fun _ _ => rfl)
      (Object.marked_self (Bool.eq_false_iff.2 hcovers) _) hstorage hdelete

/-- While nobody else writes and calls fail without telling anything about objects, a volume is
withdrawn with what is deleted stored before as the hooks for its deletion leave it. -/
theorem hooked_before_deletion (hw : w.cluster.Sealed)
    (hname : volume.knownMetadata.name = some v)
    (hstorage : storage? w s.settings.serverNamespace v ≠ some v)
    (h : (withdraw s volume).Waits .alone w ms (.call c)) : Released s v w ms c := by
  obtain ⟨m, hm, hrest⟩ := Action.Waits.of_lift h
  obtain rfl := Claim.knownMetadata_of_metadata hm
  obtain ⟨u, later, rfl, hu, hrest⟩ := hrest.of_tracking
  obtain rfl : w = u := hu.symm
  obtain ⟨spec, -, hrest⟩ := hrest.of_lift
  rcases hrest.ite_cases with ⟨-, hlog⟩ | ⟨-, hrest⟩
  · nomatch hlog.of_log.2
  rcases hrest.bind_cases with hdismantle | ⟨_, _, _, -, -, hlog⟩
  · rw [hname] at hdismantle ⊢
    have hreleased := released_of_dismantle
      (w := w.tracking (w.tracker.add (Claim.shown (some v)))) hw hstorage
      hdismantle.of_orElseFault
    refine ⟨hreleased.behind (fun _ _ => rfl) fun _ _ => rfl, fun r hr hc => ?_⟩
    rw [Site.along_append]
    exact Object.marked_mono (hreleased.volume r hr hc) fun m hm => List.mem_append_left _ hm
  · nomatch hlog.of_log.2

/-- Whatever belongs to a volume loses a finalizer before it goes, and the claim is marked. -/
def parting : Setup where
  settings := .ofNamespaces "nfs-provisioner" "nfs"
  hooks := [
    ⟨"free", .delete, .remove, Target.all.map fun target => (target, ⟨∅, ["example.com/keep"]⟩)⟩,
    ⟨"mark", .delete, .add, [(.backendClaim,
      ⟨.ofList [("released", "at $\x7bCURRENT_TIMESTAMP\x7d")], []⟩)]⟩]

def heldObject (name : String) (ns : Option String) (spec : List (String × Json)) : Object where
  metadata := some { Metadata.empty with
    name := some name
    namespaceName := ns
    finalizers := some [some "example.com/keep"] }
  rest := [("spec", .ofFields spec)]

def heldVolume : Object := heldObject "v" none [("persistentVolumeReclaimPolicy", .string "Delete")]

def held : Site :=
  .holding [
    (.volume, heldVolume),
    (.volume, heldObject "disk" none []),
    (.claim, heldObject "nfs-v" (some "nfs") [("volumeName", .string "disk")]),
    (.server, heldObject "nfs-v" (some "nfs") []),
    (.service, heldObject "nfs-v" (some "nfs") [])]

def partingRun : List Moment × Prog (Except Fault Unit) :=
  Prog.replay held (withdraw parting heldVolume).run (List.replicate 21 .none)

theorem waits_partingRun : (withdraw parting heldVolume).Waits .alone held partingRun.1
    (.call (.delete .claim (some "nfs") (some "nfs-v"))) := by
  apply Prog.waits_replay _ (by decide +kernel)
  intro i hi
  rw [List.eq_of_mem_replicate hi]
  exact Incident.among_none

theorem hooked_before_deletion_parting : Released parting "v" held partingRun.1
    (.delete .claim (some "nfs") (some "nfs-v")) :=
  hooked_before_deletion (Site.sealed_holding _) rfl (by decide +kernel) waits_partingRun

end Provisioning

end VolumeExport
