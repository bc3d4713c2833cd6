import VolumeExport.Proofs.Backing.Advance

namespace VolumeExport

theorem Json.ofFields_eq (xs : List (String × Json)) :
    ofFields xs = .object (Dict.ofList xs).toList := by
  rw [ofFields, Dict.ofList]
  suffices hall : ∀ d : Dict Json, xs.foldl (fun ys p => Dict.place p.1 p.2 ys) d.toList =
      (xs.foldl (fun d p => d.insert p.1 p.2) d).toList from congrArg _ (hall ∅)
  induction xs with
  | nil => exact fun _ => rfl
  | cons x xs ih => exact fun d => ih (d.insert x.1 x.2)

theorem Json.field?_ofFields {xs : List (String × Json)} {name : String} {j : Json}
    (h : (xs.map (·.1)).Nodup) (hj : (name, j) ∈ xs) : (ofFields xs).field? name = some j := by
  rw [ofFields_eq]
  exact Dict.get?_ofList h hj

theorem Manifest.field?_fields {xs : List (String × Option Json)} {name : String} {j : Json}
    (h : (xs.map (·.1)).Nodup) (hj : (name, some j) ∈ xs) : (fields xs).field? name = some j := by
  let entry (p : String × Option Json) : Option (String × Json) := p.2.map (p.1, ·)
  have hsublist : ((xs.filterMap entry).map (·.1)).Sublist (xs.map (·.1)) := by
    clear h hj
    induction xs with
    | nil => exact .slnil
    | cons x xs ih =>
      obtain ⟨key, value⟩ := x
      cases value with
      | none => exact ih.cons key
      | some value => exact ih.cons_cons key
  have hmem : (name, j) ∈ xs.filterMap entry := List.mem_filterMap.2 ⟨_, hj, rfl⟩
  exact Json.field?_ofFields (h.sublist hsublist) hmem

theorem Object.path?_setSpec {o : Object} {fields : List (String × Json)}
    (h : o.path? ["spec"] = some (.object fields)) (name : String) (value : Json) :
    (o.setSpec name value).path? ["spec", name] = some value := by
  rw [setSpec, h]
  dsimp only
  rw [path?, set, Json.setIn, Dict.look_place, if_pos rfl, Option.bind_some, Json.path?, Json.field?,
    Json.setIn, Dict.look_place, if_pos rfl, Option.bind_some]
  rfl

namespace Cluster

theorem addressText_ne (n : Nat) : addressText n ≠ "" := by
  intro h
  have hlength := congrArg String.length h
  simp [addressText] at hlength

theorem text?_bound_phase (name : String) (o : Object) :
    (bound name o).text? ["status", "phase"] = some "Bound" := by
  rw [bound, Object.text?, Object.path?, Object.set, Json.setIn, Dict.look_place, if_pos rfl]
  rfl

theorem text?_bound_volumeName {o : Object} {fields : List (String × Json)}
    (h : o.path? ["spec"] = some (.object fields)) (name : String) :
    (bound name o).text? ["spec", "volumeName"] = some name := by
  have hpath : (bound name o).path? ["spec", "volumeName"] =
      (o.setSpec "volumeName" (.string name)).path? ["spec", "volumeName"] := by
    rw [bound, Object.path?, Object.set, Json.setIn, Dict.look_place, if_neg (by decide)]
    rfl
  rw [Object.text?, hpath, Object.path?_setSpec h]
  rfl

theorem isSome_resources (ns volume : String) (plan : Plan) :
    ((Manifest.claim ns volume plan).path? ["spec", "resources"]).isSome := by
  change (((Manifest.fields _).field? "resources").bind some).isSome
  rw [Option.bind_fun_some]
  refine congrArg Option.isSome
    (Manifest.field?_fields ?_ (List.mem_cons_of_mem _ List.mem_cons_self))
  change ["accessModes", "resources", "storageClassName"].Nodup
  decide

theorem settled_claim {c : Cluster} (hbinds : c.binds) (ns volume name : String) (plan : Plan) :
    c.settled .claim name (Manifest.claim ns volume plan) =
      bound (boundName name) (Manifest.claim ns volume plan) := by
  rw [settled, hbinds, isSome_resources]
  rfl

theorem settled_service {c : Cluster} (hassigns : c.assigns) (ns volume name : String) :
    c.settled .service name (Manifest.service ns volume) =
      (Manifest.service ns volume).setSpec "clusterIP"
        (.string (addressText (c.addresses + 1))) := by
  have hspec : (Manifest.service ns volume).hasSpec := rfl
  rw [settled, hassigns, hspec]
  rfl

end Cluster

namespace Backing

variable {s : Setup} {volume : String} {plan : Plan} {w v : Site}

/-- A site that binds claims and gives addresses to services when they are made, and where those of
a volume, if they are there, have been bound and have been given one. -/
structure Ready (s : Setup) (volume : String) (w : Site) : Prop where
  binds : w.cluster.binds
  assigns : w.cluster.assigns
  claim : ∀ claim, w.cluster.store.get? (key s.settings.serverNamespace .claim volume) = some claim →
    isBound claim
  service : ∀ service,
    w.cluster.store.get? (key s.settings.serverNamespace .service volume) = some service →
      ∃ ip, service.text? ["spec", "clusterIP"] = some ip ∧ ip ≠ ""

namespace Ready

theorem bound_of_part (h : Ready s volume w) (hpart : Part s volume plan .claim w v)
    (hthere : v.cluster.contains (key s.settings.serverNamespace .claim volume)) :
    ∃ claim, isBound claim ∧
      v.cluster.store.get? (key s.settings.serverNamespace .claim volume) = some claim := by
  rcases hpart with hsame | ⟨-, o, ho, hmade⟩
  · obtain ⟨claim, hclaim⟩ := Option.isSome_iff_exists.1 hthere
    exact ⟨claim, h.claim claim (hsame.symm.trans hclaim), hclaim⟩
  · refine ⟨o, ?_, ho⟩
    have hrest := hmade.rest
    rw [blueprint, Cluster.settled_claim h.binds] at hrest
    rw [isBound, Object.text?, Object.path?_congr hrest]
    exact decide_eq_true (Cluster.text?_bound_phase ..)

theorem exported_of_part (h : Ready s volume w) (hpart : Part s volume plan .service w v)
    (hthere : v.cluster.contains (key s.settings.serverNamespace .service volume)) :
    ∃ a, exported? s volume v = some a := by
  rw [exported?]
  split
  · suffices hip : ∃ service ip,
        v.cluster.store.get? (key s.settings.serverNamespace .service volume) = some service ∧
          service.text? ["spec", "clusterIP"] = some ip ∧ ip ≠ "" by
      obtain ⟨service, ip, hservice, hip, hne⟩ := hip
      rw [hservice, Option.bind_some, hip, Option.filter_some, if_pos (decide_eq_true hne)]
      exact ⟨ip, rfl⟩
    rcases hpart with hsame | ⟨-, o, ho, hmade⟩
    · obtain ⟨service, hservice⟩ := Option.isSome_iff_exists.1 hthere
      obtain ⟨ip, hip⟩ := h.service service (hsame.symm.trans hservice)
      exact ⟨service, ip, hservice, hip⟩
    · have hrest := hmade.rest
      have hblueprint : blueprint s volume plan .service =
        Manifest.service s.settings.serverNamespace volume := rfl
      rw [hblueprint, Cluster.settled_service h.assigns] at hrest
      refine ⟨o, _, ho, ?_, Cluster.addressText_ne (w.cluster.addresses + 1)⟩
      rw [Object.text?, Object.path?_congr hrest, Object.path?_setSpec rfl]
      rfl
  · exact ⟨_, rfl⟩

theorem able (h : Ready s volume w) : Able s volume plan w where
  claim _ hbegun := h.bound_of_part (hbegun.part rfl) (hbegun.there rfl)
  exported _ _ hbegun hgrown hservice := h.exported_of_part (hgrown.part_since hbegun rfl) hservice

end Ready

end Backing

end VolumeExport
