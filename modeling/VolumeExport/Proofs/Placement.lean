import Mathlib.Data.List.Basic
import VolumeExport.Proofs.Fulfilment
import VolumeExport.Proofs.Selection
import VolumeExport.Proofs.Waiting

namespace VolumeExport

theorem Json.path?_ofFields (name : String) {xs : List (String × Json)} {names : List String}
    {j : Json} (h : (xs.map (·.1)).Nodup) (hj : (name, j) ∈ xs) :
    (ofFields xs).path? (name :: names) = j.path? names := by
  rw [path?, field?_ofFields h hj, Option.bind_some]

def Json.itemsAt (name : String) (j : Json) : List Json := ((j.field? name).bind items?).getD []

namespace Manifest

/-- The match expressions that a deployment requires of the nodes it runs on. -/
def matchExpressions (o : Object) : List Json :=
  match o.path? ["spec", "template", "spec", "affinity", "nodeAffinity",
    "requiredDuringSchedulingIgnoredDuringExecution"] with
  | some required =>
    (required.itemsAt "nodeSelectorTerms").flatMap (Json.itemsAt "matchExpressions")
  | none => []

/-- The labels of a node are as a match expression requires. -/
inductive Meets (labels : Dict (Option String)) (e : Json) : Prop
  | present {key} : e.field? "key" = some (.string key) →
      e.field? "operator" = some (.string "Exists") → labels.contains key → Meets labels e
  | oneOf {key value} : e.field? "key" = some (.string key) →
      e.field? "operator" = some (.string "In") → labels.get? key = some (some value) →
      .string value ∈ e.itemsAt "values" → Meets labels e

variable {r : Affinity.Rule} {rules : List Affinity.Rule} {labels : Dict (Option String)}
  {settings : Settings} {volume : String} {c : Volume.Config}

theorem nodup_requirement : ["key", "operator", "values"].Nodup := by decide

theorem key_requirement : (requirement r).field? "key" = some (.string r.key) :=
  field?_fields nodup_requirement List.mem_cons_self

theorem operator_requirement :
    (requirement r).field? "operator" = some (.string r.operator.name) :=
  field?_fields nodup_requirement (List.mem_cons_of_mem _ List.mem_cons_self)

theorem values_requirement (h : r.values ≠ []) :
    (requirement r).itemsAt "values" = r.values.map Json.string := by
  have hvalues : (requirement r).field? "values" = some (texts r.values) := by
    rw [requirement, if_neg h]
    exact field?_fields nodup_requirement
      (List.mem_cons_of_mem _ (List.mem_cons_of_mem _ List.mem_cons_self))
  rw [Json.itemsAt, hvalues]
  rfl

theorem meets_requirement_iff (h : r.Sound) :
    Meets labels (requirement r) ↔ r.asked.holds labels := by
  have hkey {key : String} : (requirement r).field? "key" = some (.string key) ↔ r.key = key := by
    rw [key_requirement, Option.some.injEq, Json.string.injEq]
  rw [Affinity.Rule.asked]
  cases hoperator : r.operator with
  | present =>
    rw [Selector.Term.holds, String.ofList_toList]
    constructor
    · rintro (⟨hk, -, hcontains⟩ | ⟨-, hin, -⟩)
      · rwa [hkey.1 hk]
      · rw [operator_requirement, hoperator] at hin
        exact absurd (Json.string.inj (Option.some.inj hin)) (by decide)
    · refine .present (hkey.2 rfl) ?_
      rw [operator_requirement, hoperator]
      rfl
  | oneOf =>
    have hlisted {value : String} : .string value ∈ (requirement r).itemsAt "values" ↔
        (r.values.map String.toList).contains value.toList := by
      rw [values_requirement (h.operator.1 hoperator), List.contains_iff_mem,
        List.mem_map_of_injective fun _ _ => Json.string.inj,
        List.mem_map_of_injective fun _ _ => String.toList_inj.1]
    rw [Selector.Term.holds, String.ofList_toList, Option.any_eq_true]
    constructor
    · rintro (⟨-, hexists, -⟩ | ⟨hk, -, hget, hmem⟩)
      · rw [operator_requirement, hoperator] at hexists
        exact absurd (Json.string.inj (Option.some.inj hexists)) (by decide)
      · rw [← hkey.1 hk] at hget
        exact ⟨_, by rw [hget]; rfl, hlisted.1 hmem⟩
    · rintro ⟨value, hget, hmem⟩
      refine .oneOf (hkey.2 rfl) ?_ ?_ (hlisted.2 hmem)
      · rw [operator_requirement, hoperator]
        rfl
      · cases hlabel : labels.get? r.key with
        | none =>
          rw [hlabel] at hget
          cases hget
        | some label =>
          rw [hlabel] at hget
          exact congrArg some hget

theorem affinity_podSpec (name : String) (h : settings.affinity ≠ []) :
    (podSpec settings name c).field? "affinity" = some (.ofFields [("nodeAffinity", .ofFields [
      ("requiredDuringSchedulingIgnoredDuringExecution", .ofFields [
        ("nodeSelectorTerms", .array [
          .ofFields [("matchExpressions", .array (settings.affinity.map requirement))]])])])]) := by
  rw [podSpec, affinity, if_neg h]
  refine field?_fields ?_ (List.mem_cons_of_mem _ (List.mem_cons_of_mem _
    (List.mem_cons_of_mem _ List.mem_cons_self)))
  change ["containers", "volumes", "securityContext", "affinity"].Nodup
  decide

theorem matchExpressions_server (h : settings.affinity ≠ []) :
    matchExpressions (server settings volume c) = settings.affinity.map requirement := by
  have hpath : (server settings volume c).path? ["spec", "template", "spec", "affinity",
      "nodeAffinity", "requiredDuringSchedulingIgnoredDuringExecution"] = some (.ofFields [
        ("nodeSelectorTerms", .array [
          .ofFields [("matchExpressions", .array (settings.affinity.map requirement))]])]) := by
    change Json.path? _ (.ofFields _) = _
    rw [Json.path?_ofFields "template" (by simp)
        (.tail _ (.tail _ (.tail _ (.head _)))),
      Json.path?_ofFields "spec" (by simp) (.tail _ (.head _)), Json.path?,
      affinity_podSpec _ h]
    rfl
  rw [matchExpressions, hpath]
  change [_].flatMap _ = _
  rw [List.flatMap_singleton]
  rfl

/-- A node has what a selector asks for exactly if it meets the match expressions. -/
theorem selects_selector_iff (h : ∀ r ∈ rules, r.Plain) (hsound : ∀ r ∈ rules, r.Sound) :
    Selector.selects (Affinity.selector rules) labels ↔
      ∀ e ∈ rules.map requirement, Meets labels e := by
  rw [Selector.selects, Affinity.terms_selector h hsound, List.all_map, List.all_eq_true,
    List.forall_mem_map]
  exact forall₂_congr fun r hr => (meets_requirement_iff (hsound r hr)).symm

end Manifest

namespace Provisioning

variable {s : Setup} {rules : List Affinity.Rule} {w : Site}

theorem ends_requireNode :
    (requireNode rules).Ends (fun r w' => w' = w ∧
      (r = .ok () ↔ rules = [] ∨ ∃ node ∈ w.cluster.store.objects .node none,
        Selector.selects (Affinity.selector rules) (node.knownMetadata.labels.getD ∅)) ∧
      (r ≠ .ok () → r = .error (.noMatchingNode (Affinity.selector rules)))) w := by
  apply Action.ends_ite
  · intro hrules
    apply Action.Yields.bind Access.yields_listAll
    rintro nodes _ ⟨rfl, rfl⟩
    apply Action.ends_ite
    · intro hnone
      have hnone := List.filter_eq_nil_iff.1 (List.isEmpty_iff.1 hnone)
      refine Action.ends_fail ⟨rfl, iff_of_false nofun ?_, fun _ => rfl⟩
      rintro (hnil | ⟨node, hnode, hselects⟩)
      · exact hrules hnil
      · exact hnone node hnode hselects
    · intro hsome
      have hsome := mt List.isEmpty_iff.2 hsome
      obtain ⟨node, hnode⟩ := List.exists_mem_of_ne_nil _ hsome
      obtain ⟨hnode, hselects⟩ := List.mem_filter.1 hnode
      exact Action.ends_pure ⟨rfl, iff_of_true rfl (.inr ⟨node, hnode, hselects⟩),
        fun h => absurd rfl h⟩
  · intro hrules
    exact Action.ends_pure ⟨rfl, iff_of_true rfl (.inl (not_not.1 hrules)), fun h => absurd rfl h⟩

/-- A node is found for the rules of a text exactly if there are no rules, or if a node meets all
that is required of nodes by the deployment that is created. -/
theorem node_found_iff_meets {text : String} (haffinity : s.settings.affinity = Affinity.parse text)
    (hplain : ∀ r ∈ Affinity.parse text, r.Plain) {S : Surroundings} {volume : String} {plan : Plan}
    {v : Site} {ms : List Moment} {ns : Option String} {body : Object}
    (hcreates : (Backing.create s volume plan).run.Waits S v ms (.call (.create .server ns body)))
    (w : Site) :
    (requireNode s.settings.affinity).Ends (fun r w' => w' = w ∧
      (r = .ok () ↔ s.settings.affinity = [] ∨ ∃ node ∈ w.cluster.store.objects .node none,
        ∀ e ∈ Manifest.matchExpressions body,
          Manifest.Meets (node.knownMetadata.labels.getD ∅) e) ∧
      (r ≠ .ok () → r = .error (.noMatchingNode (Affinity.selector s.settings.affinity)))) w := by
  have hbody : (Manifest.server s.settings volume plan.config).Remarks body := by
    cases hcreates.asked (Backing.keeps_create plan fun _ _ _ he => nomatch he) with
    | quiet hq => exact hq.elim
    | createServer hbody => exact hbody
  apply ends_requireNode.mono
  rintro r _ ⟨rfl, hfound, hfault⟩
  refine ⟨rfl, hfound.trans (or_congr_right' fun hrules => ?_), hfault⟩
  have hexpressions : Manifest.matchExpressions body =
      s.settings.affinity.map Manifest.requirement := by
    rw [← Manifest.matchExpressions_server hrules, Manifest.matchExpressions,
      Object.path?_congr hbody.1]
    rfl
  rw [hexpressions]
  refine exists_congr fun node => and_congr_right fun _ => ?_
  rw [haffinity]
  exact Manifest.selects_selector_iff hplain fun r hr => Affinity.sound_of_mem_parse hr

def zoned : Setup where
  settings := { Settings.ofNamespaces "nfs-provisioner" "nfs" with
    affinity := Affinity.parse "example.com/zone:[a,b],disk" }
  hooks := []

def nodes : Site :=
  let node (name : String) (labels : List (String × Option String)) : Resource × Object :=
    (.node, ⟨some { Metadata.empty with name := some name, labels := some (.ofList labels) }, []⟩)
  .holding [node "x" [("disk", some "")],
    node "y" [("disk", none), ("example.com/zone", some "b")]]

def begun : List Moment × Prog (Except Fault String) :=
  Prog.replay nodes (Backing.create zoned "v" Backing.smallPlan).run (List.replicate 6 .none)

theorem node_found_iff_meets_zoned :
    (∀ r ∈ Affinity.parse "example.com/zone:[a,b],disk", r.Plain) ∧
    (requireNode zoned.settings.affinity).Ends (fun r w' => w' = nodes ∧
      (r = .ok () ↔ zoned.settings.affinity = [] ∨
        ∃ node ∈ nodes.cluster.store.objects .node none,
          ∀ e ∈ Manifest.matchExpressions
              (Manifest.server zoned.settings "v" Backing.smallPlan.config),
            Manifest.Meets (node.knownMetadata.labels.getD ∅) e) ∧
      (r ≠ .ok () → r = .error (.noMatchingNode "example.com/zone in (a,b),disk"))) nodes := by
  have hplain : ∀ r ∈ Affinity.parse "example.com/zone:[a,b],disk", r.Plain := by decide +kernel
  have hcreates : (Backing.create zoned "v" Backing.smallPlan).run.Waits .alone nodes begun.1
      (.call (.create .server (some "nfs")
        (Manifest.server zoned.settings "v" Backing.smallPlan.config))) := by
    apply Prog.waits_replay _ (by decide +kernel)
    intro i hi
    rw [List.eq_of_mem_replicate hi]
    exact Incident.among_none
  exact ⟨hplain, node_found_iff_meets rfl hplain hcreates nodes⟩

end Provisioning

end VolumeExport
