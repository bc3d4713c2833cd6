import VolumeExport.Proofs.Backing.Retreat
import VolumeExport.Proofs.Operation
import VolumeExport.Proofs.Waiting

namespace VolumeExport

def Call.writes : Call → Bool
  | .create .. => true
  | .replace .. => true
  | .delete .. => true
  | _ => false

/-- An object is replaced right after it was read, at most with a look at the time in between, and
differs in its annotations and finalizers at most. -/
def Call.Rewrites : Call → Past → Prop
  | .replace r ns name body, p =>
    ∃ o t before, p = ⟨.now, t⟩ :: ⟨.call (.read r ns name), .ok o⟩ :: before ∧ o.Remarks body
  | _, _ => True

namespace Operation

open Backing (Belongs Buildup Takedown)
open Provisioning (Provides Withdraws nameOf)

variable {s : Setup} {o : Operation} {v : String} {p : Past} {c : Call}

def volume? : Operation → Option String
  | .create volume _ => some volume
  | .delete volume => some volume
  | .provide order => some order.volume
  | .withdraw volume => some (nameOf volume)
  | _ => none

def builds : Operation → Bool
  | .create .. => true
  | .provide .. => true
  | _ => false

def razes : Operation → Bool
  | .delete .. => true
  | .withdraw .. => true
  | _ => false

/-- The calls by which an operation on a volume may write, after what it was told. The storage is
the volume that it has read to be the one that the claim is bound to. -/
inductive Confined (s : Setup) (o : Operation) (v : String) (p : Past) : Call → Prop
  | create {r : Resource} {body : Object} : o.builds → r.isNamespaced →
      body.knownMetadata.name = some (Name.backing v) →
      Confined s o v p (.create r (some s.settings.serverNamespace) body)
  | delete {r : Resource} : o.razes → r.isNamespaced →
      Confined s o v p (.delete r (some s.settings.serverNamespace) (some (Name.backing v)))
  | part {r : Resource} {body : Object} : o.razes → r.isNamespaced →
      Confined s o v p (.replace r (some s.settings.serverNamespace) (some (Name.backing v)) body)
  | storage {claim body : Object} {name : String} :
      ⟨.call (.read .claim (some s.settings.serverNamespace) (some (Name.backing v))),
        .ok claim⟩ ∈ p →
      claim.text? ["spec", "volumeName"] = some name →
      Confined s o v p (.replace .volume none (some name) body)
  | self {volume body : Object} : o = .withdraw volume →
      Confined s o v p (.replace .volume none volume.knownMetadata.name body)

theorem confined_of_belongs (ho : o.razes) {r : Resource} {n m : Option String} {body : Object}
    (h : Belongs s.settings.serverNamespace v p r n m) : Confined s o v p (.replace r n m body) := by
  cases h with
  | part hr => exact .part ho hr
  | storage hclaim hname => exact .storage hclaim hname

theorem mem_of_reread {e e' e'' : Turn} (h : e ∈ p) : e ∈ (e' :: e'' :: p : Past) :=
  List.mem_cons_of_mem _ (List.mem_cons_of_mem _ h)

theorem confined_of_buildup {plan : Plan} (ho : o.builds) (h : Buildup s v plan (.call c) p)
    (hc : c.writes) : Confined s o v p c ∧ c.Rewrites p := by
  cases h with
  | quiet hq => exact hq.elim
  | read => cases hc
  | replace h hbody =>
    refine ⟨?_, _, _, _, rfl, hbody⟩
    cases h with
    | storage hclaim hname => exact .storage (mem_of_reread hclaim) hname
  | createClaim hbody => exact ⟨.create ho rfl hbody.name_eq, trivial⟩
  | createServer hbody => exact ⟨.create ho rfl hbody.name_eq, trivial⟩
  | createService hbody => exact ⟨.create ho rfl hbody.name_eq, trivial⟩

theorem confined_of_takedown (ho : o.razes)
    (h : Takedown s.settings.serverNamespace v (.call c) p) (hc : c.writes) :
    Confined s o v p c ∧ c.Rewrites p := by
  cases h with
  | quiet hq => exact hq.elim
  | read => cases hc
  | replace h hbody =>
    exact ⟨confined_of_belongs ho (h.mem fun _ => mem_of_reread), _, _, _, rfl, hbody⟩
  | deleteService => exact ⟨.delete ho rfl, trivial⟩
  | deleteServer => exact ⟨.delete ho rfl, trivial⟩
  | deleteClaim => exact ⟨.delete ho rfl, trivial⟩

theorem confined_of_provides {order : Provisioning.Order} (h : Provides s order (.call c) p)
    (hc : c.writes) : Confined s (.provide order) order.volume p c ∧ c.Rewrites p := by
  cases h with
  | look hq =>
    cases c with
    | read => cases hc
    | list => cases hc
    | _ => exact hq.elim
  | backing _ _ h => exact confined_of_buildup rfl h hc

theorem confined_of_withdraws {volume : Object} (h : Withdraws s volume (.call c) p)
    (hc : c.writes) : Confined s (.withdraw volume) (nameOf volume) p c ∧ c.Rewrites p := by
  cases h with
  | quiet hq => exact hq.elim
  | read => cases hc
  | replace _ hbody => exact ⟨.self rfl, _, _, _, rfl, hbody⟩
  | backing _ _ h => exact confined_of_takedown rfl h hc

/-- Whatever fails and whatever others do in between, an operation on a volume writes only what is
the volume's own, and what it replaces it has read right before. -/
theorem writes_confined {S : Surroundings} {w : Site} {ms : List Moment}
    (hv : o.volume? = some v) (h : (o.program s).Waits S w ms (.call c)) (hc : c.writes) :
    Confined s o v (ms.map Moment.turn) c ∧ c.Rewrites (ms.map Moment.turn) := by
  have hmay : o.May s (.call c) (ms.map Moment.turn) := h.asked o.keeps_program
  cases o with
  | create volume plan =>
    cases hv
    exact confined_of_buildup rfl hmay hc
  | delete volume =>
    cases hv
    exact confined_of_takedown rfl hmay hc
  | provide order =>
    cases hv
    exact confined_of_provides hmay hc
  | withdraw volume =>
    cases hv
    exact confined_of_withdraws hmay hc
  | _ => cases hv

def marked : Object where
  metadata := some { Metadata.empty with
    name := some "disk"
    uid := some "uid-2"
    resourceVersion := some "2"
    annotations := some (.ofList [("released", some "at 1-01-01T00:00:00Z")])
    finalizers := some [some "example.com/keep"] }
  rest := []

/-- A deletion that is told at its first change of the storage that others have written it. -/
def retried : List Moment × Prog Unit :=
  Prog.replay Backing.standing ((Operation.delete "v").program Backing.marking)
    (.none :: .none :: .fault .conflict :: List.replicate 7 .none)

theorem writes_confined_retried :
    ((Operation.delete "v").program Backing.marking).Waits ⟨fun _ => True, fun _ _ => True⟩
      Backing.standing retried.1 (.call (.replace .volume none (some "disk") marked)) ∧
    Confined Backing.marking (.delete "v") "v" (retried.1.map Moment.turn)
      (.replace .volume none (some "disk") marked) ∧
    (Call.replace .volume none (some "disk") marked).Rewrites (retried.1.map Moment.turn) := by
  have hwaits : ((Operation.delete "v").program Backing.marking).Waits
      ⟨fun _ => True, fun _ _ => True⟩ Backing.standing retried.1
      (.call (.replace .volume none (some "disk") marked)) :=
    Prog.waits_replay (fun _ _ => ⟨fun _ => trivial, fun _ _ => trivial⟩) (by decide +kernel)
  exact ⟨hwaits, writes_confined rfl hwaits rfl⟩

end Operation

end VolumeExport
