import VolumeExport.Proofs.Failure
import VolumeExport.Proofs.Fulfilment
import VolumeExport.Proofs.Rejection

namespace VolumeExport

namespace Past

variable {past : Past}

/-- The latest answer was the failure of a call that tells nothing of the object of the call. -/
def Failed (past : Past) (c : Call) (e : ApiError) : Prop :=
  past.head? = some ⟨.call c, .error e⟩ ∧ c.shows (.error e) = none

def Broken (past : Past) : Prop := ∃ c e, past.Failed c e

theorem not_broken_nil : ¬Broken [] := by
  rintro ⟨c, e, h, -⟩
  cases h

theorem not_broken_call {c : Call} {x : Except ApiError c.Result} (h : c.shows x ≠ none) :
    ¬Broken (⟨.call c, x⟩ :: past) := by
  rintro ⟨c', e, heq, hnone⟩
  cases heq
  exact h hnone

theorem not_broken_cons {q : Request} {x : q.Answer} (hq : ∀ c, q ≠ .call c) :
    ¬Broken (⟨q, x⟩ :: past) := by
  rintro ⟨c, e, heq, -⟩
  exact hq c (congrArg Turn.request (Option.some.inj heq))

end Past

namespace Claim

theorem exists_className {claim : Object} {m : Metadata} {spec : Json}
    (hm : claim.metadata = some m) (hspec : claim.path? ["spec"] = some spec) :
    ∃ class?, className claim = .ok class? := by
  rw [className, metadata_eq_ok hm, Except.ok_bind]
  cases m.annotation? Name.betaClassAnnotation with
  | some name => exact ⟨name, rfl⟩
  | none =>
    dsimp only
    rw [spec_eq_ok hspec]
    exact ⟨_, rfl⟩

end Claim

namespace Controller

/-- What is handled: a claim that has appeared, or a volume that was released. -/
inductive Occasion
  | claimed (claim : Object)
  | released (volume : Object)

namespace Occasion

def object : Occasion → Object
  | claimed claim => claim
  | released volume => volume

def handler (s : Setup) : Occasion → Action (List String)
  | claimed claim => Controller.claimed s claim
  | released volume => Controller.released s volume

structure WellFormed (o : Occasion) : Prop where
  metadata : o.object.metadata.isSome
  spec : (o.object.path? ["spec"]).isSome

/-- The calls that a handler makes itself. The others are those of making or of taking down what is
behind the volume. -/
inductive Calls : Occasion → Call → Prop
  | readClass {claim name} : Claim.className claim = .ok (some name) →
      Calls (claimed claim) (.read .storageClass none (some name))
  | readVolume {claim} : Calls (claimed claim) (.read .volume none (some (volumeFor claim)))
  | create {claim volume storageClass} :
      Calls (claimed claim) (.create .volume none (tied volume claim storageClass))
  | delete {volume} :
      Calls (released volume) (.delete .volume none volume.knownMetadata.name)

/-- How a part of a handler ends: with a value or in order that the request is made again, and then
nothing has failed last, or with the failure of one of the handler's own calls. -/
inductive Verdict (o : Occasion) {α : Type} : Except Fault α → Past → Prop
  | done {x p} : ¬Past.Broken p → Verdict o (.ok x) p
  | later {cause p} : ¬Past.Broken p → Verdict o (.error (.retryLater retryDelay cause)) p
  | broken {c e p} : Past.Failed p c e → o.Calls c → Verdict o (.error (.api e)) p

variable {o : Occasion} {α β : Type} {past : Past}

theorem Verdict.not_broken {x : α} (h : o.Verdict (.ok x) past) : ¬past.Broken := by
  cases h with
  | done h => exact h

theorem Verdict.error {f : Fault} (h : o.Verdict (.error f : Except Fault α) past) :
    o.Verdict (.error f : Except Fault β) past := by
  cases h with
  | later h => exact .later h
  | broken hfailed hcalls => exact .broken hfailed hcalls

/-- Where nothing has failed last, an action ends as a part of a handler does. -/
def Parts (o : Occasion) (a : Action α) : Prop :=
  ∀ past, ¬Past.Broken past → a.Keeps (fun _ _ => True) o.Verdict past

theorem parts_pure (x : α) : o.Parts (pure x) := fun _ h => Action.keeps_pure (.done h)

theorem Parts.bind {a : Action α} {f : α → Action β} (h : o.Parts a) (hf : ∀ x, o.Parts (f x)) :
    o.Parts (a >>= f) :=
  fun past hp => (h past hp).bind (fun x p hx => hf x p hx.not_broken) fun _ _ he => he.error

theorem parts_lift {x : Except Fault α} {a : α} {f : α → Action β} (hx : x = .ok a)
    (hf : o.Parts (f a)) : o.Parts (liftM x >>= f) := by
  subst hx
  exact hf

theorem parts_ite {c : Prop} [Decidable c] {a b : Action α} (ha : o.Parts a) (hb : o.Parts b) :
    o.Parts (if c then a else b) := by
  split
  · exact ha
  · exact hb

/-- A call of the handler itself tells something of its object or fails as it is. One kind of
failure is an answer, too. -/
theorem parts_call {c : Call} {f : Except ApiError c.Result → Action α} {tells : ApiError → Bool}
    {there : Bool} {a : α} (hcalls : o.Calls c)
    (hok : ∀ x, c.shows (.ok x) ≠ none ∧ ∃ b, f (.ok x) = pure b)
    (hshows : ∀ e, c.shows (.error e) = if tells e then some there else none)
    (herror : ∀ e, f (.error e) = if tells e then pure a else .fail (.api e)) :
    o.Parts (Action.call c >>= f) := by
  intro past _
  apply Action.keeps_ask (q := .call c) trivial
  rintro (e | x)
  · rw [herror]
    apply Action.keeps_ite
    · intro he
      have hsome : c.shows (.error e) ≠ none := by
        rw [hshows, if_pos he]
        exact Option.some_ne_none there
      exact Action.keeps_pure (.done (Past.not_broken_call hsome))
    · intro he
      have hnone : c.shows (.error e) = none := by rw [hshows, if_neg he]
      exact Action.keeps_fail (.broken ⟨rfl, hnone⟩ hcalls)
  · obtain ⟨hsome, b, hb⟩ := hok x
    rw [hb]
    exact Action.keeps_pure (.done (Past.not_broken_call hsome))

theorem parts_get {r : Resource} {ns name : Option String} (h : o.Calls (.read r ns name)) :
    o.Parts (Access.get r ns name) :=
  parts_call h (fun found => ⟨Option.some_ne_none _, some found, rfl⟩) (fun _ => rfl) fun _ => rfl

theorem parts_create {r : Resource} {ns : Option String} {body : Object}
    (h : o.Calls (.create r ns body)) : o.Parts (Access.create r ns body) :=
  parts_call h (fun made => ⟨Option.some_ne_none _, some made, rfl⟩) (fun _ => rfl) fun _ => rfl

theorem parts_delete {r : Resource} {ns name : Option String} (h : o.Calls (.delete r ns name)) :
    o.Parts (Access.delete r ns name) :=
  parts_call h (fun _ => ⟨Option.some_ne_none _, true, rfl⟩) (fun _ => rfl) fun _ => rfl

theorem keeps_tracking {volume : String} {a : Action α} :
    (Action.tracking volume a).Keeps (fun _ _ => True) (fun _ p => ¬Past.Broken p) past :=
  Action.Keeps.tracking trivial (Prog.keeps_any _ _) (fun _ _ _ => trivial)
    fun _ _ _ => Past.not_broken_cons fun _ => nofun

theorem keeps_withdraw {s : Setup} {volume : Object} (h : ¬Past.Broken past) :
    (Provisioning.withdraw s volume).Keeps (fun _ _ => True) (fun _ p => ¬Past.Broken p) past :=
  Action.keeps_lift (fun _ _ => keeps_tracking) fun _ _ => h

theorem parts_retried {a : Action α} (h : ∀ past, ¬Past.Broken past →
    a.Keeps (fun _ _ => True) (fun _ p => ¬Past.Broken p) past) : o.Parts (retried a) :=
  fun past hp => Action.Keeps.orElseFault (h past hp) (fun _ _ => .done) fun _ _ => .later

theorem parts_claimed {s : Setup} {claim : Object} (h : (claimed claim).WellFormed) :
    (claimed claim).Parts (Controller.claimed s claim) := by
  obtain ⟨m, hm⟩ := Option.isSome_iff_exists.1 h.metadata
  obtain ⟨spec, hspec⟩ := Option.isSome_iff_exists.1 h.spec
  obtain ⟨class?, hclass⟩ := Claim.exists_className hm hspec
  apply parts_lift (Claim.spec_eq_ok hspec _)
  apply parts_ite (parts_pure _)
  apply parts_lift hclass
  cases hname : class?.filter (· ≠ "") with
  | none => exact parts_pure _
  | some name =>
    obtain rfl := (Option.filter_eq_some_iff.1 hname).1
    apply Parts.bind (parts_get (.readClass hclass))
    intro found
    cases found with
    | none => exact parts_pure _
    | some storageClass =>
      apply parts_ite (parts_pure _)
      apply Parts.bind (parts_get .readVolume)
      intro found
      cases found with
      | some _ => exact parts_pure _
      | none =>
        apply Parts.bind (parts_retried fun _ _ => keeps_tracking)
        intro volume
        apply Parts.bind (Parts.bind (parts_create .create) fun _ => parts_pure _)
        exact fun _ => parts_pure _

theorem parts_released {s : Setup} {volume : Object} (h : (released volume).WellFormed) :
    (released volume).Parts (Controller.released s volume) := by
  obtain ⟨spec, hspec⟩ := Option.isSome_iff_exists.1 h.spec
  apply parts_lift (Claim.spec_eq_ok hspec _)
  apply parts_ite (parts_pure _)
  apply Parts.bind (parts_retried fun _ => keeps_withdraw)
  intro _
  apply Parts.bind (Parts.bind (parts_delete .delete) fun _ => parts_pure _)
  exact fun _ => parts_pure _

theorem parts_handler {s : Setup} (h : o.WellFormed) : o.Parts (o.handler s) := by
  cases o with
  | claimed claim => exact parts_claimed h
  | released volume => exact parts_released h

/-- A handler of a well-formed object that fails does so in order that the request is made again, or
because one of its own calls has failed. If the latest answer to it is the failure of a call, then
this call is its own, and the failure comes out as it is. -/
theorem later_unless_broken {s : Setup} {S : Surroundings} {w : Site} {ms : List Moment}
    {r : Except Fault (List String)} (hformed : o.WellFormed) (h : (o.handler s).Runs S w ms r) :
    (∀ f, r = .error f → (∃ cause, f = .retryLater retryDelay cause) ∨
      ∃ c e, Past.Failed (ms.map Moment.turn) c e ∧ o.Calls c ∧ f = .api e) ∧
    ∀ c e, Past.Failed (ms.map Moment.turn) c e → o.Calls c ∧ r = .error (.api e) := by
  have hverdict := (parts_handler hformed [] Past.not_broken_nil).runs h
  constructor
  · rintro f rfl
    cases hverdict with
    | later => exact .inl ⟨_, rfl⟩
    | broken hfailed hcalls => exact .inr ⟨_, _, hfailed, hcalls, rfl⟩
  · intro c e hlast
    cases hverdict with
    | done hsound => exact absurd ⟨c, e, hlast⟩ hsound
    | later hsound => exact absurd ⟨c, e, hlast⟩ hsound
    | broken hfailed hcalls =>
      cases hlast.1.symm.trans hfailed.1
      exact ⟨hcalls, rfl⟩

def refusal : ApiError := .refused 500 "Internal Server Error" .none

def refused : List Moment × Prog (Except Fault (List String)) :=
  Prog.replay Sample.site ((claimed Sample.claim).handler .plain).run [.refusal]

theorem runs_refused : ((claimed Sample.claim).handler .plain).Runs .alone Sample.site refused.1
    (.error (.api refusal)) :=
  Prog.runs_replay (List.forall_mem_singleton.2 Incident.among_refusal) (by decide +kernel)

theorem wellFormed_sample : (claimed Sample.claim).WellFormed := ⟨by decide, by decide⟩

theorem later_unless_broken_refused :
    (claimed Sample.claim).Calls (.read .storageClass none (some "export")) ∧
      ((claimed Sample.claim).handler .plain).Runs .alone Sample.site refused.1
        (.error (.api refusal)) := by
  have hfailed : Past.Failed (refused.1.map Moment.turn)
      (.read .storageClass none (some "export")) refusal := ⟨rfl, rfl⟩
  exact ⟨((later_unless_broken wellFormed_sample runs_refused).2 _ _ hfailed).1, runs_refused⟩

/-- Not every failure of a handler leads to the same request later, even if nobody else acts. -/
theorem not_always_later : ¬∀ (s : Setup) (o : Occasion) (w : Site) (ms : List Moment)
    (r : Except Fault (List String)), o.WellFormed → (o.handler s).Runs .alone w ms r →
      ∀ f, r = .error f → ∃ cause, f = .retryLater retryDelay cause := by
  intro h
  obtain ⟨cause, hcause⟩ := h _ _ _ _ _ wellFormed_sample runs_refused _ rfl
  cases hcause

end Occasion

end Controller

end VolumeExport
