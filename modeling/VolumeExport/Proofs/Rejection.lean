import VolumeExport.Proofs.Backing.Standstill
import VolumeExport.Proofs.Confinement
import VolumeExport.Proofs.Endurance

namespace VolumeExport

open Past (Since)
open VolumeExport.Action (either)

def Surroundings.unreliable : Surroundings := ⟨fun _ => True, fun w w' => w' = w⟩

theorem Prog.keeps_any {α : Type} (p : Prog α) (past : Past) :
    p.Keeps (fun _ _ => True) (fun _ _ => True) past := by
  intro n
  induction n generalizing p past with
  | zero => trivial
  | succ n ih =>
    rw [KeepsFor]
    split
    · trivial
    · exact ⟨trivial, fun x => ih _ _⟩

def Request.Idle (q : Request) : Prop := ∀ c, q = .call c → c.writes = false

theorem Request.Looks.idle {q : Request} (h : q.Looks) : q.Idle := by
  rintro c rfl
  cases c with
  | read => rfl
  | list => rfl
  | _ => exact h.elim

theorem Site.cluster_of_idle {faults : ApiError → Prop} {w w' : Site} {q : Request} {x : q.Answer}
    (h : w.Answers faults q x w') (hq : q.Idle) : w'.cluster = w.cluster := by
  cases q with
  | call c =>
    rcases h with ⟨-, rfl⟩ | ⟨e, -, -, rfl⟩
    · cases c with
      | read => rfl
      | list => rfl
      | create => cases hq _ rfl
      | replace => cases hq _ rfl
      | delete => cases hq _ rfl
    · rfl
  | _ => exact cluster_eq_of_answers h fun _ => nofun

namespace Prog

variable {α : Type} {w : Site} {p rest : Prog α} {ms : List Moment}

/-- Where nobody else acts and nothing is written, the cluster stays as it is. -/
theorem Course.cluster_of_idle (h : p.Course .unreliable w ms rest)
    (hidle : ∀ m ∈ ms, m.turn.request.Idle) : (w.along ms).cluster = w.cluster := by
  induction h with
  | start => rfl
  | answer _ _ hmoves hx ih =>
    obtain ⟨hlast, hearlier⟩ := List.forall_mem_cons.1 hidle
    cases hmoves
    exact (Site.cluster_of_idle hx hlast).trans (ih hearlier)

end Prog

namespace Backing

namespace Procedure

variable {P : Procedure} {volume : String} {done later : List Step} {β : Type} {a : Action β}

/-- An operation that goes through steps fails in one of them. -/
theorem Staged.blames (h : P.Staged volume done later β a) :
    a.Blames fun f _ => ∃ place cause, f = .step place volume cause := by
  induction h with
  | last =>
    intro past
    exact Action.Keeps.orElseFault (Prog.keeps_any _ past) (fun _ _ _ => trivial)
      fun cause _ _ => ⟨_, cause, rfl⟩
  | step _ _ ih =>
    apply Action.Blames.bind _ ih
    intro past
    exact Action.Keeps.orElseFault (Prog.keeps_any _ past) (fun _ _ _ => trivial)
      fun cause _ _ => ⟨_, cause, rfl⟩

end Procedure

end Backing

namespace Provisioning

variable {s : Setup} {order : Order} {past : Past}

/-- Why a volume is not provided: a step of making the backing has failed, a time had no date, or
nothing but classes and nodes was looked at. -/
inductive Rejected (order : Order) (before : Past) : Fault → Past → Prop
  | step {place cause p} : Rejected order before (.step place order.volume cause) p
  | clock {t p} : (∃ e ∈ p, ¬e.request.Timely e.answer) → Rejected order before (.clock t) p
  | looked {f p} : Since Request.Looks before p → Rejected order before f p

theorem keeps_provide_rejected :
    (provide s order).Keeps (fun _ _ => True)
      (fun r p => ∃ before, p = ⟨.untrack order.volume, ()⟩ :: before ∧
        ∀ f, r = .error f → Rejected order (⟨.track order.volume, ()⟩ :: past) f before)
      past := by
  have hlook (q : Request) (p : Past) (_ : q.Looks) : True := trivial
  apply Action.Keeps.tracking trivial (M := either (fun _ _ => True)
    (Rejected order (⟨.track order.volume, ()⟩ :: past)))
  · apply Action.keeps_lift _ fun _ _ => .looked (.refl _ _)
    intro spec _
    apply Action.Keeps.bind (Action.keeps_forM (otherModes spec) (Since.refl Request.Looks _)
      fun mode p hp => (keeps_noteMode hlook).mono (fun _ _ h => h) fun _ _ h => hp.trans h)
      _ fun _ _ => .looked
    intro _ p₁ h₁
    apply Action.Keeps.bind (Claim.keeps_config hlook) _ fun _ _ h => .looked (h₁.trans h)
    intro config p₂ h₂
    apply Action.keeps_ite
    · intro _
      exact Action.Keeps.bind
        (M := either (fun _ _ => False) (Rejected order (⟨.track order.volume, ()⟩ :: past)))
        (Action.keeps_fail (.looked (h₁.trans h₂))) (fun _ _ h => h.elim) fun _ _ h => h
    · intro _
      apply Action.Keeps.bind (keeps_requireNode hlook) _
        fun _ _ h => .looked ((h₁.trans h₂).trans h)
      intro _ p₃ h₃
      cases capacity? spec with
      | none => exact Action.keeps_fail (.looked ((h₁.trans h₂).trans h₃))
      | some capacity =>
        apply Action.Keeps.bind (Backing.staged_create.blames p₃)
        · intro address p₄ _
          apply Action.Keeps.bind (M := either (fun _ _ => True)
            (Rejected order (⟨.track order.volume, ()⟩ :: past)))
          · exact Action.keeps_log trivial trivial fun _ => .clock ⟨_, List.mem_cons_self, nofun⟩
          · intro _ p₅ _
            apply Action.keeps_ask trivial
            intro t
            apply Action.keeps_ofExcept fun _ _ => trivial
            intro f hf
            obtain ⟨t, rfl, rfl⟩ := Backing.clock_of_hooked rfl hf
            exact .clock ⟨_, List.mem_cons_self, nofun⟩
          · exact fun _ _ h => h
        · intro f p hf
          obtain ⟨place, cause, rfl⟩ := hf
          exact .step
  · exact fun _ _ _ => trivial
  · intro r p hr
    refine ⟨p, rfl, fun f hf => ?_⟩
    rw [hf] at hr
    exact hr

theorem Provides.erase_eq {faults : ApiError → Prop} {w w' : Site} {q : Request} {x : q.Answer}
    {p : Past} (h : Provides s order q p) (hx : w.Answers faults q x w') :
    w'.tracker.erase order.volume = w.tracker.erase order.volume := by
  cases h with
  | look hq => rw [Site.tracker_of_within hx hq.aside]
  | backing _ _ hq => rw [Site.tracker_of_within hx hq.within]
  | track =>
    obtain rfl : w' = w.tracking (w.tracker.add order.volume) := hx
    exact w.tracker.erase_add order.volume
  | untrack =>
    obtain rfl : w' = w.tracking (w.tracker.erase order.volume) := hx
    exact w.tracker.erase_erase order.volume

theorem tracker_along {w : Site} {ms : List Moment} {rest : Prog (Except Fault Object)}
    (h : (provide s order).run.Course .unreliable w ms rest) :
    (w.along ms).tracker.erase order.volume = w.tracker.erase order.volume := by
  have hkeeps : (provide s order).Keeps (Provides s order) _ [] :=
    keeps_provide (fun _ _ _ he => nomatch he) fun _ => rfl
  have hcourse : (provide s order).run.Course .unreliable (w.along []) ms rest := h
  have hinv := hcourse.inv (I := fun ms => (w.along ms).tracker.erase order.volume =
    w.tracker.erase order.volume) hkeeps rfl
  rw [List.append_nil] at hinv
  apply hinv
  intro m ms before hms hmoves hx hmay
  obtain ⟨v, e, v'⟩ := m
  obtain rfl : v = w.along ms := hmoves
  exact (hmay.erase_eq hx).trans hms

/-- However a provision ends, the tracker is then as before without the name of the volume. If it
fails, then in a step of making the backing, or because the time was asked for and had no date, or
without any write and with the cluster as before. -/
theorem rejected_without_trace {w : Site} {ms : List Moment} {r : Except Fault Object}
    (h : (provide s order).Runs .unreliable w ms r) :
    (w.along ms).tracker = w.tracker.erase order.volume ∧
    ∀ f, r = .error f →
      (∃ place cause, f = .step place order.volume cause) ∨
      (∃ t, f = .clock t ∧ ∃ m ∈ ms, ¬m.Timely) ∨
      (∀ m ∈ ms, ∀ c, m.turn.request = .call c → c.writes = false) ∧
        (w.along ms).cluster = w.cluster := by
  obtain ⟨before, hpast, hrejected⟩ := keeps_provide_rejected.runs h
  obtain ⟨m, earlier, rfl, hturn, rfl⟩ := List.map_eq_cons_iff.1 hpast
  obtain ⟨rest, hcourse, -⟩ := h
  constructor
  · obtain ⟨_, hearlier⟩ := hcourse.tail
    obtain ⟨hmoves, hx⟩ := hcourse.moment
    obtain ⟨v, t, v'⟩ := m
    cases hturn
    obtain rfl : v' = v.tracking (v.tracker.erase order.volume) := hx
    obtain rfl : v = w.along earlier := hmoves
    exact tracker_along hearlier
  · intro f hf
    cases hrejected f hf with
    | step => exact .inl ⟨_, _, rfl⟩
    | clock hclock =>
      obtain ⟨e, he, huntimely⟩ := hclock
      obtain ⟨m', hm', rfl⟩ := List.mem_map.1 he
      exact .inr (.inl ⟨_, rfl, m', List.mem_cons_of_mem _ hm', huntimely⟩)
    | looked hsince =>
      have hidle : ∀ m' ∈ m :: earlier, m'.turn.request.Idle := by
        intro m' hm'
        rcases List.mem_cons.1 hm' with rfl | hm'
        · rw [hturn]
          intro c hc
          cases hc
        · rcases hsince.new (List.mem_map_of_mem hm') with htrack | hlooks
          · rw [List.mem_singleton.1 htrack]
            intro c hc
            cases hc
          · exact hlooks.idle
      exact .inr (.inr ⟨hidle, hcourse.cluster_of_idle hidle⟩)

def sampleOrder : Order := ⟨"pvc-u1", Sample.claim, Sample.storageClass⟩

def watched : Site := Sample.site.tracking ((Tracker.empty.add "pvc-u1").add "pvc-u2")

/-- A provision that is told that there is no such class. -/
def misled : List Moment × Prog (Except Fault Object) :=
  Prog.replay watched (provide .plain sampleOrder).run [.none, .fault .notFound, .none]

theorem runs_misled : (provide .plain sampleOrder).Runs .unreliable watched misled.1
    (.error (.volume (.refused (.unknownClass "export")))) := by
  apply Prog.runs_replay _ (by decide +kernel)
  have hnone : Incident.none.among .unreliable := ⟨fun _ => rfl, fun _ _ => trivial⟩
  have hmissing : (Incident.fault .notFound).among .unreliable :=
    ⟨fun _ => rfl, fun _ _ => trivial⟩
  simp only [List.forall_mem_cons]
  exact ⟨hnone, hmissing, hnone, nofun⟩

theorem rejected_without_trace_misled :
    (watched.along misled.1).tracker = watched.tracker.erase "pvc-u1" ∧
    (∀ m ∈ misled.1, ∀ c, m.turn.request = .call c → c.writes = false) ∧
    (watched.along misled.1).cluster = watched.cluster := by
  obtain ⟨htracker, hrejected⟩ := rejected_without_trace runs_misled
  rcases hrejected _ rfl with ⟨_, _, hstep⟩ | ⟨_, hclock, -⟩ | hidle
  · cases hstep
  · cases hclock
  · exact ⟨htracker, hidle⟩

end Provisioning

end VolumeExport
