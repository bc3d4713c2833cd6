import VolumeExport.Proofs.Keeps
import VolumeExport.Proofs.Site

namespace VolumeExport

def Request.Timely : (q : Request) → q.Answer → Prop
  | .now, x => x.isOk
  | .log _, x => x.isOk
  | _, _ => True

/-- How a request may be answered when nothing fails. Times may be any. -/
def Site.Succeeds (w : Site) (q : Request) (x : q.Answer) (w' : Site) : Prop :=
  w.Answers (fun _ => False) q x w' ∧ q.Timely x

theorem Site.succeeds_reply (w : Site) (q : Request) :
    w.Succeeds q (w.reply q).1 (w.reply q).2 := by
  refine ⟨w.answers_reply q, ?_⟩
  cases q with
  | now => rfl
  | log => rfl
  | _ => trivial

theorem Site.eq_of_call {w w' : Site} {c : Call} {x : Except ApiError c.Result}
    (h : w.Succeeds (.call c) x w') : x = (w.cluster.respond c).1 ∧ w' = w.after c := by
  rcases h.1 with h | ⟨e, he, -⟩
  · exact h
  · exact he.elim

namespace Prog

variable {α β σ : Type} {goal : α → Site → Prop} {w : Site}

/-- When nothing fails and nobody else acts, a program comes to an end, and there the goal holds. -/
inductive Ends (goal : α → Site → Prop) : Prog α → Site → Prop
  | done {p a w} : p.head = .done a → goal a w → Ends goal p w
  | ask {p q k w} : p.head = .ask q k → (∀ x w', w.Succeeds q x w' → Ends goal (k x) w') →
      Ends goal p w

theorem Ends.of_head {p p' : Prog α} (h : Ends goal p w) (hhead : p'.head = p.head) :
    Ends goal p' w := by
  cases h with
  | done hp ha => exact .done (hhead.trans hp) ha
  | ask hp hk => exact .ask (hhead.trans hp) hk

theorem Ends.mono {goal' : α → Site → Prop} {p : Prog α} (h : Ends goal p w)
    (hgoal : ∀ a w, goal a w → goal' a w) : Ends goal' p w := by
  induction h with
  | done hp ha => exact .done hp (hgoal _ _ ha)
  | ask hp _ ih => exact .ask hp ih

theorem Ends.bind {M : α → Site → Prop} {goal : β → Site → Prop} {p : Prog α} {f : α → Prog β}
    (h : Ends M p w) (hf : ∀ a w, M a w → Ends goal (f a) w) : Ends goal (p.bind f) w := by
  induction h with
  | done hp ha =>
    apply (hf _ _ ha).of_head
    rw [head_bind, hp]
  | ask hp _ ih =>
    refine .ask ?_ ih
    rw [head_bind, hp]

theorem ends_loop {M : β → Site → Prop} {s : σ} {q : Request}
    {round : σ → q.Answer → Prog (σ ⊕ β)} {k : β → Prog α}
    (hround : ∀ x w', w.Succeeds q x w' →
      Ends (fun r w => ∃ b, r = .inr b ∧ M b w) (round s x) w')
    (hk : ∀ b w, M b w → Ends goal (k b) w) : Ends goal (.loop s q round k) w := by
  refine .ask rfl fun x w' hx => (hround x w' hx).bind ?_
  intro _ w'' hafter
  obtain ⟨b, rfl, hb⟩ := hafter
  exact hk b w'' hb

/-- Two goals that a program comes to are met at one of its ends. -/
theorem Ends.meet {goal' : α → Site → Prop} {p : Prog α}
    (h : p.Ends goal w) (h' : p.Ends goal' w) : ∃ a w', goal a w' ∧ goal' a w' := by
  induction h with
  | @done p a w hp ha =>
    cases h' with
    | done hp' ha' =>
      cases hp.symm.trans hp'
      exact ⟨a, w, ha, ha'⟩
    | ask hp' => cases hp.symm.trans hp'
  | @ask p q k w hp _ ih =>
    cases h' with
    | done hp' => cases hp.symm.trans hp'
    | ask hp' hk' =>
      cases hp.symm.trans hp'
      have hreply := w.succeeds_reply q
      exact ih _ _ hreply (hk' _ _ hreply)

theorem Ends.run {p : Prog α} (h : Ends goal p w) :
    ∃ n a w', p.run (fun q w => w.reply q) n w = (some a, w') ∧ goal a w' := by
  induction h with
  | @done p a w hp ha =>
    refine ⟨1, a, w, ?_, ha⟩
    rw [Prog.run, hp]
  | @ask p q k w hp _ ih =>
    obtain ⟨n, a, w', hrun, ha⟩ := ih _ _ (w.succeeds_reply q)
    refine ⟨n + 1, a, w', ?_, ha⟩
    rw [Prog.run, hp]
    exact hrun

end Prog

namespace Action

variable {α β σ : Type} {goal : Except Fault α → Site → Prop} {w : Site}

def Ends (goal : Except Fault α → Site → Prop) (a : Action α) (w : Site) : Prop :=
  Prog.Ends goal a.run w

/-- When nothing fails and nobody else acts, an action ends with a value. -/
def Yields (goal : α → Site → Prop) (a : Action α) (w : Site) : Prop :=
  a.Ends (either goal fun _ _ => False) w

theorem Ends.mono {goal' : Except Fault α → Site → Prop} {a : Action α} (h : a.Ends goal w)
    (hgoal : ∀ r w, goal r w → goal' r w) : a.Ends goal' w :=
  Prog.Ends.mono h hgoal

theorem Yields.mono {goal goal' : α → Site → Prop} {a : Action α} (h : a.Yields goal w)
    (hgoal : ∀ x w, goal x w → goal' x w) : a.Yields goal' w := by
  apply Ends.mono h
  intro r w hr
  cases r with
  | ok x => exact hgoal x w hr
  | error e => exact hr

theorem ends_pure {x : α} (h : goal (.ok x) w) : Ends goal (pure x) w := .done rfl h

theorem yields_pure {goal : α → Site → Prop} {x : α} (h : goal x w) : Yields goal (pure x) w :=
  ends_pure h

theorem ends_fail {f : Fault} (h : goal (.error f) w) : Ends goal (fail f) w := .done rfl h

theorem Ends.bind {M : Except Fault α → Site → Prop} {goal : Except Fault β → Site → Prop}
    {a : Action α} {f : α → Action β} (h : a.Ends M w)
    (hok : ∀ x w, M (.ok x) w → (f x).Ends goal w)
    (herror : ∀ e w, M (.error e) w → goal (.error e) w) : Ends goal (a >>= f) w := by
  apply Prog.Ends.bind h
  intro r w hr
  cases r with
  | ok x => exact hok x w hr
  | error e => exact .done rfl (herror e w hr)

theorem Yields.bind {M : α → Site → Prop} {goal : Except Fault β → Site → Prop} {a : Action α}
    {f : α → Action β} (h : a.Yields M w) (hf : ∀ x w, M x w → (f x).Ends goal w) :
    Ends goal (a >>= f) w :=
  Ends.bind h hf fun _ _ he => he.elim

theorem ends_ask {q : Request} {goal : Except Fault β → Site → Prop} {f : q.Answer → Action β}
    (h : ∀ x w', w.Succeeds q x w' → (f x).Ends goal w') : Ends goal (request q >>= f) w :=
  .ask rfl h

theorem Yields.discard {M : Site → Prop} {a : Action α} (h : a.Yields (fun _ w' => M w') w) :
    (discard a).Yields (fun _ w' => M w') w :=
  Yields.bind h fun _ _ hw => yields_pure hw

theorem ends_lift {goal : Except Fault β → Site → Prop} {x : Except Fault α} {a : α}
    {f : α → Action β} (hx : x = .ok a) (h : (f a).Ends goal w) : Ends goal (liftM x >>= f) w := by
  rw [hx]
  exact h

theorem ends_ofExcept {ε : Type} {g : ε → Fault} {goal : Except Fault β → Site → Prop}
    {x : Except ε α} {a : α} {f : α → Action β} (hx : x = .ok a) (h : (f a).Ends goal w) :
    Ends goal (ofExcept g x >>= f) w := by
  rw [hx]
  exact h

theorem ends_ite {c : Prop} [Decidable c] {a b : Action α} (ha : c → a.Ends goal w)
    (hb : ¬c → b.Ends goal w) : Ends goal (if c then a else b) w := by
  split
  · exact ha ‹_›
  · exact hb ‹_›

theorem yields_forM {f : α → Action Unit} (xs : List α)
    (hf : ∀ x, (f x).Yields (fun _ w' => w' = w) w) :
    Yields (fun _ w' => w' = w) (xs.forM f) w := by
  induction xs with
  | nil => exact yields_pure rfl
  | cons x xs ih =>
    apply Yields.bind (hf x)
    rintro _ _ rfl
    exact ih

theorem yields_log {text : String} : (log text).Yields (fun _ w' => w' = w) w := by
  apply ends_ask
  intro x w' hx
  cases x with
  | ok => exact yields_pure hx.1
  | error e => cases hx.2

theorem Ends.outcome {M : Except Fault α → Site → Prop} {a : Action α} (h : a.Ends M w) :
    a.outcome.Yields M w :=
  Prog.Ends.bind h fun _ _ hr => .done rfl hr

theorem Yields.orElseFault {M : α → Site → Prop} {a : Action α} {f : Fault → Fault}
    (h : a.Yields M w) : (a.orElseFault f).Yields M w := by
  apply Yields.bind (Ends.outcome h)
  intro r w hr
  cases r with
  | ok x => exact yields_pure hr
  | error e => exact hr.elim

theorem yields_tracking {volume : String} {M : α → Site → Prop} {a : Action α}
    (h : a.Yields M (w.tracking (w.tracker.add volume))) :
    (tracking volume a).Yields
      (fun x w' => ∃ v, M x v ∧ w' = v.tracking (v.tracker.erase volume)) w := by
  apply ends_ask
  intro _ w' hw
  obtain rfl : w' = w.tracking (w.tracker.add volume) := hw.1
  apply Yields.bind (Ends.outcome h)
  intro r v hr
  cases r with
  | error e => exact hr.elim
  | ok x =>
    apply ends_ask
    intro _ v' hv
    obtain rfl : v' = v.tracking (v.tracker.erase volume) := hv.1
    exact yields_pure ⟨v, hr, rfl⟩

theorem yields_rounds {M : α → Site → Prop} {s : σ} {q : Request}
    {round : σ → q.Answer → Action (σ ⊕ α)}
    (hround : ∀ x w', w.Succeeds q x w' →
      (round s x).Yields (fun r w => ∃ a, r = .inr a ∧ M a w) w') :
    (rounds s q round).Yields M w := by
  apply Prog.ends_loop (M := either M fun _ _ => False) _
    fun r w hr => .done rfl hr
  intro x w' hx
  apply Prog.Ends.bind (hround x w' hx)
  intro r w hr
  cases r with
  | ok r =>
    obtain ⟨a, rfl, ha⟩ := hr
    exact .done rfl ⟨.ok a, rfl, ha⟩
  | error e => exact hr.elim

end Action

end VolumeExport
