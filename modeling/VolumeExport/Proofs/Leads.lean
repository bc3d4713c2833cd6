import VolumeExport.Proofs.Course

namespace VolumeExport

namespace Prog

variable {α β σ : Type} {goal : α → Site → Prop} {w : Site}

def LeadsFor (goal : α → Site → Prop) : Nat → Prog α → Site → Prop
  | 0, _, _ => True
  | n + 1, p, w =>
    match p.head with
    | .done a => goal a w
    | .ask q k => ∀ x w', w.Answers Site.Mute q x w' → LeadsFor goal n (k x) w'

/-- However calls fail, where a program ends the goal holds. -/
def Leads (goal : α → Site → Prop) (p : Prog α) (w : Site) : Prop := ∀ n, LeadsFor goal n p w

theorem LeadsFor.mono {goal' : α → Site → Prop} (hgoal : ∀ a w, goal a w → goal' a w) {n : Nat}
    {p : Prog α} (h : LeadsFor goal n p w) : LeadsFor goal' n p w := by
  induction n generalizing p w with
  | zero => trivial
  | succ n ih =>
    simp only [LeadsFor] at h ⊢
    split at h
    · exact hgoal _ _ h
    · exact fun x w' hx => ih (h x w' hx)

theorem LeadsFor.pred {n : Nat} {p : Prog α} (h : LeadsFor goal (n + 1) p w) :
    LeadsFor goal n p w := by
  induction n generalizing p w with
  | zero => trivial
  | succ n ih =>
    rw [LeadsFor] at h ⊢
    split at h
    · exact h
    · exact fun x w' hx => ih (h x w' hx)

theorem LeadsFor.bind {M : α → Site → Prop} {goal : β → Site → Prop} {f : α → Prog β} {n : Nat}
    {p : Prog α} (h : LeadsFor M n p w) (hf : ∀ a w, M a w → LeadsFor goal n (f a) w) :
    LeadsFor goal n (p.bind f) w := by
  induction n generalizing p w with
  | zero => trivial
  | succ n ih =>
    rw [LeadsFor] at h ⊢
    rw [head_bind]
    cases hp : p.head with
    | done a =>
      rw [hp] at h
      have hfa := hf a w h
      rwa [LeadsFor] at hfa
    | ask q k =>
      rw [hp] at h
      exact fun x w' hx => ih (h x w' hx) fun a w ha => (hf a w ha).pred

theorem Leads.mono {goal' : α → Site → Prop} {p : Prog α} (h : p.Leads goal w)
    (hgoal : ∀ a w, goal a w → goal' a w) : p.Leads goal' w :=
  fun n => (h n).mono hgoal

theorem leads_done {a : α} (h : goal a w) : Leads goal (.done a) w
  | 0 => trivial
  | _ + 1 => h

theorem leads_ask {q : Request} {k : q.Answer → Prog α}
    (h : ∀ x w', w.Answers Site.Mute q x w' → Leads goal (k x) w') : Leads goal (.ask q k) w
  | 0 => trivial
  | n + 1 => fun x w' hx => h x w' hx n

theorem Leads.bind {M : α → Site → Prop} {goal : β → Site → Prop} {p : Prog α} {f : α → Prog β}
    (h : p.Leads M w) (hf : ∀ a w, M a w → (f a).Leads goal w) : (p.bind f).Leads goal w :=
  fun n => (h n).bind fun a w ha => hf a w ha n

theorem leads_loop {I : σ → Site → Prop} {M : β → Site → Prop} {q : Request}
    {round : σ → q.Answer → Prog (σ ⊕ β)} {k : β → Prog α} {s : σ} (h : I s w)
    (hround : ∀ s w, I s w → ∀ x w', w.Answers Site.Mute q x w' →
      (round s x).Leads (fun r w => r.elim (I · w) (M · w)) w')
    (hk : ∀ b w, M b w → (k b).Leads goal w) : Leads goal (.loop s q round k) w := by
  intro n
  induction n generalizing s w with
  | zero => trivial
  | succ n ih =>
    refine fun x w' hx => (hround s w h x w' hx n).bind fun r w hr => ?_
    cases r with
    | inl s => exact ih hr
    | inr b => exact hk b w hr n

theorem Leads.head {p : Prog α} (h : p.Leads goal w) :
    match p.head with
    | .done a => goal a w
    | .ask q k => ∀ x w', w.Answers Site.Mute q x w' → (k x).Leads goal w' := by
  have h' := fun n => h (n + 1)
  simp only [LeadsFor] at h'
  cases hp : p.head with
  | done a =>
    simp only [hp] at h'
    exact h' 0
  | ask q k =>
    simp only [hp] at h'
    exact fun x w' hx n => h' n x w' hx

theorem Leads.course {p rest : Prog α} {ms : List Moment} (h : p.Leads goal w)
    (hcourse : p.Course .alone w ms rest) : rest.Leads goal (w.along ms) := by
  induction hcourse with
  | start => exact h
  | answer _ hhead hmoves hx ih =>
    have hask := ih.head
    rw [hhead] at hask
    cases hmoves
    exact hask _ _ hx

theorem Leads.runs {p : Prog α} {ms : List Moment} {a : α} (h : p.Leads goal w)
    (hruns : p.Runs .alone w ms a) : goal a (w.along ms) := by
  obtain ⟨rest, hcourse, hdone⟩ := hruns
  have hend := (h.course hcourse).head
  rwa [hdone] at hend

theorem Leads.and {goal' : α → Site → Prop} {p : Prog α} (h : p.Leads goal w)
    (h' : p.Leads goal' w) : p.Leads (fun a w => goal a w ∧ goal' a w) w := by
  intro n
  induction n generalizing p w with
  | zero => trivial
  | succ n ih =>
    have hhead := h.head
    have hhead' := h'.head
    rw [LeadsFor]
    cases hp : p.head with
    | done a =>
      rw [hp] at hhead hhead'
      exact ⟨hhead, hhead'⟩
    | ask q k =>
      rw [hp] at hhead hhead'
      exact fun x w' hx => ih (hhead x w' hx) (hhead' x w' hx)

/-- What each request that a program may make keeps of a site the program keeps. -/
theorem Keeps.leads {may : Request → Past → Prop} {M : α → Past → Prop} {past : Past}
    {I : Site → Prop} {p : Prog α} (h : p.Keeps may M past) (hw : I w)
    (hstep : ∀ q past, may q past → ∀ w x w', I w → w.Answers Site.Mute q x w' → I w') :
    p.Leads (fun _ w => I w) w := by
  intro n
  induction n generalizing p past w with
  | zero => trivial
  | succ n ih =>
    have hhead := h.head
    rw [LeadsFor]
    cases hp : p.head with
    | done a => exact hw
    | ask q k =>
      rw [hp] at hhead
      exact fun x w' hx => ih (hhead.2 x) (hstep q _ hhead.1 w x w' hw hx)

theorem Ends.leads {M : α → Site → Prop} {p : Prog α} (h : p.Ends M w) (hleads : p.Leads goal w) :
    p.Ends (fun a w => M a w ∧ goal a w) w := by
  induction h with
  | done hp ha =>
    have hend := hleads.head
    rw [hp] at hend
    exact .done hp ⟨ha, hend⟩
  | @ask p q k w hp _ ih =>
    have hask := hleads.head
    rw [hp] at hask
    refine .ask hp fun x w' hx => ih x w' hx (hask x w' ?_)
    obtain ⟨hanswers, -⟩ := hx
    cases q with
    | call c => exact hanswers.imp_right fun ⟨_, he, _⟩ => he.elim
    | _ => exact hanswers

end Prog

namespace Action

variable {α β σ : Type} {goal : Except Fault α → Site → Prop} {w : Site}

def Leads (goal : Except Fault α → Site → Prop) (a : Action α) (w : Site) : Prop :=
  Prog.Leads goal a.run w

theorem Leads.mono {goal' : Except Fault α → Site → Prop} {a : Action α} (h : a.Leads goal w)
    (hgoal : ∀ r w, goal r w → goal' r w) : a.Leads goal' w :=
  Prog.Leads.mono h hgoal

theorem leads_pure {x : α} (h : goal (.ok x) w) : Leads goal (pure x) w := Prog.leads_done h

theorem leads_fail {f : Fault} (h : goal (.error f) w) : Leads goal (fail f) w :=
  Prog.leads_done h

theorem Leads.bind {M : Except Fault α → Site → Prop} {goal : Except Fault β → Site → Prop}
    {a : Action α} {f : α → Action β} (h : a.Leads M w)
    (hok : ∀ x w, M (.ok x) w → (f x).Leads goal w)
    (herror : ∀ e w, M (.error e) w → goal (.error e) w) : Leads goal (a >>= f) w := by
  apply Prog.Leads.bind h
  intro r w hr
  cases r with
  | ok x => exact hok x w hr
  | error e => exact Prog.leads_done (herror e w hr)

theorem leads_ask {q : Request} {goal : Except Fault β → Site → Prop} {f : q.Answer → Action β}
    (h : ∀ x w', w.Answers Site.Mute q x w' → (f x).Leads goal w') :
    Leads goal (request q >>= f) w :=
  Prog.leads_ask h

theorem leads_ite {c : Prop} [Decidable c] {a b : Action α} (ha : c → a.Leads goal w)
    (hb : ¬c → b.Leads goal w) : Leads goal (if c then a else b) w := by
  split
  · exact ha ‹_›
  · exact hb ‹_›

theorem leads_ofExcept_bind {ε : Type} {g : ε → Fault} {x : Except ε α}
    {goal : Except Fault β → Site → Prop} {f : α → Action β}
    (hok : ∀ a, x = .ok a → (f a).Leads goal w)
    (herror : ∀ e, x = .error e → goal (.error (g e)) w) :
    Leads goal (ofExcept g x >>= f) w := by
  cases x with
  | ok a => exact hok a rfl
  | error e => exact Prog.leads_done (herror e rfl)

theorem leads_log {text : String} {goal : Except Fault Unit → Site → Prop}
    (h : ∀ r, goal r w) : (log text).Leads goal w := by
  apply leads_ask
  intro x w' hx
  obtain rfl : w' = w := hx
  cases x with
  | ok => exact leads_pure (h _)
  | error e => exact leads_fail (h _)

theorem Leads.outcome {goal : Except Fault (Except Fault α) → Site → Prop}
    {M : Except Fault α → Site → Prop} {a : Action α} (h : a.Leads M w)
    (hgoal : ∀ r w, M r w → goal (.ok r) w) : a.outcome.Leads goal w :=
  Prog.Leads.bind h fun r w hr => Prog.leads_done (hgoal r w hr)

theorem Leads.orElseFault {M : Except Fault α → Site → Prop} {a : Action α} {f : Fault → Fault}
    (h : a.Leads M w) (hok : ∀ x w, M (.ok x) w → goal (.ok x) w)
    (herror : ∀ e w, M (.error e) w → goal (.error (f e)) w) :
    (a.orElseFault f).Leads goal w := by
  apply Leads.bind (M := either (fun r w => M r w) fun _ _ => False)
    (h.outcome fun _ _ hr => hr) _ fun _ _ hr => hr.elim
  intro r w hr
  cases r with
  | ok x => exact leads_pure (hok x w hr)
  | error e => exact leads_fail (herror e w hr)

theorem Yields.leads {M goal : α → Site → Prop} {N : Fault → Site → Prop} {a : Action α}
    (h : a.Yields M w) (hleads : a.Leads (either goal N) w) : a.Yields goal w := by
  apply Ends.mono (Prog.Ends.leads h hleads)
  intro r w hr
  cases r with
  | ok x => exact hr.2
  | error e => exact hr.1

theorem leads_rounds {I : σ → Site → Prop} {q : Request} {round : σ → q.Answer → Action (σ ⊕ α)}
    {s : σ} (h : I s w)
    (hround : ∀ s w, I s w → ∀ x w', w.Answers Site.Mute q x w' →
      (round s x).Leads (either (fun r w => r.elim (I · w) fun a => goal (.ok a) w)
        fun e w => goal (.error e) w) w') :
    (rounds s q round).Leads goal w := by
  apply Prog.leads_loop (M := goal) h _ fun r w hr => Prog.leads_done hr
  intro s w hs x w' hx
  apply Prog.Leads.bind (hround s w hs x w' hx)
  intro r w hr
  cases r with
  | ok r =>
    cases r with
    | inl s => exact Prog.leads_done hr
    | inr a => exact Prog.leads_done hr
  | error e => exact Prog.leads_done hr

/-- Attempts at an action, one after the other, each of which has ended with a value or a fault. -/
inductive Attempts (S : Surroundings) (w : Site) (a : Action α) : List Moment → Prop
  | start : Attempts S w a []
  | again {past ms r} : Attempts S w a past → a.run.Runs S (w.along past) ms r →
      Attempts S w a (ms ++ past)

/-- What every attempt keeps holds after any number of them. -/
theorem Attempts.inv {I : Site → Prop} {a : Action α} {past : List Moment}
    (h : Attempts .alone w a past) (hstart : I w)
    (hattempt : ∀ v, I v → a.Leads (fun _ v => I v) v) : I (w.along past) := by
  induction h with
  | start => exact hstart
  | @again past ms r _ hruns ih =>
    rw [Site.along_append]
    exact (hattempt _ ih).runs hruns

theorem Attempts.inv_moments {S : Surroundings} {may : Request → Past → Prop}
    {M : Except Fault α → Past → Prop} {I : List Moment → Prop} {a : Action α}
    {past : List Moment} (h : a.Attempts S w past) (ha : a.Keeps may M []) (hstart : I [])
    (hstep : ∀ m ms before, I ms → S.moves (w.along ms) m.before →
      m.before.Answers S.faults m.turn.request m.turn.answer m.after →
      may m.turn.request before → I (m :: ms)) : I past := by
  induction h with
  | start => exact hstart
  | again _ hruns ih =>
    obtain ⟨_, hcourse, -⟩ := hruns
    exact hcourse.inv ha ih hstep

end Action

end VolumeExport
