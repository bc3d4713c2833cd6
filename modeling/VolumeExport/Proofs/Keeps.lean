import VolumeExport.Program

namespace VolumeExport

structure Turn where
  request : Request
  answer : request.Answer

/-- What a program was answered so far, the latest first. -/
abbrev Past := List Turn

namespace Prog

variable {α β σ : Type} {may may' : Request → Past → Prop} {past : Past}

def KeepsFor (may : Request → Past → Prop) (goal : α → Past → Prop) : Nat → Prog α → Past → Prop
  | 0, _, _ => True
  | n + 1, p, past =>
    match p.head with
    | .done a => goal a past
    | .ask q k => may q past ∧ ∀ x, KeepsFor may goal n (k x) (⟨q, x⟩ :: past)

/-- Whatever it is answered, a program makes only requests that it may make after its past, and
where it ends the goal holds. -/
def Keeps (may : Request → Past → Prop) (goal : α → Past → Prop) (p : Prog α) (past : Past) :
    Prop :=
  ∀ n, KeepsFor may goal n p past

theorem head_bind (p : Prog α) (f : α → Prog β) :
    (p.bind f).head =
      match p.head with
      | .done a => (f a).head
      | .ask q k => .ask q fun x => (k x).bind f := by
  cases p with
  | done a => rfl
  | ask q k => rfl
  | loop s q round k =>
    simp only [bind, head, Head.ask.injEq, heq_eq_eq, true_and]
    funext x
    rw [bind_assoc]
    congr 1
    funext r
    cases r <;> rfl

theorem KeepsFor.mono {goal goal' : α → Past → Prop} (hmay : ∀ q past, may q past → may' q past)
    (hgoal : ∀ a past, goal a past → goal' a past) {n : Nat} {p : Prog α}
    (h : KeepsFor may goal n p past) : KeepsFor may' goal' n p past := by
  induction n generalizing p past with
  | zero => trivial
  | succ n ih =>
    simp only [KeepsFor] at h ⊢
    split at h
    · exact hgoal _ _ h
    · exact ⟨hmay _ _ h.1, fun x => ih (h.2 x)⟩

theorem KeepsFor.pred {goal : α → Past → Prop} {n : Nat} {p : Prog α}
    (h : KeepsFor may goal (n + 1) p past) : KeepsFor may goal n p past := by
  induction n generalizing p past with
  | zero => trivial
  | succ n ih =>
    rw [KeepsFor] at h ⊢
    split at h
    · exact h
    · exact ⟨h.1, fun x => ih (h.2 x)⟩

theorem KeepsFor.bind {M : α → Past → Prop} {goal : β → Past → Prop} {f : α → Prog β} {n : Nat}
    {p : Prog α} (h : KeepsFor may M n p past)
    (hf : ∀ a past, M a past → KeepsFor may goal n (f a) past) :
    KeepsFor may goal n (p.bind f) past := by
  induction n generalizing p past with
  | zero => trivial
  | succ n ih =>
    rw [KeepsFor] at h ⊢
    rw [head_bind]
    cases hp : p.head with
    | done a =>
      rw [hp] at h
      have := hf a past h
      rwa [KeepsFor] at this
    | ask q k =>
      rw [hp] at h
      exact ⟨h.1, fun x => ih (h.2 x) fun a past ha => (hf a past ha).pred⟩

theorem Keeps.mono {goal goal' : α → Past → Prop} {p : Prog α} (h : Keeps may goal p past)
    (hmay : ∀ q past, may q past → may' q past) (hgoal : ∀ a past, goal a past → goal' a past) :
    Keeps may' goal' p past :=
  fun n => (h n).mono hmay hgoal

theorem keeps_done {goal : α → Past → Prop} {a : α} (h : goal a past) :
    Keeps may goal (.done a) past
  | 0 => trivial
  | _ + 1 => h

theorem keeps_ask {goal : α → Past → Prop} {q : Request} {k : q.Answer → Prog α}
    (h : may q past) (hk : ∀ x, Keeps may goal (k x) (⟨q, x⟩ :: past)) :
    Keeps may goal (.ask q k) past
  | 0 => trivial
  | n + 1 => ⟨h, fun x => hk x n⟩

theorem Keeps.bind {M : α → Past → Prop} {goal : β → Past → Prop} {p : Prog α} {f : α → Prog β}
    (h : Keeps may M p past) (hf : ∀ a past, M a past → Keeps may goal (f a) past) :
    Keeps may goal (p.bind f) past :=
  fun n => (h n).bind fun a past ha => hf a past ha n

/-- What holds whenever a round begins also holds when the next one does. -/
theorem keeps_loop {goal : α → Past → Prop} {I : σ → Past → Prop} {M : β → Past → Prop}
    {q : Request} {round : σ → q.Answer → Prog (σ ⊕ β)} {k : β → Prog α} {s : σ}
    (h : I s past) (hq : ∀ s past, I s past → may q past)
    (hround : ∀ s past, I s past → ∀ x,
      Keeps may (fun r past => r.elim (I · past) (M · past)) (round s x) (⟨q, x⟩ :: past))
    (hk : ∀ b past, M b past → Keeps may goal (k b) past) :
    Keeps may goal (.loop s q round k) past := by
  intro n
  -- The loop need not end, so the induction is on the number of requests.
  induction n generalizing s past with
  | zero => trivial
  | succ n ih =>
    refine ⟨hq s past h, fun x => (hround s past h x n).bind fun r past hr => ?_⟩
    cases r with
    | inl s => exact ih hr
    | inr b => exact hk b past hr n

theorem Keeps.head {goal : α → Past → Prop} {p : Prog α} (h : Keeps may goal p past) :
    match p.head with
    | .done a => goal a past
    | .ask q k => may q past ∧ ∀ x, Keeps may goal (k x) (⟨q, x⟩ :: past) := by
  have h' := fun n => h (n + 1)
  simp only [KeepsFor] at h'
  cases hp : p.head with
  | done a =>
    simp only [hp] at h'
    exact h' 0
  | ask q k =>
    simp only [hp] at h'
    exact ⟨(h' 0).1, fun x n => (h' n).2 x⟩

end Prog

namespace Action

variable {α β σ : Type} {may may' : Request → Past → Prop} {past : Past}

def Keeps (may : Request → Past → Prop) (goal : Except Fault α → Past → Prop) (a : Action α)
    (past : Past) : Prop :=
  Prog.Keeps may goal a.run past

def either {τ : Type} (ok : α → τ → Prop) (error : Fault → τ → Prop) : Except Fault α → τ → Prop
  | .ok x, t => ok x t
  | .error e, t => error e t

theorem Keeps.mono {goal goal' : Except Fault α → Past → Prop} {a : Action α}
    (h : Keeps may goal a past) (hmay : ∀ q past, may q past → may' q past)
    (hgoal : ∀ r past, goal r past → goal' r past) : Keeps may' goal' a past :=
  Prog.Keeps.mono h hmay hgoal

theorem keeps_pure {goal : Except Fault α → Past → Prop} {x : α} (h : goal (.ok x) past) :
    Keeps may goal (pure x) past :=
  Prog.keeps_done h

theorem keeps_fail {goal : Except Fault α → Past → Prop} {f : Fault} (h : goal (.error f) past) :
    Keeps may goal (fail f) past :=
  Prog.keeps_done h

theorem keeps_request {q : Request} {goal : Except Fault q.Answer → Past → Prop}
    (h : may q past) (hgoal : ∀ x, goal (.ok x) (⟨q, x⟩ :: past)) :
    Keeps may goal (request q) past :=
  Prog.keeps_ask h fun x => Prog.keeps_done (hgoal x)

theorem Keeps.bind {M : Except Fault α → Past → Prop} {goal : Except Fault β → Past → Prop}
    {a : Action α} {f : α → Action β} (h : Keeps may M a past)
    (hok : ∀ x past, M (.ok x) past → Keeps may goal (f x) past)
    (herror : ∀ e past, M (.error e) past → goal (.error e) past) :
    Keeps may goal (a >>= f) past := by
  apply Prog.Keeps.bind h
  intro r past hr
  cases r with
  | ok x => exact hok x past hr
  | error e => exact Prog.keeps_done (herror e past hr)

theorem keeps_ask {q : Request} {goal : Except Fault β → Past → Prop} {f : q.Answer → Action β}
    (h : may q past) (hf : ∀ x, Keeps may goal (f x) (⟨q, x⟩ :: past)) :
    Keeps may goal (request q >>= f) past :=
  Prog.keeps_ask h hf

theorem keeps_ite {goal : Except Fault α → Past → Prop} {c : Prop} [Decidable c] {a b : Action α}
    (ha : c → Keeps may goal a past) (hb : ¬c → Keeps may goal b past) :
    Keeps may goal (if c then a else b) past := by
  split
  · exact ha ‹_›
  · exact hb ‹_›

theorem keeps_lift {goal : Except Fault β → Past → Prop} {x : Except Fault α} {f : α → Action β}
    (hok : ∀ a, x = .ok a → Keeps may goal (f a) past)
    (herror : ∀ e, x = .error e → goal (.error e) past) :
    Keeps may goal (liftM x >>= f) past := by
  cases x with
  | ok a => exact hok a rfl
  | error e => exact Prog.keeps_done (herror e rfl)

theorem Keeps.outcome {M : Except Fault α → Past → Prop}
    {goal : Except Fault (Except Fault α) → Past → Prop} {a : Action α} (h : Keeps may M a past)
    (hgoal : ∀ r past, M r past → goal (.ok r) past) : Keeps may goal a.outcome past :=
  Prog.Keeps.bind h fun r past hr => Prog.keeps_done (hgoal r past hr)

theorem Keeps.orElseFault {M goal : Except Fault α → Past → Prop} {a : Action α}
    {f : Fault → Fault} (h : Keeps may M a past)
    (hok : ∀ x past, M (.ok x) past → goal (.ok x) past)
    (herror : ∀ e past, M (.error e) past → goal (.error (f e)) past) :
    Keeps may goal (a.orElseFault f) past := by
  apply Keeps.bind (M := either M fun _ _ => False)
    (h.outcome fun _ _ hr => hr) _ fun _ _ hr => hr.elim
  intro r past hr
  cases r with
  | ok x => exact keeps_pure (hok x past hr)
  | error e => exact keeps_fail (herror e past hr)

theorem keeps_ofExcept {ε : Type} {g : ε → Fault} {x : Except ε α}
    {goal : Except Fault α → Past → Prop} (hok : ∀ a, x = .ok a → goal (.ok a) past)
    (herror : ∀ e, x = .error e → goal (.error (g e)) past) :
    Keeps may goal (ofExcept g x) past := by
  cases x with
  | ok a => exact keeps_pure (hok a rfl)
  | error e => exact keeps_fail (herror e rfl)

theorem keeps_ofExcept_bind {ε : Type} {g : ε → Fault} {x : Except ε α}
    {goal : Except Fault β → Past → Prop} {f : α → Action β}
    (hok : ∀ a, x = .ok a → Keeps may goal (f a) past)
    (herror : ∀ e, x = .error e → goal (.error (g e)) past) :
    Keeps may goal (ofExcept g x >>= f) past := by
  cases x with
  | ok a => exact hok a rfl
  | error e => exact Prog.keeps_done (herror e rfl)

theorem keeps_log {text : String} {goal : Except Fault Unit → Past → Prop}
    (h : may (.log text) past) (hok : goal (.ok ()) (⟨.log text, .ok ()⟩ :: past))
    (herror : ∀ e, goal (.error (.clock e)) (⟨.log text, .error e⟩ :: past)) :
    Keeps may goal (log text) past := by
  apply Prog.keeps_ask h
  intro x
  cases x with
  | ok => exact Prog.keeps_done hok
  | error e => exact Prog.keeps_done (herror e)

theorem Keeps.tracking {volume : String} {M goal : Except Fault α → Past → Prop} {a : Action α}
    (htrack : may (.track volume) past) (h : Keeps may M a (⟨.track volume, ()⟩ :: past))
    (huntrack : ∀ r past, M r past → may (.untrack volume) past)
    (hgoal : ∀ r past, M r past → goal r (⟨.untrack volume, ()⟩ :: past)) :
    Keeps may goal (tracking volume a) past := by
  apply Keeps.bind (M := fun r p => r.isOk ∧ p = ⟨.track volume, ()⟩ :: past)
    (keeps_request htrack fun _ => ⟨rfl, rfl⟩) _ fun _ _ hr => nomatch hr.1
  intro _ _ hafter
  obtain ⟨_, rfl⟩ := hafter
  apply Keeps.bind (M := either M fun _ _ => False)
    (h.outcome fun _ _ hr => hr) _ fun _ _ hr => hr.elim
  intro r p hr
  apply Keeps.bind (M := fun u p => u.isOk ∧ goal r p)
    (keeps_request (huntrack r p hr) fun _ => ⟨rfl, hgoal r p hr⟩) _ fun _ _ hr => nomatch hr.1
  intro _ p hafter
  obtain ⟨_, hr⟩ := hafter
  cases r with
  | ok x => exact keeps_pure hr
  | error e => exact keeps_fail hr

theorem keeps_rounds {goal : Except Fault α → Past → Prop} {I : σ → Past → Prop} {q : Request}
    {round : σ → q.Answer → Action (σ ⊕ α)} {s : σ} (h : I s past)
    (hq : ∀ s past, I s past → may q past)
    (hround : ∀ s past, I s past → ∀ x,
      Keeps may (either (fun r past => r.elim (I · past) fun a => goal (.ok a) past)
        fun e past => goal (.error e) past) (round s x) (⟨q, x⟩ :: past)) :
    Keeps may goal (rounds s q round) past := by
  apply Prog.keeps_loop (M := goal) h hq _ fun r past hr =>
    Prog.keeps_done hr
  intro s past hs x
  apply Prog.Keeps.bind (hround s past hs x)
  intro r past hr
  cases r with
  | ok r =>
    cases r with
    | inl s => exact Prog.keeps_done hr
    | inr a => exact Prog.keeps_done hr
  | error e => exact Prog.keeps_done hr

end Action

end VolumeExport
