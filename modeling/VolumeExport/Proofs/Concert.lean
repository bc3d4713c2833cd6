import Mathlib.Algebra.Order.BigOperators.Group.Finset
import VolumeExport.Proofs.Leads

namespace VolumeExport

open VolumeExport.Action (either)

/-- What runs that share a site may make of it. -/
structure Accord where
  moves : Site → Site → Prop
  refl : ∀ w, moves w w
  trans : ∀ {w w' w''}, moves w w' → moves w' w'' → moves w w''

/-- Where a run stands: the site right after its latest answer, how many more requests it may make
while nobody else writes, and how many more writes it may make. -/
structure Stand where
  site : Site
  requests : Nat
  writes : Nat

namespace Stand

def grace : Nat := 3

/-- The requests that a run may make when others have come to a site. -/
def credit (a : Stand) (v : Site) : Nat :=
  a.requests + grace * (v.cluster.writes - a.site.cluster.writes)

structure Affords (a : Stand) (v v' : Site) : Prop where
  requests : 0 < a.credit v
  writes : v'.cluster.writes - v.cluster.writes ≤ a.writes

def next (a : Stand) (v v' : Site) : Stand :=
  ⟨v', a.credit v - 1, a.writes - (v'.cluster.writes - v.cluster.writes)⟩

/-- A run may make at least so many requests and writes. -/
structure Has (a : Stand) (requests writes : Nat) : Prop where
  requests : requests ≤ a.requests
  writes : writes ≤ a.writes

variable {a : Stand} {k l : Nat}

theorem le_credit (a : Stand) (v : Site) : a.requests ≤ a.credit v := Nat.le_add_right ..

theorem Has.mono {m n : Nat} (h : a.Has m n) (hk : k ≤ m) (hl : l ≤ n) : a.Has k l :=
  ⟨hk.trans h.requests, hl.trans h.writes⟩

theorem Has.write {d : Nat} {v v' : Site} (h : a.Has (k + 1) (l + d))
    (hd : v'.cluster.writes ≤ v.cluster.writes + d) : (a.next v v').Has k l := by
  obtain ⟨hrequests, hwrites⟩ := h
  have hcredit := a.le_credit v
  refine ⟨?_, ?_⟩
  · change k ≤ a.credit v - 1
    omega
  · change l ≤ a.writes - (v'.cluster.writes - v.cluster.writes)
    omega

theorem Has.affords {d : Nat} {v v' : Site} (h : a.Has (k + 1) (l + d))
    (hd : v'.cluster.writes ≤ v.cluster.writes + d) : a.Affords v v' := by
  obtain ⟨hrequests, hwrites⟩ := h
  have hcredit := a.le_credit v
  exact ⟨by omega, by omega⟩

theorem Has.next (h : a.Has (k + 1) l) (v : Site) : (a.next v v).Has k l :=
  @Has.write a k l 0 v v h (Nat.le_refl _)

/-- A write of others pays for a round. -/
theorem Has.round {v₁ v₂ v₃ : Site} (ha : a.Has k l)
    (h₁ : v₁.cluster.writes ≤ v₂.cluster.writes) (h₂ : v₂.cluster.writes ≤ v₃.cluster.writes)
    (h : v₁.cluster.writes < v₃.cluster.writes) :
    (((a.next v₁ v₁).next v₂ v₂).next v₃ v₃).Has k l := by
  obtain ⟨hrequests, hwrites⟩ := ha
  have hcredit := a.le_credit v₁
  refine ⟨?_, ?_⟩
  · change k ≤ a.credit v₁ - 1 + grace * (v₂.cluster.writes - v₁.cluster.writes) - 1 +
      grace * (v₃.cluster.writes - v₂.cluster.writes) - 1
    rw [grace]
    omega
  · simpa [Stand.next] using hwrites

end Stand

namespace Prog

variable {α β σ : Type} {A : Accord} {goal : α → Stand → Prop} {a : Stand}

def AmidFor (A : Accord) (goal : α → Stand → Prop) : Nat → Prog α → Stand → Prop
  | 0, _, _ => True
  | n + 1, p, a =>
    match p.head with
    | .done r => goal r a
    | .ask q k => ∀ v x v', A.moves a.site v → v.Succeeds q x v' →
      A.moves v v' ∧ a.Affords v v' ∧ AmidFor A goal n (k x) (a.next v v')

/-- Among others that keep to an accord, a program keeps to it, too, and to what it may ask and
write, and where it ends the goal holds. -/
def Amid (A : Accord) (goal : α → Stand → Prop) (p : Prog α) (a : Stand) : Prop :=
  ∀ n, AmidFor A goal n p a

theorem AmidFor.mono {goal' : α → Stand → Prop} (hgoal : ∀ r a, goal r a → goal' r a) {n : Nat}
    {p : Prog α} (h : AmidFor A goal n p a) : AmidFor A goal' n p a := by
  induction n generalizing p a with
  | zero => trivial
  | succ n ih =>
    simp only [AmidFor] at h ⊢
    split at h
    · exact hgoal _ _ h
    · intro v x v' hv hx
      obtain ⟨hmoves, haffords, hrest⟩ := h v x v' hv hx
      exact ⟨hmoves, haffords, ih hrest⟩

theorem AmidFor.pred {n : Nat} {p : Prog α} (h : AmidFor A goal (n + 1) p a) :
    AmidFor A goal n p a := by
  induction n generalizing p a with
  | zero => trivial
  | succ n ih =>
    rw [AmidFor] at h ⊢
    split at h
    · exact h
    · intro v x v' hv hx
      obtain ⟨hmoves, haffords, hrest⟩ := h v x v' hv hx
      exact ⟨hmoves, haffords, ih hrest⟩

theorem AmidFor.bind {M : α → Stand → Prop} {goal : β → Stand → Prop} {f : α → Prog β} {n : Nat}
    {p : Prog α} (h : AmidFor A M n p a) (hf : ∀ r b, M r b → AmidFor A goal n (f r) b) :
    AmidFor A goal n (p.bind f) a := by
  induction n generalizing p a with
  | zero => trivial
  | succ n ih =>
    rw [AmidFor] at h ⊢
    rw [head_bind]
    cases hp : p.head with
    | done r =>
      rw [hp] at h
      have hfr := hf r a h
      rwa [AmidFor] at hfr
    | ask q k =>
      rw [hp] at h
      intro v x v' hv hx
      obtain ⟨hmoves, haffords, hrest⟩ := h v x v' hv hx
      exact ⟨hmoves, haffords, ih hrest fun r b hr => (hf r b hr).pred⟩

theorem Amid.mono {goal' : α → Stand → Prop} {p : Prog α} (h : p.Amid A goal a)
    (hgoal : ∀ r a, goal r a → goal' r a) : p.Amid A goal' a :=
  fun n => (h n).mono hgoal

theorem amid_done {r : α} (h : goal r a) : Amid A goal (.done r) a
  | 0 => trivial
  | _ + 1 => h

theorem amid_ask {q : Request} {k : q.Answer → Prog α}
    (h : ∀ v x v', A.moves a.site v → v.Succeeds q x v' →
      A.moves v v' ∧ a.Affords v v' ∧ (k x).Amid A goal (a.next v v')) : Amid A goal (.ask q k) a
  | 0 => trivial
  | n + 1 => fun v x v' hv hx => by
    obtain ⟨hmoves, haffords, hrest⟩ := h v x v' hv hx
    exact ⟨hmoves, haffords, hrest n⟩

theorem Amid.bind {M : α → Stand → Prop} {goal : β → Stand → Prop} {p : Prog α} {f : α → Prog β}
    (h : p.Amid A M a) (hf : ∀ r b, M r b → (f r).Amid A goal b) : (p.bind f).Amid A goal a :=
  fun n => (h n).bind fun r b hr => hf r b hr n

/-- What holds whenever a round begins also holds when the next one does. -/
theorem amid_loop {I : σ → Stand → Prop} {M : β → Stand → Prop} {q : Request}
    {round : σ → q.Answer → Prog (σ ⊕ β)} {k : β → Prog α} {s : σ} (h : I s a)
    (hround : ∀ s a, I s a → ∀ v x v', A.moves a.site v → v.Succeeds q x v' →
      A.moves v v' ∧ a.Affords v v' ∧
        (round s x).Amid A (fun r b => r.elim (I · b) (M · b)) (a.next v v'))
    (hk : ∀ r b, M r b → (k r).Amid A goal b) : Amid A goal (.loop s q round k) a := by
  intro n
  induction n generalizing s a with
  | zero => trivial
  | succ n ih =>
    intro v x v' hv hx
    obtain ⟨hmoves, haffords, hrest⟩ := hround s a h v x v' hv hx
    refine ⟨hmoves, haffords, (hrest n).bind fun r b hr => ?_⟩
    cases r with
    | inl s => exact ih hr
    | inr r => exact hk r b hr n

theorem Amid.head {p : Prog α} (h : p.Amid A goal a) :
    match p.head with
    | .done r => goal r a
    | .ask q k => ∀ v x v', A.moves a.site v → v.Succeeds q x v' →
      A.moves v v' ∧ a.Affords v v' ∧ (k x).Amid A goal (a.next v v') := by
  have h' := fun n => h (n + 1)
  simp only [AmidFor] at h'
  cases hp : p.head with
  | done r =>
    simp only [hp] at h'
    exact h' 0
  | ask q k =>
    simp only [hp] at h'
    exact fun v x v' hv hx => ⟨(h' 0 v x v' hv hx).1, (h' 0 v x v' hv hx).2.1, fun n =>
      (h' n v x v' hv hx).2.2⟩

theorem Amid.since {p : Prog α} (h : p.Amid A goal a) :
    p.Amid A (fun r b => goal r b ∧ A.moves a.site b.site) a := by
  suffices hall : ∀ n (p : Prog α) b, AmidFor A goal n p b → A.moves a.site b.site →
      AmidFor A (fun r b => goal r b ∧ A.moves a.site b.site) n p b from
    fun n => hall n p a (h n) (A.refl _)
  intro n
  induction n with
  | zero => exact fun _ _ _ _ => trivial
  | succ n ih =>
    intro p b h hb
    simp only [AmidFor] at h ⊢
    split at h
    · exact ⟨h, hb⟩
    · intro v x v' hv hx
      obtain ⟨hmoves, haffords, hrest⟩ := h v x v' hv hx
      exact ⟨hmoves, haffords, ih _ _ hrest (A.trans hb (A.trans hv hmoves))⟩

/-- Runs of a program side by side: the moments so far, the latest first, each with the run that
was answered, and what is left of each run. -/
inductive Concert {n : Nat} (w : Site) (p : Prog α) :
    List (Fin n × Moment) → (Fin n → Prog α) → Prop
  | start : Concert w p [] fun _ => p
  | answer {ms rest i q k x v} : Concert w p ms rest → (rest i).head = .ask q k →
      (w.along (ms.map Prod.snd)).Succeeds q x v →
      Concert w p ((i, ⟨w.along (ms.map Prod.snd), ⟨q, x⟩, v⟩) :: ms)
        (Function.update rest i (k x))

namespace Concert

variable {n : Nat} {w : Site} {p : Prog α} {ms : List (Fin n × Moment)} {rest : Fin n → Prog α}
  {may : Request → Past → Prop} {goal : α → Past → Prop}

theorem keeps (h : Concert w p ms rest) (hp : p.Keeps may goal []) (i : Fin n) :
    ∃ past, (rest i).Keeps may goal past := by
  induction h generalizing i with
  | start => exact ⟨[], hp⟩
  | @answer ms rest j q k x v _ hhead _ ih =>
    by_cases hi : i = j
    · subst hi
      obtain ⟨past, hpast⟩ := ih i
      have hask := hpast.head
      rw [hhead] at hask
      rw [Function.update_self]
      exact ⟨_, hask.2 x⟩
    · rw [Function.update_of_ne hi]
      exact ih i

theorem inv {I : List Moment → Prop} (h : Concert w p ms rest) (hp : p.Keeps may goal [])
    (hstart : I [])
    (hstep : ∀ m ms before, I ms → m.before = w.along ms →
      m.before.Answers (fun _ => False) m.turn.request m.turn.answer m.after →
      may m.turn.request before → I (m :: ms)) : I (ms.map Prod.snd) := by
  induction h with
  | start => exact hstart
  | @answer ms rest i q k x v h hhead hx ih =>
    obtain ⟨past, hpast⟩ := h.keeps hp i
    have hask := hpast.head
    rw [hhead] at hask
    exact hstep ⟨_, ⟨q, x⟩, v⟩ _ past ih rfl hx.1 hask.1

/-- If the number of requests is bounded, then runs that have not ended can be brought to an end. -/
theorem finishes {bound : Nat} (h : Concert w p ms rest)
    (hbound : ∀ (ms : List (Fin n × Moment)) rest, Concert w p ms rest → ms.length ≤ bound) :
    ∃ more rest', Concert w p (more ++ ms) rest' ∧ ∀ i, ∃ r, (rest' i).head = .done r := by
  -- One more request leaves fewer below the bound, so the induction is on what is left of it.
  generalize hleft : bound - ms.length = left
  induction left using Nat.strongRecOn generalizing ms rest with
  | ind left ih =>
    by_cases hended : ∀ i, ∃ r, (rest i).head = .done r
    · exact ⟨[], rest, h, hended⟩
    · obtain ⟨i, hi⟩ := not_forall.1 hended
      cases hhead : (rest i).head with
      | done r => exact absurd ⟨r, hhead⟩ hi
      | ask q k =>
        have hnext := h.answer hhead (Site.succeeds_reply _ q)
        have hlength := hbound _ _ hnext
        rw [List.length_cons] at hlength
        obtain ⟨more, rest', hrest', hends⟩ := ih _ (by rw [List.length_cons]; omega) hnext rfl
        rw [List.append_cons] at hrest'
        exact ⟨_, rest', hrest', hends⟩

end Concert

/-- Runs side by side by a schedule that says who is answered, the latest first. -/
def concert {n : Nat} (w : Site) (p : Prog α) :
    List (Fin n) → List (Fin n × Moment) × (Fin n → Prog α)
  | [] => ([], fun _ => p)
  | i :: is =>
    let before := concert w p is
    match (before.2 i).head with
    | .done _ => before
    | .ask q k =>
      let v := w.along (before.1.map Prod.snd)
      ((i, ⟨v, ⟨q, (v.reply q).1⟩, (v.reply q).2⟩) :: before.1,
        Function.update before.2 i (k (v.reply q).1))

theorem concert_runs {n : Nat} (w : Site) (p : Prog α) (is : List (Fin n)) :
    Concert w p (concert w p is).1 (concert w p is).2 := by
  induction is with
  | nil => exact .start
  | cons i is ih =>
    rw [concert]
    split
    · exact ih
    · next q k hhead => exact .answer ih hhead (Site.succeeds_reply _ q)

theorem sum_lt {n d : Nat} {f g : Fin n → Nat} {i : Fin n} (hi : g i + n * d < f i)
    (hothers : ∀ j, j ≠ i → g j ≤ f j + d) : ∑ j, g j < ∑ j, f j := by
  have hle : ∑ j ∈ Finset.univ.erase i, g j ≤
      ∑ j ∈ Finset.univ.erase i, f j + n * d := by
    calc
      ∑ j ∈ Finset.univ.erase i, g j ≤ ∑ j ∈ Finset.univ.erase i, (f j + d) :=
        Finset.sum_le_sum fun j hj => hothers j (Finset.ne_of_mem_erase hj)
      _ = ∑ j ∈ Finset.univ.erase i, f j + (Finset.univ.erase i).card * d := by
        rw [Finset.sum_add_distrib, Finset.sum_const_nat fun _ _ => rfl]
      _ ≤ ∑ j ∈ Finset.univ.erase i, f j + n * d := by
        have hcard : (Finset.univ.erase i).card ≤ n :=
          (Finset.card_le_univ _).trans_eq (Fintype.card_fin n)
        exact Nat.add_le_add_left (Nat.mul_le_mul_right d hcard) _
  rw [← Finset.add_sum_erase _ g (Finset.mem_univ i), ← Finset.add_sum_erase _ f (Finset.mem_univ i)]
  omega

section

variable {n : Nat} {w : Site} {p : Prog α} {ms : List (Fin n × Moment)} {rest : Fin n → Prog α}

/-- The requests that a run of several may still make when all have come to a site, whatever the
others still write. -/
def potential (n : Nat) (v : Site) (a : Stand) : Nat := a.credit v + Stand.grace * n * a.writes

theorem potential_next {a : Stand} {v v' : Site} (h : a.Affords v v') :
    potential n v' (a.next v v') + n * (Stand.grace * (v'.cluster.writes - v.cluster.writes)) <
      potential n v a := by
  obtain ⟨hrequests, hwrites⟩ := h
  obtain ⟨left, hleft⟩ := Nat.exists_eq_add_of_le hwrites
  have hcredit : (a.next v v').credit v' = a.credit v - 1 := by
    simp [Stand.next, Stand.credit]
  have hspent : (a.next v v').writes = left := by
    rw [Stand.next, hleft, Nat.add_sub_cancel_left]
  rw [potential, potential, hcredit, hspent, hleft, Nat.mul_add, Nat.mul_left_comm n, Nat.mul_assoc,
    Nat.mul_assoc]
  omega

theorem potential_le (n : Nat) (a : Stand) (v v' : Site) :
    potential n v' a ≤ potential n v a +
      Stand.grace * (v'.cluster.writes - v.cluster.writes) := by
  rw [potential, potential, Stand.credit, Stand.credit, Stand.grace]
  omega

/-- Every run of several stands where it may, and the longer they have run, the fewer requests all
together may still make. -/
theorem Concert.amid {requests writes : Nat} (hp : p.Amid A goal ⟨w, requests, writes⟩)
    (h : Concert w p ms rest) :
    ∃ stand : Fin n → Stand,
      (∀ i, (rest i).Amid A goal (stand i) ∧
        A.moves (stand i).site (w.along (ms.map Prod.snd))) ∧
      ms.length + ∑ i, potential n (w.along (ms.map Prod.snd)) (stand i) ≤
        n * (requests + Stand.grace * n * writes) := by
  induction h with
  | start =>
    refine ⟨fun _ => ⟨w, requests, writes⟩, fun _ => ⟨hp, A.refl w⟩, ?_⟩
    simp [potential, Stand.credit, Site.along]
  | @answer ms rest i q k x v _ hhead hx ih =>
    obtain ⟨stand, hstand, hlength⟩ := ih
    set now := w.along (ms.map Prod.snd) with hnow
    have hask := (hstand i).1.head
    rw [hhead] at hask
    obtain ⟨hmoves, haffords, hrest⟩ := hask now x v (hstand i).2 hx
    refine ⟨Function.update stand i ((stand i).next now v), fun j => ?_, ?_⟩
    · by_cases hj : j = i
      · subst hj
        rw [Function.update_self, Function.update_self]
        exact ⟨hrest, A.refl v⟩
      · rw [Function.update_of_ne hj, Function.update_of_ne hj]
        exact ⟨(hstand j).1, A.trans (hstand j).2 hmoves⟩
    · -- The run that was answered pays for what its writes allow to all the others.
      have hsum : ∑ j, potential n v (Function.update stand i ((stand i).next now v) j) <
          ∑ j, potential n now (stand j) := by
        apply sum_lt (d := Stand.grace * (v.cluster.writes - now.cluster.writes))
        · rw [Function.update_self]
          exact potential_next haffords
        · intro j hj
          rw [Function.update_of_ne hj]
          exact potential_le n (stand j) now v
      simp only [List.length_cons, List.map_cons, Site.along]
      omega

/-- Whatever the site becomes is what the accord lets it become. -/
theorem Concert.moves {requests writes : Nat} (hp : p.Amid A goal ⟨w, requests, writes⟩)
    (h : Concert w p ms rest) : ∀ m ∈ ms.map Prod.snd, A.moves w m.after := by
  induction h with
  | start => exact fun _ hm => nomatch hm
  | @answer ms rest i q k x v h hhead hx ih =>
    obtain ⟨stand, hstand, -⟩ := h.amid hp
    have hask := (hstand i).1.head
    rw [hhead] at hask
    obtain ⟨hmoves, -, -⟩ := hask _ x v (hstand i).2 hx
    have hnow : A.moves w (w.along (ms.map Prod.snd)) := by
      cases hms : ms.map Prod.snd with
      | nil => exact A.refl w
      | cons m _ => exact ih m (by rw [hms]; exact List.mem_cons_self)
    rw [List.map_cons]
    exact List.forall_mem_cons.2 ⟨A.trans hnow hmoves, ih⟩

end

end Prog

namespace Action

variable {α β σ : Type} {A : Accord} {goal : α → Stand → Prop} {a : Stand}

def Amid (A : Accord) (goal : α → Stand → Prop) (action : Action α) (a : Stand) : Prop :=
  Prog.Amid A (either goal fun _ _ => False) action.run a

theorem Amid.mono {goal' : α → Stand → Prop} {action : Action α} (h : action.Amid A goal a)
    (hgoal : ∀ x b, goal x b → goal' x b) : action.Amid A goal' a := by
  apply Prog.Amid.mono h
  intro r b hr
  cases r with
  | ok x => exact hgoal x b hr
  | error e => exact hr

theorem amid_pure {x : α} (h : goal x a) : Amid A goal (pure x) a := Prog.amid_done h

theorem Amid.bind {M : α → Stand → Prop} {goal : β → Stand → Prop} {action : Action α}
    {f : α → Action β} (h : action.Amid A M a) (hf : ∀ x b, M x b → (f x).Amid A goal b) :
    Amid A goal (action >>= f) a := by
  apply Prog.Amid.bind h
  intro r b hr
  cases r with
  | ok x => exact hf x b hr
  | error e => exact hr.elim

theorem Amid.since {action : Action α} (h : action.Amid A goal a) :
    action.Amid A (fun x b => goal x b ∧ A.moves a.site b.site) a := by
  apply Prog.Amid.mono (Prog.Amid.since h)
  intro r b hr
  cases r with
  | ok x => exact hr
  | error e => exact hr.1

theorem amid_ite {c : Prop} [Decidable c] {x y : Action α} (hx : c → x.Amid A goal a)
    (hy : ¬c → y.Amid A goal a) : Amid A goal (if c then x else y) a := by
  split
  · exact hx ‹_›
  · exact hy ‹_›

theorem amid_quiet {q : Request} {goal : β → Stand → Prop} {f : q.Answer → Action β} {k l : Nat}
    (hq : q.Quiet) (ha : a.Has (k + 1) l)
    (h : ∀ x v, q.Timely x → A.moves a.site v → (a.next v v).Has k l →
      (f x).Amid A goal (a.next v v)) : Amid A goal (request q >>= f) a := by
  apply Prog.amid_ask
  intro v x v' hv hx
  obtain rfl : v' = v := by
    cases q with
    | call => exact hq.elim
    | track => exact hq.elim
    | untrack => exact hq.elim
    | isTracked => exact hq.elim
    | _ => exact hx.1
  have haffords := @Stand.Has.affords a k l 0 v' v' ha (Nat.le_refl _)
  exact ⟨A.refl v', haffords, h x v' hx.2 hv (ha.next v')⟩

theorem amid_call {c : Call} {goal : β → Stand → Prop} {f : Except ApiError c.Result → Action β}
    {d k l : Nat} (ha : a.Has (k + 1) (l + d))
    (h : ∀ v, A.moves a.site v → A.moves v (v.after c) ∧
      (v.after c).cluster.writes ≤ v.cluster.writes + d ∧
        ((a.next v (v.after c)).Has k l →
          (f (v.cluster.respond c).1).Amid A goal (a.next v (v.after c)))) :
    Amid A goal (call c >>= f) a := by
  apply Prog.amid_ask
  intro v x v' hv hx
  obtain ⟨rfl, rfl⟩ := Site.eq_of_call hx
  obtain ⟨hmoves, hwrites, hrest⟩ := h v hv
  exact ⟨hmoves, ha.affords hwrites, hrest (ha.write hwrites)⟩

theorem amid_read {r : Resource} {ns name : Option String} {goal : β → Stand → Prop}
    {f : Except ApiError Object → Action β} {k l : Nat} (ha : a.Has (k + 1) l)
    (h : ∀ v, A.moves a.site v → (a.next v v).Has k l →
      (f (v.cluster.read (.of r ns name))).Amid A goal (a.next v v)) :
    Amid A goal (call (.read r ns name) >>= f) a := by
  apply amid_call (d := 0) ha
  exact fun v hv => ⟨A.refl v, Nat.le_refl _, h v hv⟩

theorem amid_log {text : String} {k l : Nat} (ha : a.Has (k + 1) l) :
    (log text).Amid A (fun _ b => b.Has k l) a := by
  apply amid_quiet (q := .log text) trivial ha
  intro x v hx _ hleft
  cases x with
  | ok => exact amid_pure hleft
  | error e => cases hx

theorem Amid.outcome {M : Except Fault α → Stand → Prop} {action : Action α}
    (h : Prog.Amid A M action.run a) : action.outcome.Amid A M a :=
  Prog.Amid.bind h fun _ _ hr => Prog.amid_done hr

theorem Amid.orElseFault {action : Action α} {f : Fault → Fault} (h : action.Amid A goal a) :
    (action.orElseFault f).Amid A goal a := by
  apply Amid.bind (Amid.outcome h)
  intro r b hr
  cases r with
  | ok x => exact amid_pure hr
  | error e => exact hr.elim

theorem amid_rounds {I : σ → Stand → Prop} {r : Resource} {ns name : Option String}
    {round : σ → Except ApiError Object → Action (σ ⊕ α)} {s : σ} (h : I s a)
    (hI : ∀ s a, I s a → a.Has 1 0)
    (hround : ∀ s a, I s a → ∀ v, A.moves a.site v →
      (round s (v.cluster.read (.of r ns name))).Amid A (fun x b => x.elim (I · b) (goal · b))
        (a.next v v)) : (rounds s (.call (.read r ns name)) round).Amid A goal a := by
  apply Prog.amid_loop (M := either goal fun _ _ => False) h _ fun _ _ hr => Prog.amid_done hr
  intro s a hs v x v' hv hx
  obtain ⟨rfl, rfl⟩ := Site.eq_of_call hx
  have haffords := @Stand.Has.affords a 0 0 0 v v (hI s a hs) (Nat.le_refl _)
  refine ⟨A.refl v, haffords, Prog.Amid.bind (hround s a hs v hv) fun x b hx => ?_⟩
  cases x with
  | ok x =>
    cases x with
    | inl s => exact Prog.amid_done hx
    | inr x => exact Prog.amid_done hx
  | error e => exact hx.elim

end Action

namespace Access

variable {A : Accord} {a : Stand} {r : Resource} {ns name : Option String} {k l : Nat}

theorem amid_get (ha : a.Has (k + 1) l) :
    (get r ns name).Amid A (fun o b => b.Has k l ∧
      o = b.site.cluster.store.get? (.of r ns name)) a := by
  apply Action.amid_read ha
  intro v _ hleft
  rw [Cluster.read]
  cases hget : v.cluster.store.get? (.of r ns name) with
  | none =>
    exact Action.amid_ite (fun _ => Action.amid_pure ⟨hleft, hget.symm⟩) fun h => absurd rfl h
  | some o => exact Action.amid_pure ⟨hleft, hget.symm⟩

end Access

end VolumeExport
