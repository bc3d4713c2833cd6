import Mathlib.Logic.Function.Basic
import Mathlib.Logic.Relation
import VolumeExport.Proofs.Site

namespace VolumeExport

/-- A process that runs: what it was answered so far and what is left of its program. -/
structure Thread where
  past : Past
  rest : Prog Unit

def Thread.pending? (t : Thread) : Option Request :=
  match t.rest.head with
  | .done _ => none
  | .ask q _ => some q

inductive Happening (ι : Type)
  | begun (i : ι)
  | answered (i : ι) (e : Turn)
  /-- Others have acted and have left a site. -/
  | moved (w : Site)

/-- A site, the processes that run on it, and what has happened, the latest first. -/
structure Pool (ι : Type) where
  site : Site
  threads : ι → Option Thread
  history : List (Happening ι)

structure Regime (ι : Type) where
  program : ι → Prog Unit
  /-- Whether a process that does not run may begin. -/
  admits : Pool ι → ι → Prop
  faults : ApiError → Prop
  /-- What others may make of a site. -/
  moves : Pool ι → Site → Prop

variable {ι : Type}

namespace Happening

def tracks (volume : String) : Happening ι → Option Bool
  | .begun _ => none
  | .answered _ e => e.tracks volume
  | .moved w => some (w.tracker.contains volume)

end Happening

namespace Site

/-- Whether a volume is tracked after what has happened to a site. -/
def trackedAfter (w : Site) (history : List (Happening ι)) (volume : String) : Bool :=
  (history.findSome? (Happening.tracks volume)).getD (w.tracker.contains volume)

theorem trackedAfter_append (w : Site) (since before : List (Happening ι)) (volume : String) :
    w.trackedAfter (since ++ before) volume =
      (since.findSome? (Happening.tracks volume)).getD (w.trackedAfter before volume) := by
  rw [trackedAfter, List.findSome?_append, trackedAfter]
  cases since.findSome? (Happening.tracks volume) <;> rfl

theorem trackedAfter_cons (w : Site) (h : Happening ι) (history : List (Happening ι))
    (volume : String) :
    w.trackedAfter (h :: history) volume =
      (h.tracks volume).getD (w.trackedAfter history volume) := by
  simp only [trackedAfter, List.findSome?_cons]
  cases h.tracks volume <;> rfl

/-- The latest look of a process at the tracker was right when it was made. -/
def Checked (w : Site) (i : ι) (volume : String) (tracked : Bool)
    (history : List (Happening ι)) : Prop :=
  ∃ since before, history = since ++ .answered i ⟨.isTracked volume, tracked⟩ :: before ∧
    (∀ e, .answered i e ∈ since → e.check? = none) ∧ tracked = w.trackedAfter before volume

end Site

namespace Pool

def pending? (p : Pool ι) (i : ι) : Option Request := (p.threads i).bind Thread.pending?

theorem head_of_pending {p : Pool ι} {i : ι} {q : Request} (h : p.pending? i = some q) :
    ∃ t k, p.threads i = some t ∧ t.rest.head = .ask q k := by
  obtain ⟨t, ht, hq⟩ := Option.bind_eq_some_iff.1 h
  rw [Thread.pending?] at hq
  split at hq
  · cases hq
  · next q' k hhead =>
    cases hq
    exact ⟨t, k, ht, hhead⟩

def move (p : Pool ι) (site : Site) : Pool ι :=
  { p with site, history := .moved site :: p.history }

@[simp] theorem move_site {p : Pool ι} {site : Site} : (p.move site).site = site := rfl

@[simp] theorem move_history {p : Pool ι} {site : Site} :
    (p.move site).history = .moved site :: p.history := rfl

end Pool

variable [DecidableEq ι]

namespace Pool

def start (w : Site) : Pool ι := ⟨w, fun _ => none, []⟩

def begin (p : Pool ι) (i : ι) (program : Prog Unit) : Pool ι where
  site := p.site
  threads := Function.update p.threads i (some ⟨[], program⟩)
  history := .begun i :: p.history

def answer (p : Pool ι) (i : ι) (e : Turn) (t : Thread) (site : Site) : Pool ι where
  site
  threads := Function.update p.threads i (some t)
  history := .answered i e :: p.history

def finish (p : Pool ι) (i : ι) : Pool ι :=
  { p with threads := Function.update p.threads i none }

section

variable {p : Pool ι} {i j : ι} {program : Prog Unit} {e : Turn} {t t' : Thread} {site : Site}

@[simp] theorem begin_site : (p.begin i program).site = p.site := rfl

@[simp] theorem begin_history : (p.begin i program).history = .begun i :: p.history := rfl

theorem begin_of_ne (h : j ≠ i) : (p.begin i program).threads j = p.threads j :=
  Function.update_of_ne h ..

@[simp] theorem answer_site : (p.answer i e t site).site = site := rfl

@[simp] theorem answer_history : (p.answer i e t site).history = .answered i e :: p.history := rfl

theorem answer_self : (p.answer i e t site).threads i = some t := Function.update_self ..

theorem answer_of_ne (h : j ≠ i) : (p.answer i e t site).threads j = p.threads j :=
  Function.update_of_ne h ..

theorem eq_of_update {threads : ι → Option Thread} {new : Option Thread}
    (h : Function.update threads i new j = some t) :
    j = i ∧ new = some t ∨ j ≠ i ∧ threads j = some t := by
  by_cases hj : j = i
  · subst hj
    rw [Function.update_self] at h
    exact .inl ⟨rfl, h⟩
  · rw [Function.update_of_ne hj] at h
    exact .inr ⟨hj, h⟩

theorem thread_of_begin (h : (p.begin i program).threads j = some t) :
    j = i ∧ t = ⟨[], program⟩ ∨ j ≠ i ∧ p.threads j = some t :=
  (eq_of_update h).imp_left fun hnew => ⟨hnew.1, (Option.some.inj hnew.2).symm⟩

theorem thread_of_answer (h : (p.answer i e t' site).threads j = some t) :
    j = i ∧ t = t' ∨ j ≠ i ∧ p.threads j = some t :=
  (eq_of_update h).imp_left fun hnew => ⟨hnew.1, (Option.some.inj hnew.2).symm⟩

theorem thread_of_finish (h : (p.finish i).threads j = some t) :
    j ≠ i ∧ p.threads j = some t := by
  rcases eq_of_update h with ⟨-, hnew⟩ | hold
  · cases hnew
  · exact hold

end

def reply (p : Pool ι) (i : ι) : Pool ι :=
  match p.threads i with
  | none => p
  | some t =>
    match t.rest.head with
    | .done _ => p
    | .ask q k =>
      p.answer i ⟨q, (p.site.reply q).1⟩ ⟨⟨q, (p.site.reply q).1⟩ :: t.past, k (p.site.reply q).1⟩
        (p.site.reply q).2

def replies (p : Pool ι) (i : ι) : Nat → Pool ι
  | 0 => p
  | n + 1 => (p.reply i).replies i n

theorem begun_of_replies {p : Pool ι} {i j : ι} {n : Nat}
    (h : .begun j ∈ (p.replies i n).history) : .begun j ∈ p.history := by
  induction n generalizing p with
  | zero => exact h
  | succ n ih =>
    have h := ih h
    rw [reply] at h
    split at h
    · exact h
    · split at h
      · exact h
      · exact (List.mem_cons.1 h).resolve_left nofun

end Pool

namespace Regime

inductive Step (R : Regime ι) : Pool ι → Pool ι → Prop
  | begin {p i} : p.threads i = none → R.admits p i → Step R p (p.begin i (R.program i))
  | answer {p i past rest q k x site} : p.threads i = some ⟨past, rest⟩ → rest.head = .ask q k →
      p.site.Answers R.faults q x site →
      Step R p (p.answer i ⟨q, x⟩ ⟨⟨q, x⟩ :: past, k x⟩ site)
  | finish {p i past rest} : p.threads i = some ⟨past, rest⟩ → rest.head = .done () →
      Step R p (p.finish i)
  | move {p site} : R.moves p site → Step R p (p.move site)

/-- The pools that a site may come to. -/
def Reach (R : Regime ι) (w : Site) : Pool ι → Prop := Relation.ReflTransGen R.Step (.start w)

variable {R : Regime ι} {w : Site} {p : Pool ι}

theorem Reach.start : R.Reach w (.start w) := .refl

theorem Reach.begin (h : R.Reach w p) {i : ι} (hi : p.threads i = none) (hadmits : R.admits p i) :
    R.Reach w (p.begin i (R.program i)) :=
  h.tail (.begin hi hadmits)

theorem Reach.move (h : R.Reach w p) {site : Site} (hmoves : R.moves p site) :
    R.Reach w (p.move site) :=
  h.tail (.move hmoves)

theorem Reach.replies (h : R.Reach w p) (i : ι) (n : Nat) : R.Reach w (p.replies i n) := by
  induction n generalizing p with
  | zero => exact h
  | succ n ih =>
    apply ih
    rw [Pool.reply]
    split
    · exact h
    · next t ht =>
      split
      · exact h
      · next q k hhead => exact h.tail (.answer ht hhead (Site.answers_reply _ _))

/-- What holds at the start and is kept by each step holds in every pool. -/
theorem Reach.inv {I : Pool ι → Prop} (h : R.Reach w p) (hstart : I (.start w))
    (hstep : ∀ p p', R.Reach w p → I p → R.Step p p' → I p') : I p := by
  induction h with
  | refl => exact hstart
  | tail h step ih => exact hstep _ _ h ih step

/-- What holds of each process when it begins, and is kept by its own answers, holds of it as long
as it runs. -/
theorem Reach.inv_thread {I : ι → Past → Prog Unit → Prop} (h : R.Reach w p)
    (hbegin : ∀ i, I i [] (R.program i))
    (hanswer : ∀ (p : Pool ι) i past rest q k x site, I i past rest → rest.head = .ask q k →
      p.site.Answers R.faults q x site → I i (⟨q, x⟩ :: past) (k x))
    {i : ι} {t : Thread} (ht : p.threads i = some t) : I i t.past t.rest := by
  suffices hall : ∀ i t, p.threads i = some t → I i t.past t.rest from hall i t ht
  apply h.inv (I := fun p => ∀ i t, p.threads i = some t → I i t.past t.rest)
    (fun _ _ ht => nomatch ht)
  intro p p' _ ih step j t ht
  cases step with
  | begin =>
    rcases Pool.thread_of_begin ht with ⟨rfl, rfl⟩ | ⟨-, ht⟩
    · exact hbegin j
    · exact ih j t ht
  | @answer i past rest q k x site hi hhead hx =>
    rcases Pool.thread_of_answer ht with ⟨rfl, rfl⟩ | ⟨-, ht⟩
    · exact hanswer _ j past rest q k x site (ih j _ hi) hhead hx
    · exact ih j t ht
  | finish => exact ih j t (Pool.thread_of_finish ht).2
  | move => exact ih j t ht

theorem Reach.at_answer (h : R.Reach w p) {i : ι} {e : Turn} {later earlier : List (Happening ι)}
    (hhistory : p.history = later ++ .answered i e :: earlier) :
    ∃ (p₀ : Pool ι) (t : Thread) (k : e.request.Answer → Prog Unit) (site : Site),
      R.Reach w p₀ ∧ p₀.history = earlier ∧ p₀.threads i = some t ∧
      t.rest.head = .ask e.request k ∧ p₀.site.Answers R.faults e.request e.answer site := by
  suffices hall : ∀ later, p.history = later ++ .answered i e :: earlier → _ from
    hall later hhistory
  refine h.inv (I := fun p => ∀ later, p.history = later ++ .answered i e :: earlier → _) ?_
    fun p p' hp ih step => ?_
  · intro later hlater
    cases later <;> cases hlater
  · cases step with
    | begin =>
      intro later hlater
      cases later with
      | nil => cases hlater
      | cons new later => exact ih later (List.cons.inj hlater).2
    | @answer j past rest q k x site hj hhead hx =>
      -- Either this is the answer, or it is one of those before.
      intro later hlater
      cases later with
      | nil =>
        cases hlater
        exact ⟨p, _, k, site, hp, rfl, hj, hhead, hx⟩
      | cons new later => exact ih later (List.cons.inj hlater).2
    | finish => exact ih
    | move =>
      intro later hlater
      cases later with
      | nil => cases hlater
      | cons new later => exact ih later (List.cons.inj hlater).2

theorem Reach.keeps {may : ι → Request → Past → Prop} {goal : ι → Unit → Past → Prop}
    (h : R.Reach w p) (hprogram : ∀ i, (R.program i).Keeps (may i) (goal i) []) {i : ι} {t : Thread}
    (ht : p.threads i = some t) : t.rest.Keeps (may i) (goal i) t.past := by
  apply h.inv_thread (I := fun i past rest => rest.Keeps (may i) (goal i) past) hprogram _ ht
  intro p i past rest q k x site hrest hhead _
  have hask := hrest.head
  rw [hhead] at hask
  exact hask.2 x

theorem Reach.genuine (h : R.Reach w p) {i : ι} {t : Thread} (ht : p.threads i = some t) :
    ∀ e ∈ t.past, e.Genuine := by
  apply h.inv_thread (I := fun _ past _ => ∀ e ∈ past, e.Genuine) (fun _ _ he => nomatch he) _ ht
  intro p i past rest q k x site hpast _ hx
  exact List.forall_mem_cons.2 ⟨Site.genuine_of_answers hx, hpast⟩

/-- The tracker is as the history tells. -/
theorem Reach.tracked (h : R.Reach w p) (volume : String) :
    p.site.tracker.contains volume = w.trackedAfter p.history volume := by
  apply h.inv (I := fun p => p.site.tracker.contains volume = w.trackedAfter p.history volume)
    rfl
  intro p p' _ ih step
  cases step with
  | begin => exact ih
  | answer _ _ hx =>
    rw [Pool.answer, Site.trackedAfter_cons, ← ih]
    exact Site.tracked_of_answers hx volume
  | finish => exact ih
  | move => rfl

/-- The latest answer of some kind that a process got is in the history, and no other answer of that
kind to the same process comes after it. -/
theorem Reach.latest {β : Type} {g : Turn → Option β} (h : R.Reach w p) {i : ι} {t : Thread}
    (ht : p.threads i = some t) {b : β} (hb : t.past.findSome? g = some b) :
    ∃ e since before, g e = some b ∧ p.history = since ++ .answered i e :: before ∧
      ∀ e', .answered i e' ∈ since → g e' = none := by
  revert i t b
  apply h.inv (I := fun p => ∀ {i t}, p.threads i = some t → ∀ {b}, t.past.findSome? g = some b →
      ∃ e since before, g e = some b ∧ p.history = since ++ .answered i e :: before ∧
        ∀ e', .answered i e' ∈ since → g e' = none) fun ht => nomatch ht
  intro p p' _ ih step j t ht b hb
  have hlater {t : Thread} (ht : p.threads j = some t) (hb : t.past.findSome? g = some b)
      {new : Happening ι} (hnew : ∀ e, new = .answered j e → g e = none) :
      ∃ e since before, g e = some b ∧ new :: p.history = since ++ .answered j e :: before ∧
        ∀ e', .answered j e' ∈ since → g e' = none := by
    obtain ⟨e, since, before, he, hhistory, hsince⟩ := ih ht hb
    refine ⟨e, new :: since, before, he, by rw [hhistory]; rfl, fun e' he' => ?_⟩
    rcases List.mem_cons.1 he' with he' | he'
    · exact hnew e' he'.symm
    · exact hsince e' he'
  cases step with
  | begin =>
    rcases Pool.thread_of_begin ht with ⟨rfl, rfl⟩ | ⟨-, ht⟩
    · cases hb
    · exact hlater ht hb fun _ he => nomatch he
  | @answer i past rest q k x site hi hhead hx =>
    rcases Pool.thread_of_answer ht with ⟨rfl, rfl⟩ | ⟨hj, ht⟩
    · rw [List.findSome?_cons] at hb
      cases he : g ⟨q, x⟩ with
      | some b' =>
        rw [he] at hb
        cases hb
        exact ⟨_, [], _, he, rfl, fun _ => nofun⟩
      | none =>
        rw [he] at hb
        apply hlater hi hb
        intro e hnew
        cases hnew
        exact he
    · apply hlater ht hb
      intro e he
      cases he
      exact absurd rfl hj
  | finish => exact ih (Pool.thread_of_finish ht).2 hb
  | move => exact hlater ht hb fun _ he => nomatch he

/-- The latest look of a process at the tracker was right when it was made. -/
theorem Reach.checked (h : R.Reach w p) {i : ι} {t : Thread} (ht : p.threads i = some t)
    {volume : String} {tracked : Bool} (hcheck : t.past.check? = some (volume, tracked)) :
    w.Checked i volume tracked p.history := by
  obtain ⟨e, since, before, he, hhistory, hsince⟩ := h.latest ht hcheck
  obtain ⟨p₀, _, _, _, hp₀, rfl, -, -, hx⟩ := h.at_answer hhistory
  obtain ⟨heq, htracked⟩ := Site.check_of_answers hx he
  obtain rfl : e = ⟨.isTracked volume, tracked⟩ := heq
  exact ⟨since, p₀.history, hhistory, hsince, htracked.trans (hp₀.tracked volume)⟩

end Regime

end VolumeExport
