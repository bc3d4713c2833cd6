import VolumeExport.Proofs.Access
import VolumeExport.Proofs.Renewal

namespace VolumeExport

def Turn.wrote : Turn → Bool
  | ⟨.call (.create ..), .ok _⟩ => true
  | ⟨.call (.replace ..), .ok _⟩ => true
  | ⟨.call (.delete ..), .ok _⟩ => true
  | _ => false

def Turn.isCall : Turn → Bool
  | ⟨.call _, _⟩ => true
  | _ => false

def Moment.asks (m : Moment) (q : Request) : Bool := m.turn.request = q

/-- How often others have changed the object of a key between two answers. -/
def Site.changes (w : Site) (k : Key) : List Moment → Nat
  | [] => 0
  | m :: ms =>
    w.changes k ms +
      if m.before.cluster.store.get? k = (w.along ms).cluster.store.get? k then 0 else 1

namespace Site

variable {w w' : Site} {q : Request} {x : q.Answer} {k : Key}

theorem changes_le_cons (w : Site) (k : Key) (m : Moment) (ms : List Moment) :
    w.changes k ms ≤ w.changes k (m :: ms) :=
  Nat.le_add_right _ _

theorem changes_lt_cons {m : Moment} {ms : List Moment}
    (h : m.before.cluster.store.get? k ≠ (w.along ms).cluster.store.get? k) :
    w.changes k ms < w.changes k (m :: ms) := by
  rw [changes, if_neg h]
  exact Nat.lt_succ_self _

theorem renews_of_answers {faults : ApiError → Prop} (h : w.Answers faults q x w') :
    w.cluster.Renews w'.cluster := by
  cases q with
  | call c =>
    rcases h with ⟨-, rfl⟩ | ⟨e, -, -, rfl⟩
    · exact w.cluster.renews_respond c
    · exact .refl _
  | _ =>
    rw [cluster_eq_of_answers h fun _ => nofun]
    exact .refl _

theorem read_of_answers {r : Resource} {ns name : Option String} {x : Except ApiError Object}
    (h : w.Answers (fun _ => False) (.call (.read r ns name)) x w') :
    x = w.cluster.read (.of r ns name) ∧ w' = w := by
  rcases h with ⟨rfl, rfl⟩ | ⟨e, he, -⟩
  · exact ⟨rfl, rfl⟩
  · exact he.elim

end Site

namespace Cluster

variable {c : Cluster} {k : Key}

theorem get?_of_read {o : Object} (h : c.read k = .ok o) : c.store.get? k = some o := by
  rw [read] at h
  split at h
  · next o' ho =>
    cases h
    exact ho
  · cases h

theorem get?_of_read_error {e : ApiError} (h : c.read k = .error e) : c.store.get? k = none := by
  rw [read] at h
  split at h
  · cases h
  · next ho => exact ho

theorem replace_cases (c : Cluster) (r : Resource) (k : Key) (body : Object) :
    (c.store.get? k = none ∧ c.replace r k body = (.error .notFound, c)) ∨
      ∃ o, c.store.get? k = some o ∧
        ((body.knownMetadata.resourceVersion = o.knownMetadata.resourceVersion ∧
            (∃ written, (c.replace r k body).1 = .ok written) ∧
            (c.replace r k body).2 = c.put r body) ∨
          (body.knownMetadata.resourceVersion ≠ o.knownMetadata.resourceVersion ∧
            c.replace r k body = (.error .conflict, c))) := by
  rw [replace]
  cases ho : c.store.get? k with
  | none => exact .inl ⟨rfl, rfl⟩
  | some o =>
    refine .inr ⟨o, rfl, ?_⟩
    by_cases hversion : body.knownMetadata.resourceVersion = o.knownMetadata.resourceVersion
    · dsimp only
      rw [if_pos hversion]
      exact .inl ⟨hversion, ⟨_, rfl⟩, rfl⟩
    · dsimp only
      rw [if_neg hversion]
      exact .inr ⟨hversion, rfl⟩

end Cluster

namespace Prog.Course

variable {α : Type} {w : Site} {p rest : Prog α} {ms : List Moment} {m : Moment}

theorem renews_along (h : Course .writers w p ms rest) : w.cluster.Renews (w.along ms).cluster := by
  induction h with
  | start => exact .refl _
  | answer _ _ hmoves hx ih =>
    exact (ih.trans (Site.renews_of_moves hmoves)).trans (Site.renews_of_answers hx)

theorem sealed_before (h : Course .writers w p (m :: ms) rest) (hw : w.cluster.Sealed) :
    m.before.cluster.Sealed := by
  obtain ⟨_, hearlier⟩ := h.tail
  exact hw.renews (hearlier.renews_along.trans (Site.renews_of_moves h.moment.1))

end Prog.Course

namespace Access

variable {r : Resource} {ns name : Option String}
  {change : Except Instant.Fault Instant → Object → Except Fault Object}
  {w : Site} {ms : List Moment} {rest : Prog (Except Fault Modified)}

theorem Lost.quiet {p : Past} (h : Lost r ns name change [] p) : ∀ e ∈ p, e.wrote = false := by
  induction h with
  | start => exact fun _ he => nomatch he
  | round _ _ _ _ ih =>
    exact List.forall_mem_cons.2 ⟨rfl, List.forall_mem_cons.2 ⟨rfl,
      List.forall_mem_cons.2 ⟨rfl, ih⟩⟩⟩

theorem Asks.quiet {q : Request} {p : Past} (h : Asks r ns name change [] q p) :
    ∀ e ∈ p, e.wrote = false := by
  cases h with
  | read h => exact h.quiet
  | now h => exact List.forall_mem_cons.2 ⟨rfl, h.quiet⟩
  | replace h => exact List.forall_mem_cons.2 ⟨rfl, List.forall_mem_cons.2 ⟨rfl, h.quiet⟩⟩

section

variable {p : Prog (Except Fault Modified)} {m₁ m₂ m₃ : Moment} {o body : Object}
  {t : Except Instant.Fault Instant} {y : Except ApiError Object}

theorem found_of_read (hcourse : p.Course .writers w (m₁ :: ms) rest)
    (hread : m₁.turn = ⟨.call (.read r ns name), .ok o⟩) :
    m₁.before.cluster.store.get? (.of r ns name) = some o ∧ m₁.after = m₁.before := by
  obtain ⟨v, e, v'⟩ := m₁
  obtain rfl : e = ⟨.call (.read r ns name), .ok o⟩ := hread
  obtain ⟨hfound, hafter⟩ : .ok o = v.cluster.read (.of r ns name) ∧ v' = v :=
    Site.read_of_answers hcourse.moment.2
  exact ⟨Cluster.get?_of_read hfound.symm, hafter⟩

theorem absent_of_read {e : ApiError} (hcourse : p.Course .writers w (m₁ :: ms) rest)
    (hread : m₁.turn = ⟨.call (.read r ns name), .error e⟩) :
    m₁.before.cluster.store.get? (.of r ns name) = none := by
  obtain ⟨v, t, v'⟩ := m₁
  obtain rfl : t = ⟨.call (.read r ns name), .error e⟩ := hread
  obtain ⟨hfound, -⟩ : .error e = v.cluster.read (.of r ns name) ∧ v' = v :=
    Site.read_of_answers hcourse.moment.2
  exact Cluster.get?_of_read_error hfound.symm

theorem same_of_now (hcourse : p.Course .writers w (m₂ :: ms) rest) (hnow : m₂.turn = ⟨.now, t⟩) :
    m₂.after = m₂.before := by
  obtain ⟨v, e, v'⟩ := m₂
  obtain rfl : e = ⟨.now, t⟩ := hnow
  exact hcourse.moment.2

/-- What was read stood in the store; if it does not any more when the round writes, others have
changed it within the round. -/
theorem viewed_of_course (h : p.Course .writers w (m₃ :: m₂ :: m₁ :: ms) rest)
    (hread : m₁.turn = ⟨.call (.read r ns name), .ok o⟩) (hnow : m₂.turn = ⟨.now, t⟩) :
    m₁.before.cluster.store.get? (.of r ns name) = some o ∧
      m₁.before.cluster.Renews m₃.before.cluster ∧
      (m₃.before.cluster.store.get? (.of r ns name) ≠ some o →
        w.changes (.of r ns name) ms < w.changes (.of r ns name) (m₃ :: m₂ :: m₁ :: ms)) := by
  obtain ⟨_, h₂⟩ := h.tail
  obtain ⟨_, h₁⟩ := h₂.tail
  obtain ⟨hfound, hafter₁⟩ := found_of_read h₁ hread
  have hafter₂ := same_of_now h₂ hnow
  have hmoves₂ := Site.renews_of_moves h₂.moment.1
  have hmoves₃ := Site.renews_of_moves h.moment.1
  simp only [Site.along, hafter₁, hafter₂] at hmoves₂ hmoves₃
  refine ⟨hfound, hmoves₂.trans hmoves₃, fun hne => ?_⟩
  have hle₁ := w.changes_le_cons (.of r ns name) m₁ ms
  have hle₂ := w.changes_le_cons (.of r ns name) m₂ (m₁ :: ms)
  have hle₃ := w.changes_le_cons (.of r ns name) m₃ (m₂ :: m₁ :: ms)
  -- One of the two boundaries within the round counts.
  by_cases h₃ : m₃.before.cluster.store.get? (.of r ns name) =
    m₂.before.cluster.store.get? (.of r ns name)
  · have hlt : w.changes (.of r ns name) (m₁ :: ms) < w.changes (.of r ns name) (m₂ :: m₁ :: ms) :=
      Site.changes_lt_cons (by rw [Site.along, hafter₁, hfound, ← h₃]; exact hne)
    omega
  · have hlt : w.changes (.of r ns name) (m₂ :: m₁ :: ms) <
        w.changes (.of r ns name) (m₃ :: m₂ :: m₁ :: ms) :=
      Site.changes_lt_cons (by rw [Site.along, hafter₂]; exact h₃)
    omega

/-- A replacement is accepted if and only if what was read still stands. -/
theorem replaced_of_course (h : p.Course .writers w (m₃ :: m₂ :: m₁ :: ms) rest)
    (hw : w.cluster.Sealed)
    (hversion : body.knownMetadata.resourceVersion = o.knownMetadata.resourceVersion)
    (hread : m₁.turn = ⟨.call (.read r ns name), .ok o⟩) (hnow : m₂.turn = ⟨.now, t⟩)
    (hreplace : m₃.turn = ⟨.call (.replace r ns name body), y⟩) :
    (∃ o', y = .ok o' ∧ m₃.before.cluster.store.get? (.of r ns name) = some o ∧
        m₃.after = m₃.before.storing r body) ∨
      (y = .error .conflict ∧ m₃.before.cluster.store.get? (.of r ns name) ≠ some o) ∨
      (y = .error .notFound ∧ m₃.before.cluster.store.get? (.of r ns name) = none) := by
  obtain ⟨hfound, hrenews, -⟩ := viewed_of_course h hread hnow
  obtain ⟨_, hcourse⟩ := h.tail
  obtain ⟨_, hcourse⟩ := hcourse.tail
  have hsealed := hcourse.sealed_before hw
  obtain ⟨v₃, e₃, v₃'⟩ := m₃
  obtain rfl : e₃ = ⟨.call (.replace r ns name body), y⟩ := hreplace
  obtain ⟨hy, hafter⟩ : y = (v₃.cluster.replace r (.of r ns name) body).1 ∧
      v₃' = v₃.after (.replace r ns name body) := by
    rcases h.moment.2 with hx | ⟨e, he, -⟩
    · exact hx
    · exact he.elim
  rcases v₃.cluster.replace_cases r (.of r ns name) body with
    ⟨hnone, hreplaced⟩ | ⟨o', ho', ⟨hsame, ⟨written, hwritten⟩, hput⟩ | ⟨hother, hreplaced⟩⟩
  · refine .inr (.inr ⟨?_, hnone⟩)
    rw [hy, hreplaced]
  · obtain rfl : o' = o := hrenews.eq_of_version hsealed hfound ho' (hsame.symm.trans hversion)
    refine .inl ⟨written, hy.trans hwritten, ho', ?_⟩
    rw [hafter]
    exact Site.eq_of_cluster hput rfl
  · refine .inr (.inl ⟨?_, fun ho => ?_⟩)
    · rw [hy, hreplaced]
    · obtain rfl : o' = o := Option.some.inj (ho'.symm.trans ho)
      exact hother hversion

end

theorem wrote_once (h : (modify r ns name change).run.Course .writers w ms rest) :
    ms.countP (·.turn.wrote) ≤ 1 := by
  cases ms with
  | nil => exact Nat.zero_le _
  | cons m ms =>
    have hquiet := (h.asked keeps_modify_rounds).quiet
    have hnone : ms.countP (·.turn.wrote) = 0 := by
      rw [List.countP_eq_zero]
      intro m hm
      rw [hquiet _ (List.mem_map_of_mem hm)]
      exact Bool.false_ne_true
    rw [List.countP_cons, hnone]
    split <;> omega

theorem unchanged_of_done {o : Object} {n : Nat}
    (h : (modify r ns name change).run.Course .writers w ms rest)
    (hdone : rest.head = .done (.ok ⟨some o, n⟩)) (hquiet : ∀ m ∈ ms, m.turn.wrote = false) :
    ∃ m t, ms.find? (·.asks (.call (.read r ns name))) = some m ∧
      m.before.cluster.store.get? (.of r ns name) = some o ∧ change t o = .ok o := by
  have hsettles := (h.keeps keeps_modify_rounds).head
  rw [hdone] at hsettles
  generalize hpast : ms.map Moment.turn = past at hsettles
  cases hsettles with
  | @same t _ _ past _ hsame =>
    obtain ⟨m₂, _, rfl, hnow, hpast⟩ := List.map_eq_cons_iff.1 hpast
    obtain ⟨m₁, ms, rfl, hread, rfl⟩ := List.map_eq_cons_iff.1 hpast
    obtain ⟨_, hcourse⟩ := h.tail
    refine ⟨m₁, t, ?_, (found_of_read hcourse hread).1, hsame⟩
    rw [List.find?_cons_of_neg (by simp [Moment.asks, hnow]),
      List.find?_cons_of_pos (by simp [Moment.asks, hread])]
  | written =>
    obtain ⟨m₃, _, rfl, hreplace, -⟩ := List.map_eq_cons_iff.1 hpast
    have hwrote := hquiet m₃ List.mem_cons_self
    rw [hreplace] at hwrote
    cases hwrote

section

variable (hw : w.cluster.Sealed) (hversion : ∀ t o body, change t o = .ok body →
  body.knownMetadata.resourceVersion = o.knownMetadata.resourceVersion)

include hw hversion

/-- Each lost round was lost to a change of others, and took three answers. -/
theorem changes_of_lost {p : Prog (Except Fault Modified)} (h : p.Course .writers w ms rest)
    (hlost : Lost r ns name change [] (ms.map Moment.turn)) :
    ms.length ≤ 3 * w.changes (.of r ns name) ms ∧
      ms.countP (·.asks (.call (.read r ns name))) ≤ w.changes (.of r ns name) ms := by
  generalize hpast : ms.map Moment.turn = past at hlost
  induction hlost generalizing ms rest with
  | start =>
    obtain rfl := List.map_eq_nil_iff.1 hpast
    exact ⟨Nat.le_refl _, Nat.le_refl _⟩
  | @round t o body e past hlost hbody hne hconflict ih =>
    obtain ⟨m₃, _, rfl, hreplace, hpast⟩ := List.map_eq_cons_iff.1 hpast
    obtain ⟨m₂, _, rfl, hnow, hpast⟩ := List.map_eq_cons_iff.1 hpast
    obtain ⟨m₁, ms, rfl, hread, hpast⟩ := List.map_eq_cons_iff.1 hpast
    obtain ⟨-, -, hchanged⟩ := viewed_of_course h hread hnow
    have hgone : m₃.before.cluster.store.get? (.of r ns name) ≠ some o := by
      rcases replaced_of_course h hw (hversion t o body hbody) hread hnow hreplace with
        ⟨_, hy, -⟩ | ⟨-, hne⟩ | ⟨-, hnone⟩
      · cases hy
      · exact hne
      · rw [hnone]
        exact nofun
    have hmore := hchanged hgone
    obtain ⟨_, hearlier⟩ := Prog.Course.earlier [m₃, m₂, m₁] h
    obtain ⟨hlength, hreads⟩ := ih hearlier hpast
    refine ⟨?_, ?_⟩
    · simp only [List.length_cons]
      omega
    · rw [List.countP_cons_of_neg (by simp [Moment.asks, hreplace]),
        List.countP_cons_of_neg (by simp [Moment.asks, hnow]),
        List.countP_cons_of_pos (by simp [Moment.asks, hread])]
      omega

/-- Whatever is asked next, there were at most two answers since the latest lost round. -/
theorem changes_of_asks {p : Prog (Except Fault Modified)} {q : Request}
    (h : p.Course .writers w ms rest)
    (hq : Asks r ns name change [] q (ms.map Moment.turn)) :
    ms.length < 3 * (1 + w.changes (.of r ns name) ms) ∧
      ms.countP (·.asks (.call (.read r ns name))) + (if q = .call (.read r ns name) then 1 else 0) ≤
        1 + w.changes (.of r ns name) ms := by
  generalize hpast : ms.map Moment.turn = past at hq
  cases hq with
  | read hlost =>
    rw [← hpast] at hlost
    obtain ⟨hlength, hreads⟩ := changes_of_lost hw hversion h hlost
    rw [if_pos rfl]
    omega
  | @now o past hlost =>
    obtain ⟨m₁, ms, rfl, hread, rfl⟩ := List.map_eq_cons_iff.1 hpast
    obtain ⟨_, hearlier⟩ := h.tail
    obtain ⟨hlength, hreads⟩ := changes_of_lost hw hversion hearlier hlost
    have hle := w.changes_le_cons (.of r ns name) m₁ ms
    rw [List.countP_cons_of_pos (by simp [Moment.asks, hread]), if_neg nofun, List.length_cons]
    omega
  | @replace t o body past hlost =>
    obtain ⟨m₂, _, rfl, hnow, hpast⟩ := List.map_eq_cons_iff.1 hpast
    obtain ⟨m₁, ms, rfl, hread, rfl⟩ := List.map_eq_cons_iff.1 hpast
    obtain ⟨_, hearlier⟩ := Prog.Course.earlier [m₂, m₁] h
    obtain ⟨hlength, hreads⟩ := changes_of_lost hw hversion hearlier hlost
    have hle₁ := w.changes_le_cons (.of r ns name) m₁ ms
    have hle₂ := w.changes_le_cons (.of r ns name) m₂ (m₁ :: ms)
    rw [List.countP_cons_of_neg (by simp [Moment.asks, hnow]),
      List.countP_cons_of_pos (by simp [Moment.asks, hread]), if_neg nofun, List.length_cons,
      List.length_cons]
    omega

theorem stored_of_wrote {m : Moment}
    (h : (modify r ns name change).run.Course .writers w ms rest) (hm : m ∈ ms)
    (hwrote : m.turn.wrote) :
    ∃ t o body, ⟨.now, t⟩ ∈ ms.map Moment.turn ∧
      m.turn.request = .call (.replace r ns name body) ∧ change t o = .ok body ∧
      m.before.cluster.store.get? (.of r ns name) = some o ∧
      m.after = m.before.storing r body := by
  obtain ⟨later, ms, rfl⟩ := List.append_of_mem hm
  obtain ⟨_, hcourse⟩ := h.earlier
  have hasked := hcourse.asked keeps_modify_rounds
  obtain ⟨v, ⟨q, x⟩, v'⟩ := m
  generalize hpast : ms.map Moment.turn = past at hasked
  cases hasked with
  | read => cases x <;> cases hwrote
  | now => cases hwrote
  | @replace t o body past _ hbody =>
    obtain ⟨m₂, _, rfl, hnow, hpast⟩ := List.map_eq_cons_iff.1 hpast
    obtain ⟨m₁, ms, rfl, hread, rfl⟩ := List.map_eq_cons_iff.1 hpast
    rcases replaced_of_course hcourse hw (hversion t o body hbody) hread hnow rfl with
      ⟨o', rfl, hfound, hafter⟩ | ⟨rfl, -⟩ | ⟨rfl, -⟩
    · refine ⟨t, o, body, ?_, rfl, hbody, hfound, hafter⟩
      rw [← hnow]
      exact List.mem_map_of_mem (List.mem_append_right _ (List.mem_cons_of_mem _
        List.mem_cons_self))
    · cases hwrote
    · cases hwrote

theorem absent_of_done {n : Nat}
    (h : (modify r ns name change).run.Course .writers w ms rest)
    (hdone : rest.head = .done (.ok ⟨none, n⟩)) :
    ∃ m, ms.find? (·.turn.isCall) = some m ∧
      m.before.cluster.store.get? (.of r ns name) = none := by
  have hsettles := (h.keeps keeps_modify_rounds).head
  rw [hdone] at hsettles
  generalize hpast : ms.map Moment.turn = past at hsettles
  cases hsettles with
  | absent =>
    obtain ⟨m₁, ms, rfl, hread, -⟩ := List.map_eq_cons_iff.1 hpast
    refine ⟨m₁, ?_, absent_of_read h hread⟩
    exact List.find?_cons_of_pos (by simp [hread, Turn.isCall])
  | @gone t o body e _ past _ hbody he =>
    obtain ⟨m₃, _, rfl, hreplace, hpast⟩ := List.map_eq_cons_iff.1 hpast
    obtain ⟨m₂, _, rfl, hnow, hpast⟩ := List.map_eq_cons_iff.1 hpast
    obtain ⟨m₁, ms, rfl, hread, rfl⟩ := List.map_eq_cons_iff.1 hpast
    refine ⟨m₃, List.find?_cons_of_pos (by simp [hreplace, Turn.isCall]), ?_⟩
    rcases replaced_of_course h hw (hversion t o body hbody) hread hnow hreplace with
      ⟨_, hy, -⟩ | ⟨hy, -⟩ | ⟨-, hnone⟩
    · cases hy
    · cases hy
      cases he
    · exact hnone

theorem reads_le_changes (h : (modify r ns name change).run.Course .writers w ms rest) :
    ms.countP (·.asks (.call (.read r ns name))) ≤ 1 + w.changes (.of r ns name) ms := by
  cases ms with
  | nil => exact Nat.zero_le _
  | cons m ms =>
    obtain ⟨_, hearlier⟩ := h.tail
    have hreads := (changes_of_asks hw hversion hearlier (h.asked keeps_modify_rounds)).2
    have hle := w.changes_le_cons (.of r ns name) m ms
    have hcons : (m :: ms).countP (·.asks (.call (.read r ns name))) =
        ms.countP (·.asks (.call (.read r ns name))) +
          if m.turn.request = .call (.read r ns name) then 1 else 0 := by
      rw [List.countP_cons]
      simp only [Moment.asks, decide_eq_true_eq]
    omega

end

/-- What a change of an object amounts to, as far as it has come. -/
structure Atomic (r : Resource) (ns name : Option String)
    (change : Except Instant.Fault Instant → Object → Except Fault Object) (w : Site)
    (ms : List Moment) (rest : Prog (Except Fault Modified)) : Prop where
  once : ms.countP (·.turn.wrote) ≤ 1
  /-- What is written is made from what stands in the store right before. -/
  stored : ∀ m ∈ ms, m.turn.wrote → ∃ t o body, ⟨.now, t⟩ ∈ ms.map Moment.turn ∧
    m.turn.request = .call (.replace r ns name body) ∧ change t o = .ok body ∧
    m.before.cluster.store.get? (.of r ns name) = some o ∧ m.after = m.before.storing r body
  /-- An object that is given back without a write is the one read last. -/
  unchanged : ∀ o n, rest.head = .done (.ok ⟨some o, n⟩) → (∀ m ∈ ms, m.turn.wrote = false) →
    ∃ m t, ms.find? (·.asks (.call (.read r ns name))) = some m ∧
      m.before.cluster.store.get? (.of r ns name) = some o ∧ change t o = .ok o
  absent : ∀ n, rest.head = .done (.ok ⟨none, n⟩) →
    ∃ m, ms.find? (·.turn.isCall) = some m ∧ m.before.cluster.store.get? (.of r ns name) = none
  reads : ms.countP (·.asks (.call (.read r ns name))) ≤ 1 + w.changes (.of r ns name) ms
  /-- As long as it has not ended, there is a bound on the answers. -/
  length : ∀ q k, rest.head = .ask q k → ms.length < 3 * (1 + w.changes (.of r ns name) ms)

/-- A change of an object among writers is atomic, and it ends unless others change the object
forever. -/
theorem atomic_modify {w : Site} {ms : List Moment} {rest : Prog (Except Fault Modified)}
    (hw : w.cluster.Sealed)
    (hversion : ∀ t o body, change t o = .ok body →
      body.knownMetadata.resourceVersion = o.knownMetadata.resourceVersion)
    (h : (modify r ns name change).run.Course .writers w ms rest) :
    Atomic r ns name change w ms rest where
  once := wrote_once h
  stored _ hm hwrote := stored_of_wrote hw hversion h hm hwrote
  unchanged _ _ hdone hquiet := unchanged_of_done h hdone hquiet
  absent _ hdone := absent_of_done hw hversion h hdone
  reads := reads_le_changes hw hversion h
  length := by
    intro q k hask
    have hq := (h.keeps keeps_modify_rounds).head
    rw [hask] at hq
    exact (changes_of_asks hw hversion h hq.1).1

def mark (_ : Except Instant.Fault Instant) (o : Object) : Except Fault Object :=
  .ok (o.set "seen" (.bool true))

def plainVolume : Object := ⟨some { Metadata.empty with name := some "v" }, []⟩

/-- The volume `v` is to be marked, and others store it again between the first read and the first
replacement. -/
def disturbed : List Moment × Prog (Except Fault Modified) :=
  Prog.replay (.holding [(.volume, plainVolume)]) (modify .volume none (some "v") mark).run
    [.none, .none, .none, ⟨(·.storing .volume plainVolume), none⟩, .none, .none]

theorem course_disturbed :
    (modify .volume none (some "v") mark).run.Course .writers (.holding [(.volume, plainVolume)])
      disturbed.1 disturbed.2 := by
  have hquiet : Incident.none.among .writers := ⟨fun _ => .refl, fun _ h => nomatch h⟩
  apply Prog.course_replay
  simp only [List.forall_mem_cons]
  exact ⟨hquiet, hquiet, hquiet, ⟨fun _ => .single (.store _ _), fun _ h => nomatch h⟩, hquiet,
    hquiet, fun _ h => nomatch h⟩

theorem atomic_modify_disturbed :
    disturbed.1.map (·.turn.wrote) = [true, false, false, false, false, false] ∧
      Atomic .volume none (some "v") mark (.holding [(.volume, plainVolume)])
        disturbed.1 disturbed.2 := by
  refine ⟨by decide +kernel, atomic_modify (Site.sealed_holding _) ?_ course_disturbed⟩
  rintro t o _ ⟨⟩
  rfl

end Access

end VolumeExport
