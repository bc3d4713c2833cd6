import VolumeExport.Proofs.Steps

namespace VolumeExport

/-- Others may do anything, and calls fail without telling anything about objects. -/
def Surroundings.crowd : Surroundings := ⟨Site.Mute, fun _ _ => True⟩

theorem Incident.among_crowd {i : Incident} (h : i.among .alone) : i.among .crowd :=
  ⟨fun _ => trivial, h.2⟩

def Moment.Served (m : Moment) (c : Call) : Prop :=
  m.turn = ⟨.call c, (m.before.cluster.respond c).1⟩

namespace Prog

variable {α β : Type} {S : Surroundings} {w : Site} {ms : List Moment} {p : Prog α}

/-- After some moments a program waits for the answer to a request. -/
def Waits (S : Surroundings) (w : Site) (p : Prog α) (ms : List Moment) (q : Request) : Prop :=
  ∃ rest k, Course S w p ms rest ∧ rest.head = .ask q k

theorem Waits.asked {may : Request → Past → Prop} {goal : α → Past → Prop} {q : Request}
    (h : p.Waits S w ms q) (hp : p.Keeps may goal []) : may q (ms.map Moment.turn) := by
  obtain ⟨rest, k, hcourse, hhead⟩ := h
  have hask := (hcourse.keeps hp).head
  rw [hhead] at hask
  exact hask.1

/-- What a program has asked it was allowed to ask. -/
theorem Course.all_asked {may : Request → Past → Prop} {goal : α → Past → Prop} {rest : Prog α}
    (h : Course S w p ms rest) (hp : p.Keeps may goal []) :
    ∀ m ∈ ms, ∃ before, may m.turn.request before := by
  induction h with
  | start => exact fun m hm => nomatch hm
  | answer h hhead _ _ ih =>
    have hask := (h.keeps hp).head
    rw [hhead] at hask
    exact List.forall_mem_cons.2 ⟨⟨_, hask.1⟩, ih⟩

/-- A run of two programs is still in the first, or it goes on in the second from where the first
has ended. -/
theorem Course.bind_cases {f : α → Prog β} {rest : Prog β} (h : Course S w (p.bind f) ms rest) :
    (∃ r, Course S w p ms r ∧ rest = r.bind f) ∨
      ∃ a first later, ms = later ++ first ∧ p.Runs S w first a ∧
        Course S (w.along first) (f a) later rest := by
  induction h with
  | start => exact .inl ⟨p, .start, rfl⟩
  | @answer ms rest q k v x v' _ hhead hmoves hx ih =>
    rcases ih with ⟨r, hr, rfl⟩ | ⟨a, first, later, rfl, hruns, hlater⟩
    · rw [head_bind] at hhead
      cases hnext : r.head with
      | done a =>
        rw [hnext] at hhead
        exact .inr ⟨a, ms, [⟨v, ⟨q, x⟩, v'⟩], rfl, ⟨r, hr, hnext⟩, .answer .start hhead hmoves hx⟩
      | ask q' k' =>
        rw [hnext] at hhead
        cases hhead
        exact .inl ⟨k' x, .answer hr hnext hmoves hx, rfl⟩
    · rw [Site.along_append] at hmoves
      exact .inr ⟨a, first, ⟨v, ⟨q, x⟩, v'⟩ :: later, rfl, hruns, .answer hlater hhead hmoves hx⟩

theorem Waits.bind_cases {f : α → Prog β} {q : Request} (h : (p.bind f).Waits S w ms q) :
    p.Waits S w ms q ∨ ∃ a first later, ms = later ++ first ∧ p.Runs S w first a ∧
      (f a).Waits S (w.along first) later q := by
  obtain ⟨rest, k, hcourse, hhead⟩ := h
  rcases hcourse.bind_cases with ⟨r, hr, rfl⟩ | ⟨a, first, later, hms, hruns, hlater⟩
  · rw [head_bind] at hhead
    cases hnext : r.head with
    | done a =>
      rw [hnext] at hhead
      exact .inr ⟨a, ms, [], rfl, ⟨r, hr, hnext⟩, f a, k, .start, hhead⟩
    | ask q' k' =>
      rw [hnext] at hhead
      cases hhead
      exact .inl ⟨r, k', hr, hnext⟩
  · exact .inr ⟨a, first, later, hms, hruns, rest, k, hlater, hhead⟩

theorem Runs.bind_cases {f : α → Prog β} {b : β} (h : (p.bind f).Runs S w ms b) :
    ∃ a first later, ms = later ++ first ∧ p.Runs S w first a ∧
      (f a).Runs S (w.along first) later b := by
  obtain ⟨rest, hcourse, hhead⟩ := h
  rcases hcourse.bind_cases with ⟨r, hr, rfl⟩ | ⟨a, first, later, hms, hruns, hlater⟩
  · rw [head_bind] at hhead
    cases hnext : r.head with
    | done a =>
      rw [hnext] at hhead
      exact ⟨a, ms, [], rfl, ⟨r, hr, hnext⟩, f a, .start, hhead⟩
    | ask q k =>
      rw [hnext] at hhead
      cases hhead
  · exact ⟨a, first, later, hms, hruns, rest, hlater, hhead⟩

theorem Course.of_ask {q : Request} {k : q.Answer → Prog α} {rest : Prog α}
    (hhead : p.head = .ask q k) (h : Course S w p ms rest) :
    ms = [] ∧ rest = p ∨ ∃ v x v' later, ms = later ++ [⟨v, ⟨q, x⟩, v'⟩] ∧ S.moves w v ∧
      v.Answers S.faults q x v' ∧ Course S v' (k x) later rest := by
  induction h with
  | start => exact .inl ⟨rfl, rfl⟩
  | @answer ms rest q' k' u y u' _ hrest hmoves hy ih =>
    rcases ih with ⟨rfl, rfl⟩ | ⟨v, x, v', later, rfl, hv, hx, hlater⟩
    · rw [hhead] at hrest
      cases hrest
      exact .inr ⟨u, y, u', [], rfl, hmoves, hy, .start⟩
    · rw [Site.along_append] at hmoves
      exact .inr ⟨v, x, v', _ :: later, rfl, hv, hx, .answer hlater hrest hmoves hy⟩

theorem Runs.of_ask {q : Request} {k : q.Answer → Prog α} {a : α} (hhead : p.head = .ask q k)
    (h : p.Runs S w ms a) :
    ∃ v x v' later, ms = later ++ [⟨v, ⟨q, x⟩, v'⟩] ∧ S.moves w v ∧ v.Answers S.faults q x v' ∧
      (k x).Runs S v' later a := by
  obtain ⟨rest, hcourse, hdone⟩ := h
  rcases hcourse.of_ask hhead with ⟨-, rfl⟩ | ⟨v, x, v', later, hms, hv, hx, hlater⟩
  · rw [hhead] at hdone
    cases hdone
  · exact ⟨v, x, v', later, hms, hv, hx, rest, hlater, hdone⟩

theorem Waits.of_ask {q q' : Request} {k : q.Answer → Prog α} (hhead : p.head = .ask q k)
    (h : p.Waits S w ms q') :
    ms = [] ∧ q' = q ∨ ∃ v x v' later, ms = later ++ [⟨v, ⟨q, x⟩, v'⟩] ∧ S.moves w v ∧
      v.Answers S.faults q x v' ∧ (k x).Waits S v' later q' := by
  obtain ⟨rest, k', hcourse, hrest⟩ := h
  rcases hcourse.of_ask hhead with ⟨rfl, rfl⟩ | ⟨v, x, v', later, hms, hv, hx, hlater⟩
  · rw [hhead] at hrest
    cases hrest
    exact .inl ⟨rfl, rfl⟩
  · exact .inr ⟨v, x, v', later, hms, hv, hx, rest, k', hlater, hrest⟩

theorem Course.eq_of_done {a : α} {rest : Prog α} (h : Course S w (.done a) ms rest) :
    ms = [] ∧ rest = .done a := by
  induction h with
  | start => exact ⟨rfl, rfl⟩
  | answer _ hhead _ _ ih =>
    obtain ⟨-, rfl⟩ := ih
    cases hhead

theorem Runs.eq_of_done {a b : α} (h : (Prog.done a).Runs S w ms b) : ms = [] ∧ b = a := by
  obtain ⟨_, hcourse, hhead⟩ := h
  obtain ⟨rfl, rfl⟩ := hcourse.eq_of_done
  cases hhead
  exact ⟨rfl, rfl⟩

theorem not_waits_done {a : α} {q : Request} : ¬(Prog.done a).Waits S w ms q := by
  rintro ⟨_, k, hcourse, hhead⟩
  obtain ⟨rfl, rfl⟩ := hcourse.eq_of_done
  cases hhead

theorem Course.request_cases {q : Request} {rest : Prog q.Answer}
    (h : Course S w (request q) ms rest) :
    ms = [] ∧ rest = request q ∨ ∃ v x v', ms = [⟨v, ⟨q, x⟩, v'⟩] ∧ v.Answers S.faults q x v' ∧
      rest = .done x := by
  induction h with
  | start => exact .inl ⟨rfl, rfl⟩
  | answer _ hhead _ hx ih =>
    rcases ih with ⟨rfl, rfl⟩ | ⟨_, _, _, -, -, rfl⟩
    · cases hhead
      exact .inr ⟨_, _, _, rfl, hx, rfl⟩
    · cases hhead

theorem Runs.of_request {q : Request} {x : q.Answer} (h : (request q).Runs S w ms x) :
    ∃ v v', ms = [⟨v, ⟨q, x⟩, v'⟩] ∧ v.Answers S.faults q x v' := by
  obtain ⟨_, hcourse, hhead⟩ := h
  rcases hcourse.request_cases with ⟨-, rfl⟩ | ⟨v, y, v', rfl, hy, rfl⟩
  · cases hhead
  · cases hhead
    exact ⟨v, v', rfl, hy⟩

theorem Waits.of_request {q q' : Request} (h : (request q).Waits S w ms q') : ms = [] ∧ q' = q := by
  obtain ⟨_, _, hcourse, hhead⟩ := h
  rcases hcourse.request_cases with ⟨rfl, rfl⟩ | ⟨_, _, _, -, -, rfl⟩
  · cases hhead
    exact ⟨rfl, rfl⟩
  · cases hhead

def request? (p : Prog α) : Option Request :=
  match p.head with
  | .done _ => none
  | .ask q _ => some q

theorem waits_replay {is : List Incident} {q : Request} (h : ∀ i ∈ is, i.among S)
    (hq : (replay w p is).2.request? = some q) : p.Waits S w (replay w p is).1 q := by
  rw [request?] at hq
  split at hq
  · cases hq
  · next q' k hhead =>
    cases hq
    exact ⟨_, k, course_replay w p h, hhead⟩

end Prog

namespace Action

variable {α β : Type} {S : Surroundings} {w : Site} {ms : List Moment} {a : Action α}
  {f : α → Action β}

abbrev Waits (S : Surroundings) (w : Site) (a : Action α) (ms : List Moment) (q : Request) : Prop :=
  a.run.Waits S w ms q

abbrev Runs (S : Surroundings) (w : Site) (a : Action α) (ms : List Moment) (r : Except Fault α) :
    Prop :=
  a.run.Runs S w ms r

theorem Waits.bind_cases {q : Request} (h : (a >>= f).Waits S w ms q) :
    a.Waits S w ms q ∨ ∃ x first later, ms = later ++ first ∧ a.Runs S w first (.ok x) ∧
      (f x).Waits S (w.along first) later q := by
  rcases Prog.Waits.bind_cases h with h | ⟨r, first, later, hms, hruns, hlater⟩
  · exact .inl h
  · cases r with
    | ok x => exact .inr ⟨x, first, later, hms, hruns, hlater⟩
    | error e => exact absurd hlater Prog.not_waits_done

theorem Runs.bind_cases {y : β} (h : (a >>= f).Runs S w ms (.ok y)) :
    ∃ x first later, ms = later ++ first ∧ a.Runs S w first (.ok x) ∧
      (f x).Runs S (w.along first) later (.ok y) := by
  obtain ⟨r, first, later, hms, hruns, hlater⟩ := Prog.Runs.bind_cases h
  cases r with
  | ok x => exact ⟨x, first, later, hms, hruns, hlater⟩
  | error e => nomatch (Prog.Runs.eq_of_done hlater).2

theorem not_waits_pure {x : α} {q : Request} : ¬(pure x : Action α).Waits S w ms q :=
  Prog.not_waits_done

theorem Runs.eq_of_pure {x y : α} (h : (pure x : Action α).Runs S w ms (.ok y)) :
    ms = [] ∧ y = x := by
  obtain ⟨hms, hy⟩ := Prog.Runs.eq_of_done h
  exact ⟨hms, Except.ok.inj hy⟩

theorem Runs.not_fail {e : Fault} {y : α} : ¬(fail e : Action α).Runs S w ms (.ok y) := by
  intro h
  nomatch (Prog.Runs.eq_of_done h).2

theorem Waits.ite_cases {c : Prop} [Decidable c] {b : Action α} {q : Request}
    (h : Waits S w (if c then a else b) ms q) : c ∧ a.Waits S w ms q ∨ ¬c ∧ b.Waits S w ms q := by
  split at h
  · exact .inl ⟨‹_›, h⟩
  · exact .inr ⟨‹_›, h⟩

theorem Runs.ite_cases {c : Prop} [Decidable c] {b : Action α} {r : Except Fault α}
    (h : Runs S w (if c then a else b) ms r) : c ∧ a.Runs S w ms r ∨ ¬c ∧ b.Runs S w ms r := by
  split at h
  · exact .inl ⟨‹_›, h⟩
  · exact .inr ⟨‹_›, h⟩

theorem Waits.of_outcome {q : Request} (h : a.outcome.Waits S w ms q) : a.Waits S w ms q := by
  rcases Prog.Waits.bind_cases h with h | ⟨_, _, _, -, -, hlater⟩
  · exact h
  · exact absurd hlater Prog.not_waits_done

theorem Runs.of_outcome {r : Except Fault α} (h : a.outcome.Runs S w ms (.ok r)) :
    a.Runs S w ms r := by
  obtain ⟨r', first, later, rfl, hruns, hlater⟩ := Prog.Runs.bind_cases h
  obtain ⟨rfl, hr⟩ := Prog.Runs.eq_of_done hlater
  cases hr
  exact hruns

/-- An action that begins with a request waits for it, or goes on after its answer. -/
theorem Waits.ask_cases {q q' : Request} {f : q.Answer → Action β}
    (h : (request q >>= f).Waits S w ms q') :
    ms = [] ∧ q' = q ∨ ∃ v x v' later, ms = later ++ [⟨v, ⟨q, x⟩, v'⟩] ∧
      v.Answers S.faults q x v' ∧ (f x).Waits S v' later q' := by
  rcases h.bind_cases with h | ⟨x, first, later, rfl, hruns, hlater⟩
  · rcases Prog.Waits.bind_cases h with h | ⟨_, _, _, -, -, hlater⟩
    · exact .inl h.of_request
    · exact absurd hlater Prog.not_waits_done
  · obtain ⟨y, first, rest, rfl, hfirst, hrest⟩ := Prog.Runs.bind_cases hruns
    obtain ⟨rfl, hy⟩ := Prog.Runs.eq_of_done hrest
    cases hy
    obtain ⟨v, v', rfl, hx⟩ := hfirst.of_request
    exact .inr ⟨v, x, v', later, rfl, hx, hlater⟩

theorem Runs.of_ask {q : Request} {f : q.Answer → Action β} {r : Except Fault β}
    (h : (request q >>= f).Runs S w ms r) :
    ∃ v x v' later, ms = later ++ [⟨v, ⟨q, x⟩, v'⟩] ∧ S.moves w v ∧ v.Answers S.faults q x v' ∧
      (f x).Runs S v' later r :=
  Prog.Runs.of_ask (k := fun x => (f x).run) rfl h

theorem Waits.of_ask {q q' : Request} {f : q.Answer → Action β}
    (h : (request q >>= f).Waits S w ms q') :
    ms = [] ∧ q' = q ∨ ∃ v x v' later, ms = later ++ [⟨v, ⟨q, x⟩, v'⟩] ∧ S.moves w v ∧
      v.Answers S.faults q x v' ∧ (f x).Waits S v' later q' :=
  Prog.Waits.of_ask (k := fun x => (f x).run) rfl h

/-- A program waits for what begins its rounds, in a round, or in those after it. -/
theorem Waits.of_rounds {σ : Type} {s : σ} {q q' : Request}
    {round : σ → q.Answer → Action (σ ⊕ α)} (h : (rounds s q round).Waits S w ms q') :
    ms = [] ∧ q' = q ∨ ∃ v x v' later, ms = later ++ [⟨v, ⟨q, x⟩, v'⟩] ∧ S.moves w v ∧
      v.Answers S.faults q x v' ∧ ((round s x).Waits S v' later q' ∨
        ∃ s' first rest, later = rest ++ first ∧ (round s x).Runs S v' first (.ok (.inl s')) ∧
          (rounds s' q round).Waits S (v'.along first) rest q') := by
  rcases Prog.Waits.of_ask rfl h with h | ⟨v, x, v', later, hms, hv, hx, hlater⟩
  · exact .inl h
  refine .inr ⟨v, x, v', later, hms, hv, hx, ?_⟩
  rcases hlater.bind_cases with hround | ⟨ended, first, rest, rfl, hended, hrest⟩
  · rcases Prog.Waits.bind_cases hround with hround | ⟨found, _, _, -, -, hdone⟩
    · exact .inl hround
    · cases found with
      | error e => exact absurd hdone Prog.not_waits_done
      | ok found =>
        cases found with
        | inl s' => exact absurd hdone Prog.not_waits_done
        | inr y => exact absurd hdone Prog.not_waits_done
  · obtain ⟨found, first, last, rfl, hfirst, hdone⟩ := Prog.Runs.bind_cases hended
    cases found with
    | error e =>
      obtain ⟨rfl, rfl⟩ := hdone.eq_of_done
      exact absurd hrest Prog.not_waits_done
    | ok found =>
      cases found with
      | inl s' =>
        obtain ⟨rfl, rfl⟩ := hdone.eq_of_done
        exact .inr ⟨s', first, rest, rfl, hfirst, hrest⟩
      | inr y =>
        obtain ⟨rfl, rfl⟩ := hdone.eq_of_done
        exact absurd hrest Prog.not_waits_done

theorem Waits.of_lift {x : Except Fault α} {q : Request} (h : Waits S w (liftM x >>= f) ms q) :
    ∃ a, x = .ok a ∧ (f a).Waits S w ms q := by
  cases x with
  | ok a => exact ⟨a, rfl, h⟩
  | error e => exact absurd h Prog.not_waits_done

theorem Waits.of_orElseFault {g : Fault → Fault} {q : Request}
    (h : (a.orElseFault g).Waits S w ms q) : a.Waits S w ms q := by
  rcases Waits.bind_cases h with h | ⟨r, _, _, -, -, hlater⟩
  · exact h.of_outcome
  · cases r with
    | ok x => exact absurd hlater Prog.not_waits_done
    | error e => exact absurd hlater Prog.not_waits_done

theorem Runs.of_orElseFault {g : Fault → Fault} {x : α}
    (h : (a.orElseFault g).Runs S w ms (.ok x)) : a.Runs S w ms (.ok x) := by
  obtain ⟨r, first, later, rfl, hruns, hlater⟩ := Runs.bind_cases h
  cases r with
  | ok y =>
    obtain ⟨rfl, rfl⟩ := Runs.eq_of_pure hlater
    exact hruns.of_outcome
  | error e => exact absurd hlater Runs.not_fail

theorem Waits.of_tracking {volume : String} {c : Call}
    (h : (tracking volume a).Waits S w ms (.call c)) :
    ∃ v later, ms = later ++ [⟨v, ⟨.track volume, ()⟩, v.tracking (v.tracker.add volume)⟩] ∧
      S.moves w v ∧ a.Waits S (v.tracking (v.tracker.add volume)) later (.call c) := by
  rcases Waits.of_ask h with ⟨-, hc⟩ | ⟨v, _, _, later, rfl, hv, rfl, hlater⟩
  · cases hc
  · refine ⟨v, later, rfl, hv, ?_⟩
    rcases Waits.bind_cases hlater with hwaits | ⟨r, _, _, -, -, hlast⟩
    · exact hwaits.of_outcome
    · rcases Waits.of_ask hlast with ⟨-, hc⟩ | ⟨_, _, _, _, -, -, -, hdone⟩
      · cases hc
      · cases r with
        | ok => exact absurd hdone Prog.not_waits_done
        | error e => exact absurd hdone Prog.not_waits_done

theorem Runs.of_rounds {σ : Type} {s : σ} {q : Request} {round : σ → q.Answer → Action (σ ⊕ α)}
    {r : Except Fault α} (h : (rounds s q round).Runs S w ms r) :
    ∃ v x v' first later found, ms = later ++ (first ++ [⟨v, ⟨q, x⟩, v'⟩]) ∧ S.moves w v ∧
      v.Answers S.faults q x v' ∧ (round s x).Runs S v' first found ∧
      ((∃ s', found = .ok (.inl s') ∧ (rounds s' q round).Runs S (v'.along first) later r) ∨
        found = r.map .inr ∧ later = []) := by
  obtain ⟨v, x, v', ms, rfl, hv, hx, hms⟩ := Prog.Runs.of_ask rfl h
  obtain ⟨_, ended, later, rfl, hended, hlater⟩ := hms.bind_cases
  obtain ⟨found, first, rest, rfl, hfirst, hrest⟩ := Prog.Runs.bind_cases hended
  refine ⟨v, x, v', first, later, found, ?_⟩
  cases found with
  | error e =>
    obtain ⟨rfl, rfl⟩ := hrest.eq_of_done
    obtain ⟨rfl, rfl⟩ := hlater.eq_of_done
    exact ⟨by simp, hv, hx, hfirst, .inr ⟨rfl, rfl⟩⟩
  | ok found =>
    cases found with
    | inl s' =>
      obtain ⟨rfl, rfl⟩ := hrest.eq_of_done
      exact ⟨by simp, hv, hx, hfirst, .inl ⟨s', rfl, hlater⟩⟩
    | inr y =>
      obtain ⟨rfl, rfl⟩ := hrest.eq_of_done
      obtain ⟨rfl, rfl⟩ := hlater.eq_of_done
      exact ⟨by simp, hv, hx, hfirst, .inr ⟨rfl, rfl⟩⟩

theorem Runs.ask_cases {q : Request} {f : q.Answer → Action β} {y : β}
    (h : (request q >>= f).Runs S w ms (.ok y)) :
    ∃ v x v' later, ms = later ++ [⟨v, ⟨q, x⟩, v'⟩] ∧ v.Answers S.faults q x v' ∧
      (f x).Runs S v' later (.ok y) := by
  obtain ⟨x, first, later, rfl, hruns, hlater⟩ := h.bind_cases
  obtain ⟨z, first, rest, rfl, hfirst, hrest⟩ := Prog.Runs.bind_cases hruns
  obtain ⟨rfl, hz⟩ := Prog.Runs.eq_of_done hrest
  cases hz
  obtain ⟨v, v', rfl, hx⟩ := hfirst.of_request
  exact ⟨v, x, v', later, rfl, hx, hlater⟩

theorem Waits.of_log {text : String} {q : Request} (h : (log text).Waits S w ms q) :
    ms = [] ∧ q = .log text := by
  rcases h.ask_cases with h | ⟨_, x, _, _, -, -, hlater⟩
  · exact h
  · cases x with
    | ok => exact absurd hlater not_waits_pure
    | error e => exact absurd hlater Prog.not_waits_done

theorem Runs.of_log {text : String} {u : Unit} (h : (log text).Runs S w ms (.ok u)) :
    ∃ m, ms = [m] ∧ m.turn = ⟨.log text, .ok ()⟩ := by
  obtain ⟨v, x, v', later, rfl, -, hlater⟩ := h.ask_cases
  cases x with
  | ok =>
    obtain ⟨rfl, -⟩ := Runs.eq_of_pure hlater
    exact ⟨_, rfl, rfl⟩
  | error e => exact absurd hlater Runs.not_fail

end Action

namespace Access

variable {w : Site} {ms : List Moment} {r : Resource} {ns name : Option String}

theorem get_of_runs {found : Option Object}
    (h : (get r ns name).Runs .crowd w ms (.ok found)) :
    ∃ m, ms = [m] ∧ m.Served (.read r ns name) ∧
      found = m.before.cluster.store.get? (.of r ns name) := by
  obtain ⟨v, x, v', later, rfl, hx, hlater⟩ := h.ask_cases
  rcases hx with ⟨rfl, rfl⟩ | ⟨e, he, rfl, rfl⟩
  · suffices hdone : later = [] ∧ found = v.cluster.store.get? (.of r ns name) by
      obtain ⟨rfl, hfound⟩ := hdone
      exact ⟨_, rfl, rfl, hfound⟩
    rw [Cluster.respond, Cluster.read] at hlater
    cases hget : v.cluster.store.get? (.of r ns name) with
    | none =>
      rw [hget] at hlater
      exact hlater.eq_of_pure
    | some o =>
      rw [hget] at hlater
      exact hlater.eq_of_pure
  · dsimp only at hlater
    rw [if_neg (Bool.eq_false_iff.1 (Site.Mute.not_isNotFound he))] at hlater
    exact absurd hlater Action.Runs.not_fail

theorem listAll_of_runs {selector : Option String} {objects : List Object}
    (h : (listAll r ns selector).Runs .crowd w ms (.ok objects)) :
    ∃ m, ms = [m] ∧ m.Served (.list r ns selector) ∧
      objects = (m.before.cluster.list r ns selector).items := by
  obtain ⟨v, x, v', later, rfl, hx, hlater⟩ := h.ask_cases
  rcases hx with ⟨rfl, rfl⟩ | ⟨e, he, rfl, rfl⟩
  · obtain ⟨rfl, rfl⟩ := Action.Runs.eq_of_pure hlater
    exact ⟨_, rfl, rfl, rfl⟩
  · exact absurd hlater Action.Runs.not_fail

end Access

end VolumeExport
