import VolumeExport.Proofs.Modification
import VolumeExport.Proofs.Waiting

namespace VolumeExport

def Moment.Failed (m : Moment) : Prop := ∃ c e, m.turn = ⟨.call c, .error e⟩ ∧ Site.Mute e

def Moment.Timely (m : Moment) : Prop := m.turn.request.Timely m.turn.answer

theorem Moment.succeeds {m : Moment}
    (h : m.before.Answers Site.Mute m.turn.request m.turn.answer m.after) (htimely : m.Timely)
    (hfailed : ¬m.Failed) : m.before.Succeeds m.turn.request m.turn.answer m.after := by
  refine ⟨?_, htimely⟩
  obtain ⟨before, ⟨q, x⟩, after⟩ := m
  cases q with
  | call c =>
    rcases h with h | ⟨e, he, hx, -⟩
    · exact .inl h
    · exact absurd ⟨c, e, congrArg (Turn.mk (.call c)) hx, he⟩ hfailed
  | _ => exact h

namespace Prog

variable {α β σ : Type} {w : Site} {P : Prog α → List Moment → Prop}
  {goal : α → List Moment → Prop} {ms : List Moment}

/-- However calls fail, if nobody else acts and the time of day is not missed, a program comes to
where something holds of what is left of it and of all moments so far. -/
inductive Reaches (w : Site) (P : Prog α → List Moment → Prop) : Prog α → List Moment → Prop
  | here {p ms} : P p ms → Reaches w P p ms
  | ask {p q k ms} : p.head = .ask q k →
      (∀ x v, (w.along ms).Answers Site.Mute q x v → q.Timely x →
        Reaches w P (k x) (⟨w.along ms, ⟨q, x⟩, v⟩ :: ms)) → Reaches w P p ms

/-- However calls fail, a program comes to an end, and there the goal holds. -/
def Endures (w : Site) (goal : α → List Moment → Prop) : Prog α → List Moment → Prop :=
  Reaches w fun p ms => ∃ a, p.head = .done a ∧ goal a ms

theorem Reaches.mono {P' : Prog α → List Moment → Prop} {p : Prog α} (h : p.Reaches w P ms)
    (hP : ∀ p ms, P p ms → P' p ms) : p.Reaches w P' ms := by
  induction h with
  | here hp => exact .here (hP _ _ hp)
  | ask hhead _ ih => exact .ask hhead ih

theorem Reaches.of_head {p p' : Prog α} (hP : ∀ p p' ms, p'.head = p.head → P p ms → P p' ms)
    (h : p.Reaches w P ms) (hhead : p'.head = p.head) : p'.Reaches w P ms := by
  cases h with
  | here hp => exact .here (hP _ _ _ hhead hp)
  | ask hp hk => exact .ask (hhead.trans hp) hk

theorem endures_done {a : α} (h : goal a ms) : Endures w goal (.done a) ms := .here ⟨a, rfl, h⟩

theorem endures_ask {q : Request} {k : q.Answer → Prog α}
    (h : ∀ x v, (w.along ms).Answers Site.Mute q x v → q.Timely x →
      Endures w goal (k x) (⟨w.along ms, ⟨q, x⟩, v⟩ :: ms)) : Endures w goal (.ask q k) ms :=
  .ask rfl h

theorem Endures.mono {goal' : α → List Moment → Prop} {p : Prog α} (h : p.Endures w goal ms)
    (hgoal : ∀ a ms, goal a ms → goal' a ms) : p.Endures w goal' ms :=
  Reaches.mono h fun _ _ ⟨a, ha, hgoal'⟩ => ⟨a, ha, hgoal a _ hgoal'⟩

theorem Endures.bind_reaches {M : α → List Moment → Prop} {P : Prog β → List Moment → Prop}
    {p : Prog α} {f : α → Prog β} (hP : ∀ p p' ms, p'.head = p.head → P p ms → P p' ms)
    (h : p.Endures w M ms) (hf : ∀ a ms, M a ms → (f a).Reaches w P ms) :
    (p.bind f).Reaches w P ms := by
  induction h with
  | here hp =>
    obtain ⟨a, ha, hM⟩ := hp
    apply (hf a _ hM).of_head hP
    rw [head_bind, ha]
  | ask hhead _ ih =>
    refine .ask ?_ ih
    rw [head_bind, hhead]

theorem Endures.bind {M : α → List Moment → Prop} {goal : β → List Moment → Prop} {p : Prog α}
    {f : α → Prog β} (h : p.Endures w M ms) (hf : ∀ a ms, M a ms → (f a).Endures w goal ms) :
    (p.bind f).Endures w goal ms :=
  Endures.bind_reaches (fun _ _ _ hhead ⟨a, ha, hgoal⟩ => ⟨a, hhead.trans ha, hgoal⟩) h hf

theorem endures_loop {M : β → List Moment → Prop} {s : σ} {q : Request}
    {round : σ → q.Answer → Prog (σ ⊕ β)} {k : β → Prog α}
    (hround : ∀ x v, (w.along ms).Answers Site.Mute q x v → q.Timely x →
      (round s x).Endures w (fun r ms => ∃ b, r = .inr b ∧ M b ms)
        (⟨w.along ms, ⟨q, x⟩, v⟩ :: ms))
    (hk : ∀ b ms, M b ms → (k b).Endures w goal ms) : Endures w goal (.loop s q round k) ms := by
  refine .ask rfl fun x v hx ht => (hround x v hx ht).bind ?_
  rintro _ ms ⟨b, rfl, hb⟩
  exact hk b ms hb

theorem Endures.runs {p : Prog α} (h : p.Endures w goal ms) :
    p.Endures w (fun a later => goal a later ∧ ∃ new, later = new ++ ms ∧
      p.Runs .alone (w.along ms) new a ∧ ∀ m ∈ new, m.Timely) ms := by
  suffices hall : ∀ (rest : Prog α) later new, rest.Endures w goal later → later = new ++ ms →
      p.Course .alone (w.along ms) new rest → (∀ m ∈ new, m.Timely) →
      rest.Endures w (fun a later => goal a later ∧ ∃ new, later = new ++ ms ∧
        p.Runs .alone (w.along ms) new a ∧ ∀ m ∈ new, m.Timely) later by
    exact hall p ms [] h rfl .start fun _ hm => nomatch hm
  intro rest later new hrest
  induction hrest generalizing new with
  | here hp =>
    rintro rfl hcourse htimely
    obtain ⟨a, ha, hgoal⟩ := hp
    exact .here ⟨a, ha, hgoal, new, rfl, ⟨_, hcourse, ha⟩, htimely⟩
  | ask hhead _ ih =>
    rintro rfl hcourse htimely
    refine .ask hhead fun x v hx ht => ih x v hx ht (_ :: new) rfl ?_
      (List.forall_mem_cons.2 ⟨ht, htimely⟩)
    rw [Site.along_append] at hx ⊢
    exact .answer hcourse hhead rfl hx

theorem Endures.answered {q : Request} {k : q.Answer → Prog α}
    (h : (ask q k).Endures w goal ms) {x : q.Answer} {v : Site}
    (hx : (w.along ms).Answers Site.Mute q x v) (ht : q.Timely x) :
    (k x).Endures w goal (⟨w.along ms, ⟨q, x⟩, v⟩ :: ms) := by
  cases h with
  | here hp =>
    obtain ⟨_, hdone, -⟩ := hp
    cases hdone
  | ask hhead hk =>
    cases hhead
    exact hk x v hx ht

theorem Endures.of_runs {p : Prog α} {a : α} (h : p.Endures w goal [])
    (hruns : p.Runs .alone w ms a) (htimely : ∀ m ∈ ms, m.Timely) : goal a ms := by
  obtain ⟨rest, hcourse, hdone⟩ := hruns
  suffices hrest : rest.Endures w goal ms by
    cases hrest with
    | here hp =>
      obtain ⟨b, hb, hgoal⟩ := hp
      cases hb.symm.trans hdone
      exact hgoal
    | ask hp => cases hp.symm.trans hdone
  clear hdone
  induction hcourse with
  | start => exact h
  | answer _ hhead hmoves hx ih =>
    obtain ⟨ht, htimely⟩ := List.forall_mem_cons.1 htimely
    cases ih htimely with
    | here hp =>
      obtain ⟨b, hb, -⟩ := hp
      cases hb.symm.trans hhead
    | ask hp hk =>
      cases hp.symm.trans hhead
      cases hmoves
      exact hk _ _ hx ht

/-- A run in which no call has failed ends as one in which none can fail. -/
theorem Ends.of_runs {M : α → Site → Prop} {p : Prog α} {a : α} (h : p.Ends M w)
    (hruns : p.Runs .alone w ms a) (htimely : ∀ m ∈ ms, m.Timely) (hfailed : ∀ m ∈ ms, ¬m.Failed) :
    M a (w.along ms) := by
  obtain ⟨rest, hcourse, hdone⟩ := hruns
  suffices hrest : rest.Ends M (w.along ms) by
    cases hrest with
    | done hp ha =>
      cases hp.symm.trans hdone
      exact ha
    | ask hp => cases hp.symm.trans hdone
  clear hdone
  induction hcourse with
  | start => exact h
  | @answer ms rest q k v x v' _ hhead hmoves hx ih =>
    obtain ⟨ht, htimely⟩ := List.forall_mem_cons.1 htimely
    obtain ⟨hf, hfailed⟩ := List.forall_mem_cons.1 hfailed
    cases ih htimely hfailed with
    | done hp => cases hp.symm.trans hhead
    | ask hp hk =>
      cases hp.symm.trans hhead
      obtain rfl : v = w.along ms := hmoves
      exact hk x v' (Moment.succeeds (m := ⟨_, ⟨q, x⟩, v'⟩) hx ht hf)

end Prog

namespace Action

variable {α β σ : Type} {w : Site} {goal : Except Fault α → List Moment → Prop} {ms : List Moment}

abbrev Endures (w : Site) (goal : Except Fault α → List Moment → Prop) (a : Action α)
    (ms : List Moment) : Prop :=
  Prog.Endures w goal a.run ms

theorem Endures.bind {M : Except Fault α → List Moment → Prop}
    {goal : Except Fault β → List Moment → Prop} {a : Action α} {f : α → Action β}
    (h : a.Endures w M ms) (hok : ∀ x ms, M (.ok x) ms → (f x).Endures w goal ms)
    (herror : ∀ e ms, M (.error e) ms → goal (.error e) ms) : (a >>= f).Endures w goal ms := by
  apply Prog.Endures.bind h
  intro r ms hr
  cases r with
  | ok x => exact hok x ms hr
  | error e => exact Prog.endures_done (herror e ms hr)

theorem endures_log {text : String} :
    (log text).Endures w (fun r later => r = .ok () ∧ ∃ note : Moment, later = note :: ms ∧
      note.turn.request = .log text ∧ note.after = w.along ms) ms := by
  apply Prog.endures_ask
  intro x v hx ht
  obtain rfl : v = w.along ms := hx
  cases x with
  | ok => exact Prog.endures_done ⟨rfl, _, rfl, rfl, rfl⟩
  | error e => cases ht

theorem Endures.outcome {M : Except Fault α → List Moment → Prop} {a : Action α}
    (h : a.Endures w M ms) : a.outcome.Endures w (fun r ms => ∃ x, r = .ok x ∧ M x ms) ms :=
  Prog.Endures.bind h fun r _ hr => Prog.endures_done ⟨r, rfl, hr⟩

/-- However calls fail, an action comes to an end, and with a value only if none has failed. -/
def Strict (a : Action α) : Prop :=
  ∀ w ms, (w.along ms).cluster.Sealed →
    a.Endures w (fun r later => (w.along later).cluster.Sealed ∧
      (r.isOk → ∀ m ∈ later, m.Failed → m ∈ ms)) ms

theorem strict_pure {x : α} : (pure x : Action α).Strict :=
  fun _ _ hw => Prog.endures_done ⟨hw, fun _ _ hm _ => hm⟩

theorem strict_fail {f : Fault} : (fail f : Action α).Strict :=
  fun _ _ hw => Prog.endures_done ⟨hw, nofun⟩

theorem Strict.bind {a : Action α} {f : α → Action β} (h : a.Strict) (hf : ∀ x, (f x).Strict) :
    (a >>= f).Strict := by
  intro w ms hw
  apply Endures.bind (h w ms hw)
  · rintro x later ⟨hsealed, hok⟩
    apply (hf x w later hsealed).mono
    rintro r latest ⟨hsealed', hok'⟩
    exact ⟨hsealed', fun hr m hm hfailed => hok rfl m (hok' hr m hm hfailed) hfailed⟩
  · rintro e later ⟨hsealed, -⟩
    exact ⟨hsealed, nofun⟩

theorem strict_ite {c : Prop} [Decidable c] {a b : Action α} (ha : a.Strict) (hb : b.Strict) :
    (if c then a else b).Strict := by
  split
  · exact ha
  · exact hb

theorem strict_ofExcept {ε : Type} {g : ε → Fault} {x : Except ε α} : (ofExcept g x).Strict := by
  cases x with
  | ok a => exact strict_pure
  | error e => exact strict_fail

theorem strict_ask {q : Request} {f : q.Answer → Action β} (hf : ∀ x, (f x).Strict)
    (hfailed : ∀ c e, Site.Mute e → ∀ x, (⟨q, x⟩ : Turn) = ⟨.call c, .error e⟩ →
      ∃ fault, f x = fail fault) : (request q >>= f).Strict := by
  intro w ms hw
  apply Prog.endures_ask
  intro x v hx ht
  have hsealed : (w.along (⟨w.along ms, ⟨q, x⟩, v⟩ :: ms)).cluster.Sealed :=
    hw.renews (Site.renews_of_answers hx)
  by_cases hm : Moment.Failed ⟨w.along ms, ⟨q, x⟩, v⟩
  · obtain ⟨c, e, hturn, he⟩ := hm
    obtain ⟨fault, hfault⟩ := hfailed c e he x hturn
    change (f x).Endures w _ _
    rw [hfault]
    exact Prog.endures_done ⟨hsealed, nofun⟩
  · apply (hf x w _ hsealed).mono
    rintro r later ⟨hsealed', hok⟩
    refine ⟨hsealed', fun hr m hmem hmfailed => ?_⟩
    rcases List.mem_cons.1 (hok hr m hmem hmfailed) with rfl | hmem
    · exact absurd hmfailed hm
    · exact hmem

theorem strict_quiet {q : Request} {f : q.Answer → Action β} (hq : ∀ c, q ≠ .call c)
    (hf : ∀ x, (f x).Strict) : (request q >>= f).Strict :=
  strict_ask hf fun c _ _ _ h => absurd (congrArg Turn.request h) (hq c)

theorem strict_call {c : Call} {f : Except ApiError c.Result → Action β} (hf : ∀ x, (f x).Strict)
    (hfailed : ∀ e, Site.Mute e → ∃ fault, f (.error e) = fail fault) : (call c >>= f).Strict := by
  apply strict_ask (q := .call c) hf
  intro c' e he x h
  cases h
  exact hfailed e he

theorem strict_log {text : String} : (log text).Strict := by
  apply strict_quiet (q := .log text) fun _ => nofun
  intro x
  cases x with
  | ok => exact strict_pure
  | error e => exact strict_fail

theorem Strict.orElseFault {a : Action α} {f : Fault → Fault} (h : a.Strict) :
    (a.orElseFault f).Strict := by
  intro w ms hw
  apply Endures.bind (Endures.outcome (h w ms hw))
  · rintro r later ⟨_, hr, hsealed, hok⟩
    cases hr
    cases r with
    | ok x => exact Prog.endures_done ⟨hsealed, hok⟩
    | error e => exact Prog.endures_done ⟨hsealed, nofun⟩
  · rintro e later ⟨_, hr, -⟩
    cases hr

/-- A loop of which there is never a second round. -/
theorem strict_rounds {c : Call} {s : σ} {round : σ → Except ApiError c.Result → Action (σ ⊕ α)}
    (hround : ∀ x, (round s x).Strict)
    (hfailed : ∀ e, Site.Mute e → ∃ fault, round s (.error e) = fail fault)
    (honce : ∀ (w : Site) x v, w.cluster.Sealed → w.Answers Site.Mute (.call c) x v →
      (round s x).Leads (fun r _ => ∀ s, r ≠ .ok (.inl s)) v) :
    (rounds s (.call c) round).Strict := by
  intro w ms hw
  have hfirst := strict_call hround hfailed w ms hw
  apply Prog.endures_loop (M := fun r later => (w.along later).cluster.Sealed ∧
    (r.isOk → ∀ m ∈ later, m.Failed → m ∈ ms)) _ fun _ _ hr => Prog.endures_done hr
  intro x v hx ht
  apply Prog.Endures.bind (Prog.Endures.runs (Prog.Endures.answered hfirst hx ht))
  rintro r later ⟨⟨hsealed, hok⟩, new, rfl, hruns, -⟩
  have hr := (honce _ x v hw hx).runs hruns
  cases r with
  | ok r =>
    cases r with
    | inl s => exact absurd rfl (hr s)
    | inr a => exact Prog.endures_done ⟨_, rfl, hsealed, fun _ => hok rfl⟩
  | error e => exact Prog.endures_done ⟨_, rfl, hsealed, nofun⟩

/-- A run that has ended with a value is one in which no call has failed. -/
theorem Strict.not_failed {a : Action α} {x : α} (h : a.Strict) (hw : w.cluster.Sealed)
    (hruns : a.Runs .alone w ms (.ok x)) (htimely : ∀ m ∈ ms, m.Timely) :
    ∀ m ∈ ms, ¬m.Failed := by
  have hend := (h w [] hw).of_runs hruns htimely
  exact fun m hm hfailed => List.not_mem_nil (hend.2 rfl m hm hfailed)

end Action

namespace Access

variable {r : Resource} {ns name : Option String}

theorem fail_of_mute {α : Type} {e : ApiError} (he : Site.Mute e) (a : Action α) :
    ∃ fault, (if e.isNotFound then a else .fail (.api e)) = Action.fail fault :=
  ⟨_, if_neg (Bool.eq_false_iff.1 he.not_isNotFound)⟩

theorem strict_get : (get r ns name).Strict := by
  apply Action.strict_call
  · intro x
    cases x with
    | ok o => exact Action.strict_pure
    | error e => exact Action.strict_ite Action.strict_pure Action.strict_fail
  · exact fun e he => fail_of_mute he _

theorem strict_delete : (delete r ns name).Strict := by
  apply Action.strict_call
  · intro x
    cases x with
    | ok o => exact Action.strict_pure
    | error e => exact Action.strict_ite Action.strict_pure Action.strict_fail
  · exact fun e he => fail_of_mute he _

/-- Nobody else writes, so a change takes one round. -/
theorem strict_modify {hooks : Hooks} {target : Hook.Target} {event : Hook.Event} :
    (modify r ns name (Backing.hooked hooks target event r)).Strict := by
  apply Action.strict_rounds
  · intro (x : Except ApiError Object)
    cases x with
    | error e => exact Action.strict_ite Action.strict_pure Action.strict_fail
    | ok o =>
      apply Action.strict_quiet (q := .now) fun _ => nofun
      intro t
      apply Action.Strict.bind Action.strict_ofExcept
      intro body
      apply Action.strict_ite Action.strict_pure
      apply Action.strict_call
      · intro y
        cases y with
        | ok written => exact Action.strict_pure
        | error e =>
          exact Action.strict_ite Action.strict_pure
            (Action.strict_ite Action.strict_pure Action.strict_fail)
      · intro e he
        refine ⟨.api e, ?_⟩
        dsimp only
        rw [if_neg (Bool.eq_false_iff.1 he.not_isNotFound),
          if_neg (Bool.eq_false_iff.1 he.not_isConflict)]
  · exact fun e he => fail_of_mute he _
  · rintro w x v hw (⟨rfl, rfl⟩ | ⟨e, he, rfl, rfl⟩)
    · apply (leads_modifyRound hw).mono
      intro r v hr s h
      subst h
      obtain ⟨m, hm, -⟩ := hr
      cases hm
    · exact leads_of_mute he (Action.leads_fail nofun)

end Access

namespace Backing

variable {s : Setup} {volume : String}

theorem strict_removeFound {r : Resource} {ns name : Option String} {text : String} :
    Action.Strict (do if ← Access.delete r ns name then Action.log text) :=
  Action.Strict.bind Access.strict_delete fun _ =>
    Action.strict_ite Action.strict_log Action.strict_pure

theorem strict_remove {target : Hook.Target} {r : Resource} {name : String} :
    (remove s target r name).Strict := by
  apply Action.strict_ite
  · apply Action.Strict.bind Access.strict_modify
    intro m
    obtain ⟨found, n⟩ := m
    cases found with
    | none => exact Action.strict_pure
    | some o => exact strict_removeFound
  · apply Action.Strict.bind Access.strict_get
    intro found
    cases found with
    | none => exact Action.strict_pure
    | some o => exact strict_removeFound

theorem strict_hookVolume {event : Hook.Event} {claim : Object} :
    (hookVolume s event claim).Strict := by
  apply Action.strict_ite _ Action.strict_pure
  cases (claim.text? ["spec", "volumeName"]).filter (· ≠ "") with
  | none => exact Action.strict_pure
  | some name => exact Action.Strict.bind Access.strict_modify fun _ => Action.strict_pure

theorem strict_delete : (delete s volume).Strict := by
  apply Action.Strict.bind strict_remove.orElseFault
  intro _
  apply Action.Strict.bind strict_remove.orElseFault
  intro _
  refine Action.Strict.bind (Action.Strict.orElseFault (Action.Strict.bind Access.strict_get ?_))
    fun _ => strict_remove.orElseFault
  intro found
  cases found with
  | none => exact Action.strict_pure
  | some claim => exact strict_hookVolume

end Backing

end VolumeExport
