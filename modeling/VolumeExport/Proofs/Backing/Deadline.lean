import Mathlib.Data.Rat.Floor
import VolumeExport.Backing
import VolumeExport.Proofs.Modification

namespace VolumeExport

/-- Others do anything. No call fails. -/
def Surroundings.reliable : Surroundings := ⟨fun _ => False, fun _ _ => True⟩

def Duration.inSeconds (span : Duration) : Rat := span.microseconds / 1000000

theorem Duration.inSeconds_ofSeconds (n : Int) : (ofSeconds n).inSeconds = n := by
  simp [inSeconds, ofSeconds]

/-- Time goes on over a turn, from `t` to `t'`. The program itself takes no time: it looks at the
clock when it has got the answer before. -/
def Turn.Takes (t t' : Rat) (e : Turn) : Prop :=
  t ≤ t' ∧ match e with
    | ⟨.uptime, (uptime : Rat)⟩ => uptime = t
    | ⟨.deadline span, (deadline : Rat)⟩ => deadline = t + span.inSeconds
    | ⟨.sleep span, _⟩ => t + span.inSeconds ≤ t'
    | _ => True

/-- A clock, which tells the time after some moments, agrees with what was answered in them. -/
def Timed (clock : List Moment → Rat) : List Moment → Prop
  | [] => True
  | m :: ms => m.turn.Takes (clock ms) (clock (m :: ms)) ∧ Timed clock ms

theorem Timed.cons {clock : List Moment → Rat} {m : Moment} {ms : List Moment} {e : Turn}
    (h : Timed clock (m :: ms)) (he : m.turn = e) :
    e.Takes (clock ms) (clock (m :: ms)) ∧ Timed clock ms :=
  he ▸ h

/-- When no call fails, a read is answered with what is stored right before. -/
theorem Prog.Course.read_eq {α : Type} {w : Site} {p rest : Prog α} {m : Moment} {ms : List Moment}
    {r : Resource} {ns name : Option String} {x : Except ApiError Object}
    (h : p.Course .reliable w (m :: ms) rest) (hread : m.turn = ⟨.call (.read r ns name), x⟩) :
    m.before.cluster.read (.of r ns name) = x := by
  obtain ⟨v, e, v'⟩ := m
  obtain rfl : e = ⟨.call (.read r ns name), x⟩ := hread
  have hanswers : x = v.cluster.read (.of r ns name) ∧ v' = v := Site.read_of_answers h.moment.2
  exact hanswers.1.symm

theorem Moment.asks_of_turn {m : Moment} {q : Request} {x : q.Answer} (h : m.turn = ⟨q, x⟩) :
    m.asks q := by
  rw [asks, h]
  exact decide_eq_true rfl

namespace Backing

abbrev look (s : Setup) (name : String) : Request :=
  .call (.read .claim (some s.settings.serverNamespace) (some name))

def Stores (s : Setup) (name : String) (v : Site) (claim : Object) : Prop :=
  v.cluster.store.get? (.of .claim (some s.settings.serverNamespace) (some name)) = some claim

/-- Rounds of waiting, each of which found the claim unbound before the deadline. -/
inductive Polls (s : Setup) (name : String) (deadline : Rat) : Nat → Past → Prop
  | start : Polls s name deadline 0 [⟨.deadline s.settings.bindTimeout, deadline⟩]
  | round {uptime : Rat} {n claim p} : Polls s name deadline n p → isBound claim = false →
      uptime < deadline → Polls s name deadline (n + 1)
        (⟨.sleep pollInterval, ()⟩ :: ⟨.uptime, uptime⟩ :: ⟨look s name, .ok claim⟩ :: p)

/-- What a wait asks. -/
inductive Awaits (s : Setup) (name : String) : Request → Past → Prop
  | deadline : Awaits s name (.deadline s.settings.bindTimeout) []
  | look {deadline n p} : Polls s name deadline n p → Awaits s name (look s name) p
  | uptime {deadline n claim p} : Polls s name deadline n p → isBound claim = false →
      Awaits s name .uptime (⟨Backing.look s name, .ok claim⟩ :: p)
  | sleep {deadline uptime : Rat} {n claim p} : Polls s name deadline n p → isBound claim = false →
      uptime < deadline → Awaits s name (.sleep pollInterval)
        (⟨.uptime, uptime⟩ :: ⟨Backing.look s name, .ok claim⟩ :: p)

/-- How the last round of a wait ends. -/
inductive Concludes (s : Setup) (name : String) : Except Fault Object → Past → Prop
  | bound {deadline n claim p} : Polls s name deadline n p → isBound claim →
      Concludes s name (.ok claim) (⟨look s name, .ok claim⟩ :: p)
  | gone {deadline n p} {e : ApiError} : Polls s name deadline n p → e.isNotFound →
      Concludes s name (.error (.claimGone s.settings.serverNamespace name))
        (⟨look s name, .error e⟩ :: p)
  | failed {deadline n p} {e : ApiError} : Polls s name deadline n p → ¬e.isNotFound →
      Concludes s name (.error (.api e)) (⟨look s name, .error e⟩ :: p)
  | late {deadline uptime : Rat} {n claim p} : Polls s name deadline n p → isBound claim = false →
      deadline ≤ uptime →
      Concludes s name
        (.error (.notBound s.settings.bindTimeout s.settings.serverNamespace name))
        (⟨.uptime, uptime⟩ :: ⟨look s name, .ok claim⟩ :: p)

variable {s : Setup} {name : String}

theorem keeps_awaitBound_rounds :
    (awaitBound s name).Keeps (Awaits s name) (Concludes s name) [] := by
  apply Action.keeps_ask .deadline
  intro (deadline : Rat)
  apply Action.keeps_rounds (I := fun _ p => ∃ n, Polls s name deadline n p) ⟨0, .start⟩
    fun _ _ ⟨_, hp⟩ => .look hp
  intro _ p hp (x : Except ApiError Object)
  obtain ⟨n, hp⟩ := hp
  cases x with
  | error e =>
    apply Action.keeps_ite
    · exact fun he => Action.keeps_fail (.gone hp he)
    · exact fun he => Action.keeps_fail (.failed hp he)
  | ok claim =>
    apply Action.keeps_ite
    · exact fun hbound => Action.keeps_pure (Concludes.bound hp hbound)
    intro hbound
    have hunbound : isBound claim = false := Bool.eq_false_iff.2 hbound
    apply Action.keeps_ask (.uptime hp hunbound)
    intro (uptime : Rat)
    apply Action.keeps_ite
    · exact fun hlate => Action.keeps_fail (.late hp hunbound hlate)
    intro hlate
    have hearly : uptime < deadline := not_le.1 hlate
    apply Action.keeps_ask (.sleep hp hunbound hearly)
    intro _
    exact Action.keeps_pure ⟨n + 1, .round hp hunbound hearly⟩

def Unbound (s : Setup) (name : String) (ms : List Moment) : Prop :=
  ∀ m ∈ ms, m.asks (look s name) → ∃ claim, Stores s name m.before claim ∧ isBound claim = false

/-- The timeout in whole seconds, rounded up. -/
def patience (s : Setup) : Nat := ⌈s.settings.bindTimeout.inSeconds⌉₊

/-- How a wait ends, by its last look at the claim. -/
inductive Outcome (s : Setup) (name : String) (clock : List Moment → Rat) :
    List Moment → Except Fault Object → Prop
  | bound {m ms claim} : Unbound s name ms → m.asks (look s name) → Stores s name m.before claim →
      isBound claim → Outcome s name clock (m :: ms) (.ok claim)
  | gone {m ms} : Unbound s name ms → m.asks (look s name) →
      (∀ claim, ¬Stores s name m.before claim) →
      Outcome s name clock (m :: ms) (.error (.claimGone s.settings.serverNamespace name))
  | late {m' m ms} : Unbound s name (m :: ms) → m.asks (look s name) → m'.asks .uptime →
      clock [] + s.settings.bindTimeout.inSeconds ≤ clock (m :: ms) →
      Outcome s name clock (m' :: m :: ms)
        (.error (.notBound s.settings.bindTimeout s.settings.serverNamespace name))

/-- What waiting for a claim amounts to, as far as it has come. -/
structure Awaited (s : Setup) (name : String) (clock : List Moment → Rat) (ms : List Moment)
    (rest : Prog (Except Fault Object)) : Prop where
  looks : ms.countP (·.asks (look s name)) ≤ patience s + 1
  /-- As long as it has not ended, there is a bound on the answers. -/
  length : ∀ q k, rest.head = .ask q k → ms.length < 3 * (patience s + 1)
  unbound : ∀ q k, rest.head = .ask q k → Unbound s name ms
  outcome : ∀ r, rest.head = .done r → Outcome s name clock ms r
  /-- A claim that is bound from the deadline on is not late. -/
  inTime : (∀ m earlier, m :: earlier <:+ ms →
      clock [] + s.settings.bindTimeout.inSeconds ≤ clock (m :: earlier) →
      ∃ claim, Stores s name m.before claim ∧ isBound claim) →
    ∀ timeout ns name', rest.head ≠ .done (.error (.notBound timeout ns name'))

section

variable {clock : List Moment → Rat} {w : Site} {p rest : Prog (Except Fault Object)} {m : Moment}
  {ms : List Moment} {deadline : Rat} {n : Nat}

theorem stores_of_look {claim : Object} (h : p.Course .reliable w (m :: ms) rest)
    (hlook : m.turn = ⟨look s name, .ok claim⟩) : Stores s name m.before claim :=
  Cluster.get?_of_read (h.read_eq hlook)

theorem not_stores_of_look {e : ApiError} (h : p.Course .reliable w (m :: ms) rest)
    (hlook : m.turn = ⟨look s name, .error e⟩) (claim : Object) : ¬Stores s name m.before claim := by
  rw [Stores, Cluster.get?_of_read_error (h.read_eq hlook)]
  nofun

theorem looks_cons {e : Turn} (he : m.turn = e) :
    (m :: ms).countP (·.asks (look s name)) =
      ms.countP (·.asks (look s name)) + if e.request = look s name then 1 else 0 := by
  rw [List.countP_cons]
  simp only [Moment.asks, he, decide_eq_true_eq]

theorem looks_look {x : Except ApiError Object} (he : m.turn = ⟨look s name, x⟩) :
    (m :: ms).countP (·.asks (look s name)) = ms.countP (·.asks (look s name)) + 1 := by
  rw [looks_cons he, if_pos rfl]

theorem looks_other {e : Turn} (he : m.turn = e) (hother : e.request ≠ look s name) :
    (m :: ms).countP (·.asks (look s name)) = ms.countP (·.asks (look s name)) := by
  rw [looks_cons he, if_neg hother, Nat.add_zero]

theorem Unbound.cons {e : Turn} (h : Unbound s name ms) (he : m.turn = e)
    (hother : e.request ≠ Backing.look s name) : Unbound s name (m :: ms) := by
  intro m' hm' hlook
  rcases List.mem_cons.1 hm' with rfl | hm'
  · rw [Moment.asks, he, decide_eq_true_eq] at hlook
    exact absurd hlook hother
  · exact h m' hm' hlook

theorem Unbound.look {claim : Object} (h : Unbound s name ms)
    (hcourse : p.Course .reliable w (m :: ms) rest)
    (hlook : m.turn = ⟨Backing.look s name, .ok claim⟩) (hunbound : isBound claim = false) :
    Unbound s name (m :: ms) :=
  List.forall_mem_cons.2 ⟨fun _ => ⟨claim, stores_of_look hcourse hlook, hunbound⟩, h⟩

/-- What is so after `n` rounds of waiting. -/
structure Waited (s : Setup) (name : String) (clock : List Moment → Rat) (deadline : Rat) (n : Nat)
    (ms : List Moment) : Prop where
  looks : ms.countP (·.asks (look s name)) = n
  length : ms.length = 3 * n + 1
  unbound : Unbound s name ms
  deadline : deadline = clock [] + s.settings.bindTimeout.inSeconds
  time : clock [] + n ≤ clock ms
  early : n ≤ patience s

/-- A look that is not late is one of the first ones. -/
theorem Waited.lt_patience (h : Waited s name clock deadline n ms) {t : Rat} (ht : clock ms ≤ t)
    (hearly : t < deadline) : n < patience s := by
  have hlt : (n : Rat) < s.settings.bindTimeout.inSeconds := by
    have := h.deadline
    have := h.time
    linarith
  exact Nat.lt_ceil.2 hlt

theorem waited_of_polls (h : p.Course .reliable w ms rest) (ht : Timed clock ms)
    (hpolls : Polls s name deadline n (ms.map Moment.turn)) :
    Waited s name clock deadline n ms := by
  generalize hpast : ms.map Moment.turn = past at hpolls
  induction hpolls generalizing ms rest with
  | start =>
    obtain ⟨m, _, rfl, hdeadline, hnil⟩ := List.map_eq_cons_iff.1 hpast
    obtain rfl := List.map_eq_nil_iff.1 hnil
    obtain ⟨htime, hd⟩ := (ht.cons hdeadline).1
    exact {
      looks := by rw [looks_other hdeadline nofun, List.countP_nil]
      length := rfl
      unbound := Unbound.cons (fun _ hm => nomatch hm) hdeadline nofun
      deadline := hd
      time := by rwa [Nat.cast_zero, add_zero]
      early := Nat.zero_le _ }
  | @round uptime n claim _ _ hunbound hearly ih =>
    obtain ⟨m₃, _, rfl, hsleep, hpast⟩ := List.map_eq_cons_iff.1 hpast
    obtain ⟨m₂, _, rfl, huptime, hpast⟩ := List.map_eq_cons_iff.1 hpast
    obtain ⟨m₁, ms, rfl, hlook, hpast⟩ := List.map_eq_cons_iff.1 hpast
    obtain ⟨_, h₁⟩ := Prog.Course.earlier [m₃, m₂] h
    obtain ⟨_, hearlier⟩ := h₁.tail
    obtain ⟨⟨-, htime₃⟩, ht₂⟩ := ht.cons hsleep
    obtain ⟨⟨htime₂, hnow⟩, ht₁⟩ := ht₂.cons huptime
    obtain ⟨⟨htime₁, -⟩, ht₀⟩ := ht₁.cons hlook
    have hwaited := ih hearlier ht₀ hpast
    exact {
      looks := by
        rw [looks_other hsleep nofun, looks_other huptime nofun, looks_look hlook, hwaited.looks]
      length := by
        simp only [List.length_cons, hwaited.length]
        omega
      unbound := ((hwaited.unbound.look h₁ hlook hunbound).cons huptime nofun).cons hsleep nofun
      deadline := hwaited.deadline
      time := by
        have htime := hwaited.time
        have hsecond : pollInterval.inSeconds = 1 := by
          rw [pollInterval, Duration.inSeconds_ofSeconds, Int.cast_one]
        push_cast
        linarith
      early := hwaited.lt_patience (htime₁.trans hnow.ge) hearly }

/-- What is so while a wait goes on and asks `q` next. -/
structure Waiting (s : Setup) (name : String) (q : Request) (ms : List Moment) : Prop where
  looks : ms.countP (·.asks (look s name)) + (if q = look s name then 1 else 0) ≤ patience s + 1
  length : ms.length < 3 * (patience s + 1)
  unbound : Unbound s name ms

theorem waiting_of_awaits {q : Request} (h : p.Course .reliable w ms rest) (ht : Timed clock ms)
    (hq : Awaits s name q (ms.map Moment.turn)) : Waiting s name q ms := by
  generalize hpast : ms.map Moment.turn = past at hq
  cases hq with
  | deadline =>
    obtain rfl := List.map_eq_nil_iff.1 hpast
    exact {
      looks := by
        rw [if_neg nofun]
        exact Nat.zero_le _
      length := Nat.succ_pos _
      unbound := fun _ hm => nomatch hm }
  | look hpolls =>
    have hwaited := waited_of_polls h ht (hpast ▸ hpolls)
    have hlength := hwaited.length
    have hearly := hwaited.early
    exact {
      looks := by
        rw [hwaited.looks, if_pos rfl]
        omega
      length := by omega
      unbound := hwaited.unbound }
  | uptime hpolls hunbound =>
    obtain ⟨m₁, ms, rfl, hlook, rfl⟩ := List.map_eq_cons_iff.1 hpast
    obtain ⟨_, hearlier⟩ := h.tail
    have hwaited := waited_of_polls hearlier ht.2 hpolls
    have hlength := hwaited.length
    have hearly := hwaited.early
    exact {
      looks := by
        rw [looks_look hlook, hwaited.looks, if_neg nofun]
        omega
      length := by
        rw [List.length_cons]
        omega
      unbound := hwaited.unbound.look h hlook hunbound }
  | sleep hpolls hunbound hlate =>
    obtain ⟨m₂, _, rfl, huptime, hpast⟩ := List.map_eq_cons_iff.1 hpast
    obtain ⟨m₁, ms, rfl, hlook, rfl⟩ := List.map_eq_cons_iff.1 hpast
    obtain ⟨_, h₁⟩ := h.tail
    obtain ⟨_, hearlier⟩ := h₁.tail
    obtain ⟨⟨htime₂, hnow⟩, ht₁⟩ := ht.cons huptime
    obtain ⟨⟨htime₁, -⟩, ht₀⟩ := ht₁.cons hlook
    have hwaited := waited_of_polls hearlier ht₀ hpolls
    have hlength := hwaited.length
    have hearly := hwaited.lt_patience (htime₁.trans hnow.ge) hlate
    exact {
      looks := by
        rw [looks_other huptime nofun, looks_look hlook, hwaited.looks, if_neg nofun]
        omega
      length := by
        simp only [List.length_cons]
        omega
      unbound := (hwaited.unbound.look h₁ hlook hunbound).cons huptime nofun }

theorem looks_le_patience (h : (awaitBound s name).run.Course .reliable w ms rest)
    (ht : Timed clock ms) : ms.countP (·.asks (look s name)) ≤ patience s + 1 := by
  cases ms with
  | nil => exact Nat.zero_le _
  | cons m ms =>
    obtain ⟨_, hearlier⟩ := h.tail
    rw [looks_cons rfl]
    exact (waiting_of_awaits hearlier ht.2 (h.asked keeps_awaitBound_rounds)).looks

theorem outcome_of_concludes {r : Except Fault Object} (h : p.Course .reliable w ms rest)
    (ht : Timed clock ms) (hr : Concludes s name r (ms.map Moment.turn)) :
    Outcome s name clock ms r := by
  generalize hpast : ms.map Moment.turn = past at hr
  cases hr with
  | bound hpolls hbound =>
    obtain ⟨m, ms, rfl, hlook, rfl⟩ := List.map_eq_cons_iff.1 hpast
    obtain ⟨_, hearlier⟩ := h.tail
    have hwaited := waited_of_polls hearlier ht.2 hpolls
    exact .bound hwaited.unbound (Moment.asks_of_turn hlook) (stores_of_look h hlook) hbound
  | gone hpolls =>
    obtain ⟨m, ms, rfl, hlook, rfl⟩ := List.map_eq_cons_iff.1 hpast
    obtain ⟨_, hearlier⟩ := h.tail
    have hwaited := waited_of_polls hearlier ht.2 hpolls
    exact .gone hwaited.unbound (Moment.asks_of_turn hlook) (not_stores_of_look h hlook)
  | failed _ he =>
    obtain ⟨m, ms, rfl, hlook, -⟩ := List.map_eq_cons_iff.1 hpast
    have hread := h.read_eq hlook
    rw [Cluster.read, Cluster.get?_of_read_error hread] at hread
    cases hread
    exact absurd rfl he
  | late hpolls hunbound hlate =>
    obtain ⟨m', _, rfl, huptime, hpast⟩ := List.map_eq_cons_iff.1 hpast
    obtain ⟨m, ms, rfl, hlook, rfl⟩ := List.map_eq_cons_iff.1 hpast
    obtain ⟨_, h₁⟩ := h.tail
    obtain ⟨_, hearlier⟩ := h₁.tail
    obtain ⟨⟨-, hnow⟩, ht₁⟩ := ht.cons huptime
    have hwaited := waited_of_polls hearlier ht₁.2 hpolls
    refine .late (hwaited.unbound.look h₁ hlook hunbound) (Moment.asks_of_turn hlook)
      (Moment.asks_of_turn huptime) ?_
    rw [← hwaited.deadline]
    exact hlate.trans hnow.le

theorem Outcome.not_late {timeout : Duration} {ns name' : String}
    (h : Outcome s name clock ms (.error (.notBound timeout ns name')))
    (hbound : ∀ m earlier, m :: earlier <:+ ms →
      clock [] + s.settings.bindTimeout.inSeconds ≤ clock (m :: earlier) →
      ∃ claim, Stores s name m.before claim ∧ isBound claim) : False := by
  cases h with
  | @late m' m ms hunbound hlook _ hlate =>
    obtain ⟨claim, hclaim, htrue⟩ := hbound m ms (List.suffix_cons m' (m :: ms)) hlate
    obtain ⟨claim', hclaim', hfalse⟩ := hunbound m List.mem_cons_self hlook
    obtain rfl : claim = claim' := Option.some.inj (hclaim.symm.trans hclaim')
    exact Bool.false_ne_true (hfalse.symm.trans htrue)

section

variable (h : (awaitBound s name).run.Course .reliable w ms rest) (ht : Timed clock ms)
include h ht

theorem waiting_of_ask {q : Request} {k : q.Answer → Prog (Except Fault Object)}
    (hask : rest.head = .ask q k) : Waiting s name q ms := by
  have hq := (h.keeps keeps_awaitBound_rounds).head
  rw [hask] at hq
  exact waiting_of_awaits h ht hq.1

theorem outcome_of_done {r : Except Fault Object} (hdone : rest.head = .done r) :
    Outcome s name clock ms r := by
  have hr := (h.keeps keeps_awaitBound_rounds).head
  rw [hdone] at hr
  exact outcome_of_concludes h ht hr

end

/-- A wait for a claim ends in time for its timeout, and is late only if the claim is. -/
theorem awaited_of_course (h : (awaitBound s name).run.Course .reliable w ms rest)
    (ht : Timed clock ms) : Awaited s name clock ms rest where
  looks := looks_le_patience h ht
  length _ _ hask := (waiting_of_ask h ht hask).length
  unbound _ _ hask := (waiting_of_ask h ht hask).unbound
  outcome _ hdone := outcome_of_done h ht hdone
  inTime hbound _ _ _ hdone := (outcome_of_done h ht hdone).not_late hbound

end

def brief : Setup :=
  ⟨{ Settings.ofNamespaces "nfs-provisioner" "nfs" with bindTimeout := .ofSeconds 1 }, []⟩

def pendingClaim : Object := ⟨some (Manifest.metadata "nfs-v" "nfs"), []⟩

def boundClaim : Object := pendingClaim.set "status" (.ofFields [("phase", .string "Bound")])

def pendingSite : Site := .holding [(.claim, pendingClaim)]

def boundSite : Site := pendingSite.storing .claim boundClaim

def boundLater : List Moment :=
  [⟨boundSite, ⟨look brief "nfs-v", boundSite.cluster.read (.of .claim "nfs" "nfs-v")⟩, boundSite⟩,
    ⟨pendingSite, ⟨.sleep pollInterval, ()⟩, pendingSite⟩,
    ⟨pendingSite, ⟨.uptime, (0 : Rat)⟩, pendingSite⟩,
    ⟨pendingSite, ⟨look brief "nfs-v", pendingSite.cluster.read (.of .claim "nfs" "nfs-v")⟩,
      pendingSite⟩,
    ⟨pendingSite, ⟨.deadline (.ofSeconds 1), (1 : Rat)⟩, pendingSite⟩]

def stopwatch (ms : List Moment) : Rat := if ms.length < 4 then 0 else 1

theorem timed_stopwatch : Timed stopwatch boundLater := by
  simp [Timed, boundLater, stopwatch, Turn.Takes, pollInterval, Duration.inSeconds_ofSeconds]

theorem course_boundLater : ∃ rest, (awaitBound brief "nfs-v").run.Course .reliable pendingSite
    boundLater rest ∧ ∃ claim, rest.head = .done (.ok claim) := by
  have h₁ : (awaitBound brief "nfs-v").run.Course .reliable pendingSite _ _ :=
    Prog.Course.start.answer (q := .deadline (.ofSeconds 1)) (x := (1 : Rat)) (v := pendingSite)
      rfl trivial rfl
  have h₂ := h₁.answer rfl trivial (pendingSite.answers_reply _)
  have h₃ := h₂.answer (q := .uptime) (x := (0 : Rat)) (v := pendingSite) rfl trivial rfl
  have h₄ := h₃.answer rfl trivial (pendingSite.answers_reply _)
  have h₅ := h₄.answer rfl trivial (boundSite.answers_reply _)
  exact ⟨_, h₅, _, rfl⟩

theorem awaited_of_course_boundLater : ∃ rest, Awaited brief "nfs-v" stopwatch boundLater rest ∧
    ∃ claim, rest.head = .done (.ok claim) := by
  obtain ⟨rest, hcourse, hdone⟩ := course_boundLater
  exact ⟨rest, awaited_of_course hcourse timed_stopwatch, hdone⟩

end Backing

end VolumeExport
