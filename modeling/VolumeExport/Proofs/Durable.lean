import VolumeExport.Proofs.Serial

namespace VolumeExport.Durable

open Backing (key)
open Provisioning (nameOf policy?)

def Serves : Operation → Prop
  | .claimed _ => True
  | .released _ => True
  | .withdraw _ => True
  | .sweep => True
  | _ => False

def stores (v : String) : Happening Operation → Bool
  | .answered (.claimed _) ⟨.call (.create .volume _ body), .ok _⟩ =>
    body.knownMetadata.name = some v
  | _ => false

def discards (v : String) : Happening Operation → Bool
  | .begun (.withdraw volume) => nameOf volume = v && policy? volume ≠ some "Retain"
  | .begun (.released volume) => nameOf volume = v && policy? volume ≠ some "Retain"
  | _ => false

/-- The volume was stored and never discarded. -/
def held (v : String) (history : List (Happening Operation)) : Bool :=
  history.any (stores v) && !history.any (discards v)

def Whole (ns v : String) (k : Key) : Prop :=
  k = .of .volume none v ∨ ∃ r : Resource, r.isNamespaced ∧ k = key ns r v

/-- Handlers, withdrawals and sweeps, one after the other. Others leave the parts of backings and
the tracker as they are and do not take away a volume that is held. -/
def inService (s : Setup) : Regime Operation :=
  serial s Serves fun p site =>
    ∀ v, held v p.history → site.cluster.contains (.of .volume none v)

def Missed (v : String) (past : Past) : Prop :=
  ∃ e : ApiError, e.isNotFound ∧ ⟨.call (.read .volume none v), .error e⟩ ∈ past

variable {s : Setup} {w : Site} {p : Pool Operation} {v : String}

theorem held_cons (h : Happening Operation) (history : List (Happening Operation)) :
    held v (h :: history) =
      ((stores v h || history.any (stores v)) &&
        !(discards v h || history.any (discards v))) := rfl

theorem held_of_cons {h : Happening Operation} {history : List (Happening Operation)}
    (hstores : stores v h = false) (hv : held v (h :: history)) : held v history := by
  rw [held_cons, hstores] at hv
  rw [held]
  grind

theorem discards_of_held {h : Happening Operation} {history : List (Happening Operation)}
    (hv : held v history) (hmem : h ∈ history) : discards v h = false := by
  simp only [held, Bool.and_eq_true, Bool.not_eq_true', List.any_eq_false] at hv
  exact Bool.eq_false_iff.2 (hv.2 h hmem)

theorem ne_of_whole {other : String} {r : Resource} {n m : Option String} {past : Past}
    (h : Backing.Takedown s.settings.serverNamespace other (.call (.delete r n m)) past)
    (hne : other ≠ v) {k : Key} (hk : Whole s.settings.serverNamespace v k) : Key.of r n m ≠ k := by
  have hone {r : Resource} (hr : r.isNamespaced) :
      Key.of r (some s.settings.serverNamespace) (some (Name.backing other)) ≠ k := by
    rw [Backing.of_backing hr]
    rcases hk with rfl | ⟨t, -, rfl⟩
    · intro hkey
      obtain rfl : r = .volume := congrArg Key.resource hkey
      cases hr
    · exact fun hkey => hne (Backing.key_inj.1 hkey).2
  cases h with
  | quiet hq => exact hq.elim
  | deleteService => exact hone rfl
  | deleteServer => exact hone rfl
  | deleteClaim => exact hone rfl

theorem missed_of_condemned {before : Past} (h : Collector.Condemned s v before) :
    Missed v before := by
  cases h with
  | intro _ _ hstale =>
    cases hstale with
    | @intro name owner x e _ _ _ _ _ he =>
      exact ⟨e, he, List.mem_cons_of_mem _ (List.mem_cons_of_mem _ List.mem_cons_self)⟩

/-- What is deleted belongs to a volume that is discarded, or that was found to be missing. -/
theorem ne_of_delete {o : Operation} {past : Past} {r : Resource} {n m : Option String}
    (hserves : Serves o) (h : o.May s (.call (.delete r n m)) past)
    (hkept : discards v (.begun o) = false) (hmissed : o = .sweep → ¬Missed v past) {k : Key}
    (hk : Whole s.settings.serverNamespace v k) : Key.of r n m ≠ k := by
  have hwithdraws {volume : Object}
      (h : Provisioning.Withdraws s volume (.call (.delete r n m)) past)
      (hkept : nameOf volume = v → policy? volume = some "Retain") : Key.of r n m ≠ k := by
    cases h with
    | quiet hq => exact hq.elim
    | backing hpolicy _ h => exact ne_of_whole h (fun hv => hpolicy (hkept hv)) hk
  cases o with
  | create => exact hserves.elim
  | delete => exact hserves.elim
  | provide => exact hserves.elim
  | claimed claim => exact absurd h Controller.Claims.deletes_nothing
  | withdraw volume =>
    apply hwithdraws h
    intro hname
    simpa [discards, hname] using hkept
  | released volume =>
    have hpolicy : nameOf volume = v → policy? volume = some "Retain" := by
      intro hname
      simpa [discards, hname] using hkept
    cases h with
    | withdraw _ h => exact hwithdraws h hpolicy
    | delete hdelete =>
      rcases hk with rfl | ⟨t, ht, rfl⟩
      · intro hkey
        have hname : volume.knownMetadata.name = some v := congrArg Key.name hkey
        have hretain := hpolicy (by rw [nameOf, hname]; rfl)
        simp [hretain] at hdelete
      · intro hkey
        obtain rfl : .volume = t := congrArg Key.resource hkey
        cases ht
  | sweep =>
    obtain ⟨other, before, hcondemned, hsince, h⟩ := Collector.Sweeps.takedown_of_alters h rfl
    apply ne_of_whole h _ hk
    intro hother
    subst hother
    obtain ⟨e, he, hmem⟩ := missed_of_condemned hcondemned
    exact hmissed rfl ⟨e, he, hsince.mem hmem⟩

/-- Held volumes are there with all of their backing, and none of them was found to be missing. -/
structure Kept (s : Setup) (p : Pool Operation) : Prop where
  whole : ∀ {v k}, held v p.history → Whole s.settings.serverNamespace v k →
    p.site.cluster.contains k
  missed : ∀ {v t}, p.threads .sweep = some t → Missed v t.past → held v p.history = false

theorem creates_of_stores {o : Operation} {e : Turn} (h : stores v (.answered o e)) :
    ∃ claim ns body object, o = .claimed claim ∧ body.knownMetadata.name = some v ∧
      e = ⟨.call (.create .volume ns body), .ok object⟩ := by
  simp only [stores] at h
  split at h
  · next claim ns body object heq =>
    cases heq
    exact ⟨claim, ns, body, object, rfl, of_decide_eq_true h, rfl⟩
  · cases h

theorem whole_of_stores {o : Operation} {t : Thread} {q : Request} {x : q.Answer} {site : Site}
    (h : (inService s).Reach w p) (ht : p.threads o = some t) (hmay : o.May s q t.past)
    (hx : p.site.Answers Site.Mute q x site) (hstores : stores v (.answered o ⟨q, x⟩)) {k : Key}
    (hk : Whole s.settings.serverNamespace v k) : site.cluster.contains k := by
  obtain ⟨claim, ns, body, object, rfl, hbody, heq⟩ := creates_of_stores hstores
  cases heq
  rcases hk with rfl | ⟨r, hr, rfl⟩
  · apply Site.contains_of_shows (fun _ he => he) hx trivial (b := true)
    rw [← hbody]
    exact if_pos rfl
  · apply Site.contains_of_answers hx trivial _ fun _ _ _ => nofun
    obtain ⟨hname, hshows⟩ := Controller.Claims.of_create hmay
    rw [hbody] at hname
    cases hname
    exact Serial.known h ht hr (hshows r hr)

theorem whole_of_answer {o : Operation} {t : Thread} {q : Request} {x : q.Answer} {site : Site}
    (h : (inService s).Reach w p) (hkept : Kept s p) (ht : p.threads o = some t)
    (hmay : o.May s q t.past) (hx : p.site.Answers Site.Mute q x site)
    (hv : held v (.answered o ⟨q, x⟩ :: p.history)) {k : Key}
    (hk : Whole s.settings.serverNamespace v k) : site.cluster.contains k := by
  cases hstores : stores v (.answered o ⟨q, x⟩) with
  | true => exact whole_of_stores h ht hmay hx hstores hk
  | false =>
    have hheld := held_of_cons hstores hv
    obtain ⟨hserves, hbegun, -⟩ := Serial.alone h ht
    apply Site.contains_of_answers hx (hmay.fits (h.genuine ht)) (hkept.whole hheld hk)
    rintro r n m rfl
    apply ne_of_delete hserves hmay (discards_of_held hheld hbegun) _ hk
    -- A sweep deletes only after it has missed the volume, which is held and so was there.
    intro ho hmissed
    subst ho
    rw [hkept.missed ht hmissed] at hheld
    cases hheld

/-- A volume that is held is not found to be missing. -/
theorem missed_of_answer {t : Thread} {q : Request} {x : q.Answer} {site : Site}
    (h : (inService s).Reach w p) (hkept : Kept s p) (ht : p.threads .sweep = some t)
    (hmay : Operation.sweep.May s q t.past) (hx : p.site.Answers Site.Mute q x site)
    (hmissed : Missed v (⟨q, x⟩ :: t.past)) :
    held v (.answered .sweep ⟨q, x⟩ :: p.history) = false := by
  rw [Bool.eq_false_iff]
  intro hv
  obtain ⟨e, he, hmem⟩ := hmissed
  rcases List.mem_cons.1 hmem with heq | hmem
  · cases heq
    have habsent := Site.contains_of_shows (k := .of .volume none v) (b := false)
      (fun _ he => he) hx trivial (by simp [Turn.shows, Call.key?, Call.shows, he])
    rw [whole_of_answer h hkept ht hmay hx hv (.inl rfl)] at habsent
    cases habsent
  · have hbefore := hkept.missed ht ⟨e, he, hmem⟩
    rw [held_of_cons rfl hv] at hbefore
    cases hbefore

theorem kept (h : (inService s).Reach w p) : Kept s p := by
  apply h.inv ⟨fun hv => (nomatch hv), fun ht => nomatch ht⟩
  intro p p' hp ih step
  cases step with
  | @begin i hi hadmits =>
    refine ⟨fun hv => ih.whole (held_of_cons rfl hv), fun {v t} ht hmissed => ?_⟩
    rcases Pool.thread_of_begin ht with ⟨-, rfl⟩ | ⟨-, ht⟩
    · obtain ⟨e, -, hmem⟩ := hmissed
      cases hmem
    · rw [hadmits.1] at ht
      cases ht
  | @answer i past rest q k x site hi hhead hx =>
    have hmay := hp.may id (fun _ => rfl) hi hhead
    refine ⟨fun hv hk => whole_of_answer hp ih hi hmay hx hv hk, fun {v t} ht hmissed => ?_⟩
    obtain ⟨rfl, rfl⟩ := Serial.thread_of_answer hp hi ht
    exact missed_of_answer hp ih hi hmay hx hmissed
  | finish hi => exact ⟨ih.whole, fun ht => absurd ht (Serial.not_of_finish hp hi)⟩
  | @move site hmoves =>
    have hold {v} (hv : held v (.moved site :: p.history)) : held v p.history := held_of_cons rfl hv
    refine ⟨fun {v k} hv hk => ?_, fun {v t} ht hmissed => ?_⟩
    · rcases hk with rfl | ⟨r, hr, rfl⟩
      · exact hmoves.2.2 v (hold hv)
      · exact (congrArg Option.isSome (hmoves.2.1 r v hr)).trans
          (ih.whole (hold hv) (.inr ⟨r, hr, rfl⟩))
    · rw [Pool.move_history, Bool.eq_false_iff]
      intro hv
      have hbefore := ih.missed ht hmissed
      rw [hold hv] at hbefore
      cases hbefore

/-- A volume that the handler has stored and nobody has discarded is there with its claim, its
server and its service. -/
theorem whole_of_held (h : (inService s).Reach w p) (hv : held v p.history) :
    p.site.cluster.contains (.of .volume none v) ∧
      ∀ r : Resource, r.isNamespaced →
        p.site.cluster.contains (key s.settings.serverNamespace r v) :=
  ⟨(kept h).whole hv (.inl rfl), fun r hr => (kept h).whole hv (.inr ⟨r, hr, rfl⟩)⟩

def served : Pool Operation :=
  ((Pool.start Sample.site).begin (.claimed Sample.claim)
    ((inService .plain).program (.claimed Sample.claim))).replies (.claimed Sample.claim) 22

theorem reach_served : (inService .plain).Reach Sample.site served :=
  ((Regime.Reach.start (R := inService .plain) (w := Sample.site)).begin
    (i := .claimed Sample.claim) rfl ⟨fun _ => rfl, trivial⟩).replies (.claimed Sample.claim) 22

theorem whole_of_held_served :
    served.site.cluster.contains (.of .volume none "pvc-u1") ∧
      ∀ r : Resource, r.isNamespaced → served.site.cluster.contains (key "nfs" r "pvc-u1") :=
  whole_of_held reach_served (by decide +kernel)

end VolumeExport.Durable
