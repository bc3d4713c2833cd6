import VolumeExport.Proofs.Operation

namespace VolumeExport

open Backing (key)

/-- One operation at a time, of those that are accepted. Failures do not pretend that an object is
missing or there. Others leave the parts of backings as they are. -/
def serial (s : Setup) (accepts : Operation → Prop) (spares : Pool Operation → Site → Prop) :
    Regime Operation where
  program := Operation.program s
  admits p o := (∀ j, p.threads j = none) ∧ accepts o
  faults := Site.Mute
  moves p site := site.tracker = p.site.tracker ∧
    (∀ (r : Resource) v, r.isNamespaced →
      site.cluster.store.get? (key s.settings.serverNamespace r v) =
        p.site.cluster.store.get? (key s.settings.serverNamespace r v)) ∧
    spares p site

namespace Serial

variable {s : Setup} {accepts : Operation → Prop} {spares : Pool Operation → Site → Prop}
  {w : Site} {p : Pool Operation} {o : Operation} {t : Thread}

theorem alone (h : (serial s accepts spares).Reach w p) (ht : p.threads o = some t) :
    accepts o ∧ .begun o ∈ p.history ∧ ∀ j, j ≠ o → p.threads j = none := by
  revert o t
  apply h.inv (I := fun p => ∀ {o t}, p.threads o = some t →
    accepts o ∧ .begun o ∈ p.history ∧ ∀ j, j ≠ o → p.threads j = none) (fun ht => nomatch ht)
  intro p p' _ ih step o t ht
  cases step with
  | @begin i hi hadmits =>
    rcases Pool.thread_of_begin ht with ⟨rfl, -⟩ | ⟨-, ht⟩
    · refine ⟨hadmits.2, List.mem_cons_self, fun j hj => ?_⟩
      rw [Pool.begin_of_ne hj]
      exact hadmits.1 j
    · rw [hadmits.1 o] at ht
      cases ht
  | @answer i past rest q k x site hi hhead hx =>
    obtain ⟨haccepts, hbegun, hothers⟩ := ih hi
    rcases Pool.thread_of_answer ht with ⟨rfl, -⟩ | ⟨hne, ht⟩
    · refine ⟨haccepts, List.mem_cons_of_mem _ hbegun, fun j hj => ?_⟩
      rw [Pool.answer_of_ne hj]
      exact hothers j hj
    · rw [hothers o hne] at ht
      cases ht
  | finish hi hhead =>
    obtain ⟨hne, ht⟩ := Pool.thread_of_finish ht
    rw [(ih hi).2.2 o hne] at ht
    cases ht
  | move =>
    obtain ⟨haccepts, hbegun, hothers⟩ := ih (o := o) ht
    exact ⟨haccepts, List.mem_cons_of_mem _ hbegun, hothers⟩

theorem unique (h : (serial s accepts spares).Reach w p) {o' : Operation} {t' : Thread}
    (ht : p.threads o = some t) (ht' : p.threads o' = some t') : o = o' ∧ t = t' := by
  by_cases ho : o = o'
  · subst ho
    rw [ht] at ht'
    exact ⟨rfl, Option.some.inj ht'⟩
  · rw [(alone h ht').2.2 o ho] at ht
    cases ht

theorem thread_of_answer (h : (serial s accepts spares).Reach w p) {i : Operation}
    {before after : Thread} (hi : p.threads i = some before) {e : Turn} {site : Site}
    (ht : (p.answer i e after site).threads o = some t) : o = i ∧ t = after := by
  rcases Pool.thread_of_answer ht with hnew | ⟨hne, ht⟩
  · exact hnew
  · exact absurd (unique h ht hi).1 hne

theorem not_of_finish (h : (serial s accepts spares).Reach w p) {i : Operation} {before : Thread}
    (hi : p.threads i = some before) : (p.finish i).threads o ≠ some t := by
  intro ht
  obtain ⟨hne, ht⟩ := Pool.thread_of_finish ht
  exact hne (unique h ht hi).1

/-- What holds of an operation and its site when the operation begins, and is kept by its answers
and by others, holds as long as the operation runs. -/
theorem inv_running {J : Operation → Past → Site → Prop} (h : (serial s accepts spares).Reach w p)
    (hbegin : ∀ o site, J o [] site)
    (hanswer : ∀ o past q x site site', J o past site → o.May s q past → q.Fits →
      site.Answers Site.Mute q x site' → J o (⟨q, x⟩ :: past) site')
    (hmove : ∀ o past (p : Pool Operation) site, J o past p.site →
      (serial s accepts spares).moves p site → J o past site)
    (ht : p.threads o = some t) : J o t.past p.site := by
  revert o t
  apply h.inv (I := fun p => ∀ {o t}, p.threads o = some t → J o t.past p.site)
    (fun ht => nomatch ht)
  intro p p' hp ih step o t ht
  cases step with
  | @begin i hi hadmits =>
    rcases Pool.thread_of_begin ht with ⟨rfl, rfl⟩ | ⟨-, ht⟩
    · exact hbegin o p.site
    · rw [hadmits.1 o] at ht
      cases ht
  | @answer i past rest q k x site hi hhead hx =>
    obtain ⟨rfl, rfl⟩ := thread_of_answer hp hi ht
    have hmay := hp.may id (fun _ => rfl) hi hhead
    exact hanswer o past q x p.site site (ih hi) hmay (hmay.fits (hp.genuine hi)) hx
  | finish hi => exact absurd ht (not_of_finish hp hi)
  | @move site hmoves => exact hmove o t.past p site (ih ht) hmoves

theorem known (h : (serial s accepts spares).Reach w p) (ht : p.threads o = some t) {r : Resource}
    (hr : r.isNamespaced) {v : String} {b : Bool}
    (hb : t.past.shows (key s.settings.serverNamespace r v) = some b) :
    p.site.cluster.contains (key s.settings.serverNamespace r v) = b := by
  apply inv_running (J := fun _ past site => ∀ b,
    past.shows (key s.settings.serverNamespace r v) = some b →
      site.cluster.contains (key s.settings.serverNamespace r v) = b) h _ _ _ ht b hb
  · exact fun _ _ _ hb => nomatch hb
  · intro _ past q x site site' hJ _ hfits hx
    exact Site.known_of_answers (fun _ he => he) hx hr hfits hJ
  · intro _ past p site hJ hmoves b hb
    rw [← hJ b hb]
    exact congrArg Option.isSome (hmoves.2.1 r v hr)

/-- The part that the running operation has read last is still as it was read. -/
theorem copied (h : (serial s accepts spares).Reach w p) (ht : p.threads o = some t) {r : Resource}
    (hr : r.isNamespaced) {v : String} {object : Object}
    (hcopy : t.past.copy? = some (key s.settings.serverNamespace r v, object)) :
    p.site.cluster.metadata? (key s.settings.serverNamespace r v) = some object.knownMetadata := by
  apply inv_running (J := fun _ past site => ∀ object,
    past.copy? = some (key s.settings.serverNamespace r v, object) →
      site.cluster.metadata? (key s.settings.serverNamespace r v) = some object.knownMetadata)
    h _ _ _ ht object hcopy
  · exact fun _ _ _ hb => nomatch hb
  · intro _ past q x site site' hJ _ _ hx object ho
    exact Site.copy_of_answers hx hJ ho
  · intro _ past p site hJ hmoves object ho
    rw [← hJ object ho, Cluster.metadata?, hmoves.2.1 r v hr, Cluster.metadata?]

/-- A volume that was not tracked at the start is tracked only while an operation runs that tracks
it. -/
theorem tracked_by (h : (serial s accepts spares).Reach w p) {v : String}
    (hv : p.site.tracker.contains v) :
    w.tracker.contains v ∨ ∃ o t, p.threads o = some t ∧ t.past.tracks v := by
  apply h.tracked_by id (fun _ => rfl) _ hv
  intro p site hmoves hv
  rwa [hmoves.1] at hv

end Serial

end VolumeExport
