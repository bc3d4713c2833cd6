import VolumeExport.Proofs.Failure

namespace VolumeExport

/-- What gives a result gives it from results of its parts. -/
class Traceable (m : Type → Type) [Monad m] : Prop where
  pure_inj {α : Type} {a b : α} : (pure a : m α) = pure b → a = b
  of_bind {α β : Type} {x : m α} {f : α → m β} {b : β} :
    x >>= f = pure b → ∃ a, x = pure a ∧ f a = pure b

instance : Traceable Id where
  pure_inj h := h
  of_bind h := ⟨_, rfl, h⟩

instance {ε : Type} : Traceable (Except ε) where
  pure_inj := Except.ok.inj
  of_bind := eq_ok_of_bind

namespace Stateful

variable {σ α β ε : Type} {m : Type → Type} [Monad m] {I : σ → Prop} {P : α → Prop} {Q : β → Prop}

/-- A computation keeps what holds of the state, and gives what has a property. -/
def Keeps (I : σ → Prop) (P : α → Prop) (a : StateT σ m α) : Prop :=
  ∀ s b s', I s → a.run s = pure (b, s') → P b ∧ I s'

theorem keeps_throw {e : ε} : Keeps I P (throw e : StateT σ (Except ε) α) := nofun

variable [Traceable m]

theorem keeps_of_run {a : StateT σ m α}
    (h : ∀ s, I s → ∃ b s', a.run s = pure (b, s') ∧ P b ∧ I s') : Keeps I P a := by
  intro s c t hs hrun
  obtain ⟨b, s', heq, hb, hs'⟩ := h s hs
  cases Traceable.pure_inj (heq.symm.trans hrun)
  exact ⟨hb, hs'⟩

theorem keeps_pure {a : α} (h : P a) : Keeps I P (pure a : StateT σ m α) :=
  keeps_of_run fun s hs => ⟨a, s, rfl, h, hs⟩

theorem keeps_get : Keeps I I (get : StateT σ m σ) := keeps_of_run fun s hs => ⟨s, s, rfl, hs, hs⟩

theorem keeps_set {s : σ} (h : I s) : Keeps I (fun _ => True) (set s : StateT σ m PUnit) :=
  keeps_of_run fun _ _ => ⟨⟨⟩, s, rfl, trivial, h⟩

theorem keeps_modify {f : σ → σ} (h : ∀ s, I s → I (f s)) :
    Keeps I (fun _ => True) (modify f : StateT σ m PUnit) :=
  keeps_of_run fun s hs => ⟨⟨⟩, f s, rfl, trivial, h s hs⟩

theorem keeps_lift {x : m α} : Keeps I (fun a => x = pure a) (liftM x : StateT σ m α) := by
  intro s b s' hs hrun
  obtain ⟨c, hc, hrun⟩ := Traceable.of_bind hrun
  cases Traceable.pure_inj hrun
  exact ⟨hc, hs⟩

theorem Keeps.bind {a : StateT σ m α} {f : α → StateT σ m β} (h : Keeps I P a)
    (hf : ∀ b, P b → Keeps I Q (f b)) : Keeps I Q (a >>= f) := by
  intro s c s' hs hrun
  rw [StateT.run_bind] at hrun
  obtain ⟨⟨b, t⟩, hb, hc⟩ := Traceable.of_bind hrun
  obtain ⟨hp, ht⟩ := h s b t hs hb
  exact hf b hp t c s' ht hc

theorem Keeps.discard {a : StateT σ m α} (h : Keeps I P a) :
    Keeps I (fun _ => True) (discard a) := by
  intro s b s' hs hrun
  obtain ⟨⟨c, t⟩, hc, hrun⟩ := Traceable.of_bind hrun
  cases Traceable.pure_inj hrun
  exact ⟨trivial, (h s c _ hs hc).2⟩

theorem keeps_forM {f : α → StateT σ m PUnit} {as : List α}
    (h : ∀ a, Keeps I (fun _ => True) (f a)) : Keeps I (fun _ => True) (as.forM f) := by
  induction as with
  | nil => exact keeps_pure trivial
  | cons a as ih => exact (h a).bind fun _ _ => ih

theorem keeps_foldlM {f : β → α → StateT σ m β} {as : List α}
    (h : ∀ b a, Keeps I (fun _ => True) (f b a)) (b : β) :
    Keeps I (fun _ => True) (as.foldlM f b) := by
  induction as generalizing b with
  | nil => exact keeps_pure trivial
  | cons a as ih =>
    rw [List.foldlM_cons]
    exact (h b a).bind fun b' _ => ih b'

theorem keeps_mapIdxM {f : Nat → α → StateT σ m β} {as : List α}
    (h : ∀ i a, Keeps I (fun _ => True) (f i a)) : Keeps I (fun _ => True) (as.mapIdxM f) := by
  rw [List.mapIdxM]
  generalize (#[] : Array β) = done
  induction as generalizing done with
  | nil => exact keeps_pure trivial
  | cons a as ih => exact (h _ a).bind fun b _ => ih _

variable [LawfulMonad m]

theorem keeps_mapM {f : α → StateT σ m β} {as : List α} (h : ∀ a, Keeps I Q (f a)) :
    Keeps I (fun bs => ∀ b ∈ bs, Q b) (as.mapM f) := by
  induction as with
  | nil => exact keeps_pure (List.forall_mem_nil Q)
  | cons a as ih =>
    rw [List.mapM_cons]
    exact (h a).bind fun b hb => ih.bind fun bs hbs =>
      keeps_pure (List.forall_mem_cons.2 ⟨hb, hbs⟩)

end Stateful

end VolumeExport
